import TaskCapture.Proofs.Capture.MarkerWords
import TaskCapture.Proofs.Capture.TagWords
import TaskCapture.Proofs.Phrase.Written

/-!
The words of the line that describes a task: those of its title, the marker, the tags and the due
words. Each of the added words is found by the step that looks for it and by no other.
-/

namespace TaskCapture

open Text

/-- The word that writes the priority. -/
def markerWords : Option Priority → List Text
  | none => []
  | some p => ['!' :: p.keyword.toList]

/-- The words that write the due date. -/
def dueWords : Option Date → Option Text → List Text
  | none, _ => []
  | some d, s => d.text :: s.toList

namespace Task

/-- What every task has whose fields can stand in a line: a title with a word in it, tags that are
names in small letters, a time only with a date, and no tag that would be taken for a priority. -/
structure WellFormed (t : Task) : Prop where
  title : words t.title ≠ []
  isName : ∀ n ∈ t.categories ++ t.contexts, Tag.IsName n
  lower_eq : ∀ n ∈ t.categories ++ t.contexts, lower n = n
  time : ∀ s ∈ t.dueTime, t.dueDate.isSome ∧ ∃ c : Clock, s = c.text
  shorthand : t.priority = none →
    ∀ n ∈ t.categories ++ t.contexts, Priority.shorthand.find? false n = none

/-- What the line adds to the title first. -/
def marker (t : Task) : List Text := markerWords t.priority

/-- What the line adds to the title last. -/
def due (t : Task) : List Text := dueWords t.dueDate t.dueTime

/-- What the line adds after the marker. -/
def tagsAndDue (t : Task) : List Text :=
  Tag.tagWords .category t.categories ++ (Tag.tagWords .context t.contexts ++ t.due)

lemma priorityText_eq_spaced (p : Option Priority) : priorityText p = spaced (markerWords p) := by
  cases p with
  | none => rfl
  | some p => simp [priorityText, markerWords]

lemma tagsText_eq_spaced (k : TagKind) (ns : List Text) :
    tagsText k ns = spaced (Tag.tagWords k ns) := by
  induction ns with
  | nil => rfl
  | cons n ns ih =>
    rw [Tag.tagWords, List.map_cons, spaced_cons, ← Tag.tagWords, ← ih]
    rfl

lemma dueText_eq_spaced (d : Option Date) (s : Option Text) :
    dueText d s = spaced (dueWords d s) := by
  match d, s with
  | none, _ => rfl
  | some d, none => simp [dueText, dueWords]
  | some d, some s => simp [dueText, dueWords]

lemma line_eq (t : Task) : t.line = t.title ++ spaced (t.marker ++ t.tagsAndDue) := by
  rw [line, priorityText_eq_spaced, tagsText_eq_spaced, tagsText_eq_spaced, dueText_eq_spaced]
  simp [marker, tagsAndDue, due, spaced_append]

end Task

/-! ### Marker words -/

lemma solid_of_mem_markerWords {p : Option Priority} {w : Text} (h : w ∈ markerWords p) :
    Solid w := by
  cases p with
  | none => simp [markerWords] at h
  | some p =>
    obtain rfl := List.mem_singleton.1 h
    obtain ⟨-, hp⟩ := p.solid_keyword
    refine ⟨by simp, fun c hc => ?_⟩
    rcases List.mem_cons.1 hc with rfl | hc
    · decide
    · exact hp c hc

lemma sigil_not_mem_markerWords {p : Option Priority} (k : TagKind) {w : Text}
    (h : w ∈ markerWords p) : k.sigil ∉ w := by
  cases p with
  | none => simp [markerWords] at h
  | some p =>
    obtain rfl := List.mem_singleton.1 h
    cases k <;> cases p <;> decide

/-- The marker of a priority is read as that priority, and nothing is left of it. -/
lemma find?_markerWord (p : Priority) :
    Priority.levelWord.find? false ('!' :: p.keyword.toList) =
      some ⟨p, [], '!' :: p.keyword.toList, []⟩ := by
  cases p <;> rfl

/-! ### Due words -/

/-- Times of day come after dates, and are written as such. -/
def IsTime (s : Option Text) : Prop := ∀ w ∈ s, ∃ c : Clock, w = c.text

lemma isStampChar_of_mem_dueWords {d : Option Date} {s : Option Text} (hs : IsTime s) {w : Text}
    (h : w ∈ dueWords d s) {c : Char} (hc : c ∈ w) : isStampChar c = true := by
  cases d with
  | none => simp [dueWords] at h
  | some d =>
    rcases List.mem_cons.1 h with rfl | h
    · exact Date.isStampChar_of_mem_text hc
    · obtain ⟨t, rfl⟩ := hs w (Option.mem_toList.1 h)
      exact Clock.isStampChar_of_mem_text hc

lemma solid_of_mem_dueWords {d : Option Date} {s : Option Text} (hs : IsTime s) {w : Text}
    (h : w ∈ dueWords d s) : Solid w := by
  refine ⟨?_, fun c hc => (Phrase.isStampChar_cases (isStampChar_of_mem_dueWords hs h hc)).2.2⟩
  cases d with
  | none => simp [dueWords] at h
  | some d =>
    rcases List.mem_cons.1 h with rfl | h
    · exact List.ne_nil_of_mem d.hyphen_mem_text
    · obtain ⟨c, rfl⟩ := hs w (Option.mem_toList.1 h)
      exact List.ne_nil_of_mem c.colon_mem_text

lemma sigil_not_mem_dueWords {d : Option Date} {s : Option Text} (hs : IsTime s) (k : TagKind)
    {w : Text} (h : w ∈ dueWords d s) : k.sigil ∉ w := by
  intro hc
  have := isStampChar_of_mem_dueWords hs h hc
  cases k <;> exact absurd this (by decide)

/-! ### Words without markers -/

namespace Pattern

/-- A marker begins with one of its characters. -/
lemma find?_eq_none {α : Type} {p : Pattern α} {t : Text}
    (h : ∀ c ∈ t, ∀ b r, p b (c :: r) = none) (b : Bool) : p.find? b t = none := by
  induction t generalizing b with
  | nil => rfl
  | cons c t ih =>
    rw [find?, h c (by simp)]
    simp [ih fun d hd => h d (by simp [hd])]

end Pattern

namespace Priority

lemma find?_levelWord_of_not_mem {w : Text} (h : '!' ∉ w) (b : Bool) :
    levelWord.find? b w = none := by
  refine Pattern.find?_eq_none (fun c hc b r => ?_) b
  have hne : c ≠ '!' := fun he => h (he ▸ hc)
  simp [levelWord, hne]

lemma find?_shorthand_of_not_mem {w : Text} (h : 'p' ∉ w) (h' : 'P' ∉ w) (b : Bool) :
    shorthand.find? b w = none := by
  refine Pattern.find?_eq_none (fun c hc b r => ?_) b
  have hp : ¬ (c = 'p' ∨ c = 'P') := by
    rintro (rfl | rfl)
    · exact h hc
    · exact h' hc
  cases r <;> simp [shorthand, hp]

/-- A word without exclamation marks has no marker but perhaps a short one. -/
lemma find?_of_not_mem {w : Text} (h : '!' ∉ w) (hs : shorthand.find? false w = none) :
    find? w = none := by
  have hne : ∀ c ∈ w, c ≠ '!' := fun c hc he => h (he ▸ hc)
  have hlong : longRun.find? false w = none :=
    Pattern.find?_eq_none (fun c hc b r => by simp [longRun, hne c hc]) false
  have hpair : pair.find? false w = none :=
    Pattern.find?_eq_none (fun c hc b r => by simp [pair, hne c hc]) false
  simp [find?, patterns, find?_levelWord_of_not_mem h, hs, hlong, hpair]

/-- A word that holds no marker a line with priority `p` would be read by. -/
def Unmarked (p : Option Priority) (w : Text) : Prop :=
  match p with
  | none => find? w = none
  | some _ => levelWord.find? false w = none

lemma unmarked_of_not_mem {p : Option Priority} {w : Text} (h : '!' ∉ w)
    (hs : p = none → shorthand.find? false w = none) : Unmarked p w := by
  cases p with
  | none => exact find?_of_not_mem h (hs rfl)
  | some p => exact find?_levelWord_of_not_mem h false

lemma unmarked_of_mem_dueWords (p : Option Priority) {d : Option Date} {s : Option Text}
    (hs : IsTime s) {w : Text} (h : w ∈ dueWords d s) : Unmarked p w := by
  have hmem : ∀ c, isStampChar c = false → c ∉ w := by
    intro c hc hw
    rw [isStampChar_of_mem_dueWords hs h hw] at hc
    cases hc
  exact unmarked_of_not_mem (hmem _ (by decide)) fun _ =>
    find?_shorthand_of_not_mem (hmem _ (by decide)) (hmem _ (by decide)) false

lemma unmarked_of_mem_tagWords {p : Option Priority} {k : TagKind} {ns : List Text}
    (hn : ∀ n ∈ ns, Tag.IsName n)
    (hs : p = none → ∀ n ∈ ns, shorthand.find? false n = none) {w : Text}
    (h : w ∈ Tag.tagWords k ns) : Unmarked p w := by
  obtain ⟨n, hmem, rfl⟩ := List.mem_map.1 h
  refine unmarked_of_not_mem ?_ fun hp => ?_
  · intro hc
    rcases List.mem_cons.1 hc with hc | hc
    · cases k <;> exact absurd hc (by decide)
    · exact absurd ((hn n hmem).2 _ hc) (by decide)
  · -- the sigil is no word character, so the name is looked at as if nothing stood before it
    have hk : isWord k.sigil = false := by cases k <;> decide
    have hkp : ∀ b r, shorthand b (k.sigil :: r) = none := by
      intro b r
      cases k <;> cases r <;> simp [shorthand, TagKind.sigil]
    rw [Pattern.find?, hkp, hk, hs hp n hmem]
    rfl

/-- The words of a list hold no marker. -/
lemma takeOut_eq_none_iff {ws : List Text} : takeOut ws = none ↔ ∀ w ∈ ws, find? w = none := by
  have h : ∀ ps : List (Pattern Priority), (ps.findSome? fun p => p.takeOut ws) = none ↔
      ∀ w ∈ ws, (ps.findSome? fun p => p.find? false w) = none := by
    intro ps
    simp only [List.findSome?_eq_none_iff, Pattern.takeOut_eq_none_iff]
    exact ⟨fun h w hw p hp => h p hp w hw, fun h p hp w hw => h w hw p hp⟩
  exact h patterns

end Priority

end TaskCapture
