import TaskCapture.Proofs.Capture.Precedence
import TaskCapture.Proofs.Capture.SecondReading
import TaskCapture.Proofs.Capture.TagPasses
import TaskCapture.Proofs.Phrase.Alone

/-!
Where the characters of a line go. Each step of an interpretation takes characters out of the text
that the step before left, so every character of the line, blanks apart, belongs to just one part of
the task.
-/

namespace TaskCapture

open Text

/-! ### What characters are for -/

/-- What a character of a line is for. -/
inductive Role where
  | priority
  | tag (k : TagKind) (i : ℕ)
  | date
  | title
  deriving DecidableEq

namespace Role

/-- The characters with a role, in their order. -/
def text (p : Role) (l : List (Char × Role)) : Text := (l.filter (·.2 = p)).map (·.1)

variable {p q : Role} {l : List (Char × Role)}

lemma text_cons (c : Char) (q : Role) :
    p.text ((c, q) :: l) = if q = p then c :: p.text l else p.text l := by
  unfold text
  rw [List.filter_cons]
  split_ifs with h h' h' <;> simp_all

@[simp] lemma text_append (l l' : List (Char × Role)) :
    p.text (l ++ l') = p.text l ++ p.text l' := by simp [text]

lemma text_map_self (t : Text) : p.text (t.map (·, p)) = t := by
  induction t with
  | nil => rfl
  | cons c t ih => rw [List.map_cons, text_cons, if_pos rfl, ih]

lemma text_map_of_ne (h : q ≠ p) (t : Text) : p.text (t.map (·, q)) = [] := by
  induction t with
  | nil => rfl
  | cons c t ih => rw [List.map_cons, text_cons, if_neg h, ih]

/-- **A role of their own** for characters that stand together. -/
theorem exists_insert {a x b : Text} (h : l.map (·.1) = visible a ++ visible b)
    (hp : p.text l = []) :
    ∃ l', l'.map (·.1) = visible (a ++ x ++ b) ∧ p.text l' = visible x ∧
      ∀ q ≠ p, q.text l' = q.text l := by
  obtain ⟨la, lb, rfl, ha, hb⟩ := List.map_eq_append_iff.1 h
  rw [text_append, List.append_eq_nil_iff] at hp
  refine ⟨la ++ (visible x).map (·, p) ++ lb, ?_, ?_, fun q hq => ?_⟩
  · simp [ha, hb, Function.comp_def]
  · simp [hp.1, hp.2, text_map_self]
  · simp [text_map_of_ne hq.symm]

end Role

/-! ### Tags -/

namespace Tag

variable {k : TagKind}

/-- The characters write a tag: a sigil and a name that comes to `n` in small letters. Where there
is no tag there are no characters. -/
def Writes (k : TagKind) : Option Text → Text → Prop
  | none, u => u = []
  | some n, u => ∃ w, u = k.sigil :: w ∧ IsName w ∧ lower w = n

lemma exists_text_pieces {ps : List Piece} (hname : ∀ n ∈ names ps, IsName n) (i : ℕ)
    {l : List (Char × Role)} (h : l.map (·.1) = visible (rest ps))
    (hfresh : ∀ j, (Role.tag k (i + j)).text l = []) :
    ∃ l', l'.map (·.1) = visible (ps.flatMap (Piece.text k)) ∧
      (∀ q : Role, (∀ j, q ≠ .tag k (i + j)) → q.text l' = q.text l) ∧
        ∀ j, (Role.tag k (i + j)).text l' = (names ps)[j]?.elim [] (k.sigil :: ·) := by
  induction ps generalizing i l with
  | nil => exact ⟨l, h, fun _ _ => rfl, fun j => by simpa [names] using hfresh j⟩
  | cons piece ps ih =>
    cases piece with
    | plain c =>
      cases hc : isBlank c with
      | true =>
        rw [rest_plain, visible_cons_blank hc] at h
        obtain ⟨l', hl', hother, htag⟩ := ih hname i h hfresh
        refine ⟨l', ?_, hother, htag⟩
        rw [hl', List.flatMap_cons, Piece.text, List.singleton_append, visible_cons_blank hc]
      | false =>
        rw [rest_plain, visible_cons hc] at h
        obtain ⟨⟨c, p⟩, l, rfl, rfl, htail⟩ := List.map_eq_cons_iff.1 h
        have hp : ∀ j, p ≠ .tag k (i + j) := by
          rintro j rfl
          have := hfresh j
          rw [Role.text_cons, if_pos rfl] at this
          cases this
        have hfresh' : ∀ j, (Role.tag k (i + j)).text l = [] := by
          intro j
          have := hfresh j
          rwa [Role.text_cons, if_neg (hp j)] at this
        obtain ⟨l', hl', hother, htag⟩ := ih hname i htail hfresh'
        refine ⟨(c, p) :: l', ?_, fun q hq => ?_, fun j => ?_⟩
        · rw [List.map_cons, hl', List.flatMap_cons, Piece.text, List.singleton_append,
            visible_cons hc]
        · rw [Role.text_cons, Role.text_cons, hother q hq]
        · rw [Role.text_cons, if_neg (hp j), htag]
          rfl
    | tag n =>
      have hn : IsName n := hname n (by simp)
      have hfresh' : ∀ j, (Role.tag k (i + 1 + j)).text l = [] := fun j => by
        rw [Nat.add_assoc]
        exact hfresh (1 + j)
      obtain ⟨l', hl', hother, htag⟩ :=
        ih (fun m hm => hname m (by simp [hm])) (i + 1) (by simpa using h) hfresh'
      refine ⟨(k.sigil :: n).map (·, .tag k i) ++ l', ?_, fun q hq => ?_, fun j => ?_⟩
      · simp only [List.map_append, List.map_map, hl', List.flatMap_cons, Piece.text,
          visible_append, visible_of_solid (solid_tagWord hn)]
        simp [Function.comp_def]
      · have hi : Role.tag k i ≠ q := fun he => hq 0 (by simp [he])
        rw [Role.text_append, Role.text_map_of_ne hi, List.nil_append,
          hother q fun j => by rw [Nat.add_assoc]; exact hq (1 + j)]
      · cases j with
        | zero =>
          rw [Nat.add_zero, Role.text_append, Role.text_map_self,
            hother _ fun j => by simp; omega]
          simpa using hfresh 0
        | succ j =>
          have hne : Role.tag k i ≠ .tag k (i + (j + 1)) := by simp
          rw [Role.text_append, Role.text_map_of_ne hne, List.nil_append,
            show i + (j + 1) = i + 1 + j by omega, htag]
          rfl

/-- **Each tag that is taken out has its own characters.** -/
theorem exists_text_extract (k : TagKind) (t : Text) {l : List (Char × Role)}
    (h : l.map (·.1) = visible (extract k t).2) (hfresh : ∀ i, (Role.tag k i).text l = []) :
    ∃ l', l'.map (·.1) = visible t ∧ (∀ q : Role, (∀ i, q ≠ .tag k i) → q.text l' = q.text l) ∧
      ∀ i, Writes k (extract k t).1[i]? ((Role.tag k i).text l') := by
  have hname : ∀ n ∈ names (pieces k t), IsName n := fun n hn => isName_of_mem_names hn
  have hrest : visible (extract k t).2 = visible (rest (pieces k t)) := by
    rw [← flatten_words, words_snd_extract, flatten_words]
  rw [hrest] at h
  obtain ⟨l', hl', hother, htag⟩ := exists_text_pieces hname 0 h (by simpa using hfresh)
  rw [flatMap_text_pieces] at hl'
  refine ⟨l', hl', by simpa using hother, fun i => ?_⟩
  have hi := htag i
  rw [Nat.zero_add] at hi
  rw [fst_extract, List.getElem?_map, hi]
  cases hn : (names (pieces k t))[i]? with
  | none => rfl
  | some n => exact ⟨n, rfl, hname n (List.mem_of_getElem? hn), rfl⟩

end Tag

/-! ### Markers -/

/-- The characters write a priority: alone they are read as its marker. Where there is no priority
there are no characters. -/
def Priority.Writes : Option Priority → Text → Prop
  | none, u => u = []
  | some p, u => Priority.find? u = some ⟨p, [], u, []⟩

/-! ### Dates -/

namespace Phrase

/-- The characters write a date: they are those of a phrase that is read as the date and the time.
Where there is no date there are no characters. -/
def Writes (ref : Instant) : Option Date → Option Text → Text → Prop
  | none, s, u => s = none ∧ u = []
  | some d, s, u => ∃ x r, u = visible x ∧ reading? ref ((words x).map norm) = some r ∧
      r.used = (words x).length ∧ r.instant.date = d ∧
        (if r.hasTime then some r.instant.time.text else none) = s

end Phrase

lemma exists_text_takeDate (ref : Instant) (t : Text) {l : List (Char × Role)}
    (h : l.map (·.1) = visible (takeDate Resolver.english ref t).rest)
    (hfresh : Role.date.text l = []) :
    ∃ l', l'.map (·.1) = visible t ∧ (∀ q ≠ Role.date, q.text l' = q.text l) ∧
      Phrase.Writes ref (takeDate Resolver.english ref t).date
        (takeDate Resolver.english ref t).time (Role.date.text l') := by
  cases hm : Resolver.english t ref with
  | none =>
    simp only [takeDate, hm] at h ⊢
    exact ⟨l, h, fun _ _ => rfl, rfl, hfresh⟩
  | some m =>
    obtain ⟨a, x, b, r, rfl, rfl, hr, hused⟩ := Resolver.exists_cut_of_english hm
    have haround : around? (a ++ x ++ b) ⟨byteSize a, byteSize (a ++ x)⟩ = some (a, b) :=
      around?_of_cuts (List.append_assoc a x b) rfl
    simp only [takeDate, hm, haround, visible_collapse] at h ⊢
    rw [visible_append] at h
    obtain ⟨l', hl', hdate, hother⟩ := Role.exists_insert h hfresh
    exact ⟨l', hl', hother, x, r, hdate, hr, hused, rfl, rfl⟩

/-! ### A whole line -/

lemma Priority.exists_text_extract (t : Text) {l : List (Char × Role)}
    (h : l.map (·.1) = visible (extract t).2) (hfresh : Role.priority.text l = []) :
    ∃ l', l'.map (·.1) = visible t ∧ (∀ q ≠ Role.priority, q.text l' = q.text l) ∧
      Writes (extract t).1 (Role.priority.text l') := by
  cases hk : find? t with
  | none =>
    rw [extract_of_find?_none hk] at h ⊢
    exact ⟨l, h, fun _ _ => rfl, hfresh⟩
  | some k =>
    have hout : extract t = (some k.value, collapse (k.before ++ ' ' :: k.after)) := by
      simp [extract, hk]
    rw [hout, visible_collapse, visible_append, visible_cons_blank isBlank_space] at h
    obtain ⟨l', hl', hmarker, hother⟩ := Role.exists_insert (x := k.marker) h hfresh
    rw [← eq_of_find? hk] at hl'
    rw [visible_of_solid (solid_marker hk)] at hmarker
    refine ⟨l', hl', hother, ?_⟩
    rw [hout, hmarker]
    exact find?_marker hk

/-- Every character of the line that is not blank has one role. The characters with the same role
write what the task says: its priority, each of its tags, its date, and the title in its order. -/
structure Allotment (ref : Instant) (input : Text) (t : Task) (l : List (Char × Role)) : Prop where
  line : l.map (·.1) = visible input
  priority : Priority.Writes t.priority (Role.priority.text l)
  tag : ∀ k i, Tag.Writes k (t.tags k)[i]? ((Role.tag k i).text l)
  date : Phrase.Writes ref t.dueDate t.dueTime (Role.date.text l)
  title : Role.title.text l = visible t.title

/-- **Nothing typed is lost and nothing is invented.** The roles are found from the last step back
to the first: what is left over is the title, and each step takes characters of new roles out. -/
theorem exists_allotment (ref : Instant) {input : Text} (h : ¬ IsOwnTitle ref input) :
    ∃ l, Allotment ref input (interpret Resolver.english ref input) l := by
  have htitle : visible (interpret Resolver.english ref input).title =
      visible (leftOver Resolver.english ref input) := by
    rw [title_interpret, titleOf, if_neg (by rwa [collapse_eq_nil_iff]), visible_collapse]
  have hinit : ((visible (leftOver Resolver.english ref input)).map (·, Role.title)).map (·.1) =
      visible (leftOver Resolver.english ref input) := by simp [Function.comp_def]
  have hother : ∀ q : Role, q ≠ .title →
      q.text ((visible (leftOver Resolver.english ref input)).map (·, Role.title)) = [] :=
    fun q hq => Role.text_map_of_ne hq.symm _
  obtain ⟨l₁, h₁, hkeep₁, hdate⟩ := exists_text_takeDate ref _ hinit (hother .date (by simp))
  obtain ⟨l₂, h₂, hkeep₂, hcontext⟩ := Tag.exists_text_extract .context _ h₁ fun i => by
    rw [hkeep₁ _ (by simp), hother _ (by simp)]
  obtain ⟨l₃, h₃, hkeep₃, hcategory⟩ := Tag.exists_text_extract .category _ h₂ fun i => by
    rw [hkeep₂ _ (by simp), hkeep₁ _ (by simp), hother _ (by simp)]
  obtain ⟨l₄, h₄, hkeep₄, hpriority⟩ := Priority.exists_text_extract input h₃ (by
    rw [hkeep₃ _ (by simp), hkeep₂ _ (by simp), hkeep₁ _ (by simp), hother _ (by simp)])
  refine ⟨l₄, h₄, hpriority, fun k i => ?_, ?_, ?_⟩
  · rw [hkeep₄ _ (by simp)]
    cases k with
    | category => exact hcategory i
    | context =>
      rw [hkeep₃ _ (by simp)]
      exact hcontext i
  · rw [hkeep₄ _ (by simp), hkeep₃ _ (by simp), hkeep₂ _ (by simp)]
    exact hdate
  · rw [hkeep₄ _ (by simp), hkeep₃ _ (by simp), hkeep₂ _ (by simp), hkeep₁ _ (by simp),
      Role.text_map_self, htitle]

/-- A marker within a tag, a date that a tag cuts in two, and a tag of the other kind. -/
theorem exists_allotment_of_milk :
    let ref : Instant := ⟨⟨2025, 3, 5, by decide, by decide, by decide, by decide⟩, .noon⟩
    let input := "Buy #a-p1-b milk in 2 @Shop days".toList
    let t := interpret Resolver.english ref input
    ¬ IsOwnTitle ref input ∧ t.title = "Buy -b milk".toList ∧ t.priority = some .urgent ∧
      t.categories = ["a-".toList] ∧ t.dueDate.isSome = true ∧ ∃ l, Allotment ref input t l := by
  intro ref input t
  have h : ¬ IsOwnTitle ref input := by decide +kernel
  exact ⟨h, by decide +kernel, by decide +kernel, by decide +kernel, by decide +kernel,
    exists_allotment ref h⟩

end TaskCapture
