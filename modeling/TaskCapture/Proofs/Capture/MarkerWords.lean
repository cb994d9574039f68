import TaskCapture.Proofs.Text.Blank
import TaskCapture.Proofs.Capture.MarkerForms

/-!
Priority markers word by word. A marker lies within a word, so the marker of a text is found by
looking at its words one after the other.
-/

namespace TaskCapture

open Text

namespace Pattern

variable {α : Type} {p : Pattern α}

/-- A blank ends a marker of the kind: it begins none, and what comes after it does not count. -/
structure Local (p : Pattern α) : Prop where
  blank {c : Char} (hc : isBlank c = true) (b : Bool) (t : Text) : p b (c :: t) = none
  append {c : Char} (hc : isBlank c = true) (b : Bool) (a : Char) (s t : Text) :
    p b (a :: s ++ c :: t) = p b (a :: s)
  length_le {b : Bool} {a : Char} {s : Text} {v : α} {n : ℕ} (h : p b (a :: s) = some (v, n)) :
    n ≤ (a :: s).length

lemma find?_append_of_some (hp : p.Local) {c : Char} (hc : isBlank c = true) {b : Bool} {s : Text}
    {k : Cut α} (h : p.find? b s = some k) (t : Text) :
    p.find? b (s ++ c :: t) = some { k with after := k.after ++ c :: t } := by
  induction s generalizing b k with
  | nil => simp [find?] at h
  | cons a s ih =>
    rw [find?] at h
    rw [List.cons_append, find?, ← List.cons_append, hp.append hc]
    split at h
    · next v n hv =>
      cases h
      have hn := hp.length_le hv
      simp only [List.take_append_of_le_length hn, List.drop_append_of_le_length hn]
    · next hv =>
      obtain ⟨k', hk, rfl⟩ := Option.map_eq_some_iff.1 h
      rw [ih hk]
      rfl

lemma find?_append_of_none (hp : p.Local) {c : Char} (hc : isBlank c = true) {b : Bool} {s : Text}
    (h : p.find? b s = none) (t : Text) :
    p.find? b (s ++ c :: t) =
      (p.find? false t).map fun k => { k with before := s ++ c :: k.before } := by
  induction s generalizing b with
  | nil =>
    rw [List.nil_append, find?, hp.blank hc, isWord_of_isBlank hc]
    rfl
  | cons a s ih =>
    rw [find?] at h
    rw [List.cons_append, find?, ← List.cons_append, hp.append hc]
    split at h
    · cases h
    · next hv =>
      rw [ih (Option.map_eq_none_iff.1 h), Option.map_map]
      rfl

/-- No marker of the kind reaches across a blank. -/
lemma isBlank_of_mem_marker (hp : p.Local) {b : Bool} {t : Text} {k : Cut α}
    (h : p.find? b t = some k) : ∀ c ∈ k.marker, isBlank c = false := by
  have hword : ∀ {b w k}, Solid w → p.find? b w = some k → ∀ c ∈ k.marker, isBlank c = false :=
    fun hw hk c hc => hw.2 c (by rw [eq_of_find? hk]; simp [hc])
  induction t using induction_words generalizing b k with
  | nil => cases h
  | blank c t hc ih =>
    have hnil : p.find? b ([] ++ c :: t) = _ := find?_append_of_none hp hc rfl t
    rw [List.nil_append, h] at hnil
    obtain ⟨k', hk, rfl⟩ := Option.map_eq_some_iff.1 hnil.symm
    exact fun d hd => ih hk d hd
  | word w hw => exact hword hw h
  | cons w c t hw hc ih =>
    cases hb : p.find? b w with
    | some k' =>
      rw [find?_append_of_some hp hc hb] at h
      cases h
      exact fun d hd => hword hw hb d hd
    | none =>
      rw [find?_append_of_none hp hc hb] at h
      obtain ⟨k', hk, rfl⟩ := Option.map_eq_some_iff.1 h
      exact fun d hd => ih hk d hd

/-- Taking a marker out of a list of words: what it means, and the words that are left. -/
def takeOut (p : Pattern α) : List Text → Option (α × List Text)
  | [] => none
  | w :: ws =>
    match p.find? false w with
    | some k => some (k.value, words k.before ++ words k.after ++ ws)
    | none => (takeOut p ws).map fun (a, vs) => (a, w :: vs)

/-- The marker of a text is that of its words. -/
theorem takeOut_words (hp : p.Local) (t : Text) :
    p.takeOut (words t) =
      (p.find? false t).map fun k => (k.value, words (k.before ++ ' ' :: k.after)) := by
  induction t using induction_words with
  | nil => rfl
  | blank c t hc ih =>
    have h := find?_append_of_none hp hc (b := false) (s := []) rfl t
    rw [List.nil_append] at h
    rw [words_cons_blank hc, ih, h, Option.map_map]
    refine congrArg (Option.map · _) (funext fun k => ?_)
    simp [words_cons_blank hc]
  | word w hw =>
    rw [words_of_solid hw, takeOut]
    cases p.find? false w with
    | none => rfl
    | some k => simp [words_append_blank isBlank_space]
  | cons w c t hw hc ih =>
    rw [words_append_blank hc, words_of_solid hw, List.cons_append, List.nil_append, takeOut]
    cases h : p.find? false w with
    | none =>
      simp only [find?_append_of_none hp hc h, ih, Option.map_map]
      refine congrArg (Option.map · _) (funext fun k => ?_)
      simp [words_append_blank hc, words_of_solid hw]
    | some k =>
      rw [find?_append_of_some hp hc h]
      simp [words_append_blank isBlank_space, words_append_blank hc]

lemma takeOut_append_of_clean {us : List Text} (h : ∀ w ∈ us, p.find? false w = none)
    (ws : List Text) :
    p.takeOut (us ++ ws) = (p.takeOut ws).map fun (a, vs) => (a, us ++ vs) := by
  induction us with
  | nil => simp
  | cons w us ih =>
    rw [List.cons_append, takeOut, h w (by simp), ih fun v hv => h v (by simp [hv])]
    simp [Option.map_map, Function.comp_def]

lemma takeOut_eq_none_iff {ws : List Text} :
    p.takeOut ws = none ↔ ∀ w ∈ ws, p.find? false w = none := by
  induction ws with
  | nil => simp [takeOut]
  | cons w ws ih =>
    rw [takeOut]
    cases h : p.find? false w <;> simp [h, ih]

/-- A marker is taken out of the first word that holds one. -/
lemma takeOut_eq_some_iff {ws vs : List Text} {a : α} :
    p.takeOut ws = some (a, vs) ↔
      ∃ us w k xs, ws = us ++ w :: xs ∧ (∀ u ∈ us, p.find? false u = none) ∧
        p.find? false w = some k ∧ a = k.value ∧
          vs = us ++ words k.before ++ words k.after ++ xs := by
  constructor
  · intro h
    induction ws generalizing vs with
    | nil => simp [takeOut] at h
    | cons w ws ih =>
      rw [takeOut] at h
      split at h
      · next k hk =>
        cases h
        exact ⟨[], w, k, ws, rfl, by simp, hk, rfl, by simp⟩
      · next hk =>
        obtain ⟨⟨a', vs'⟩, hvs, he⟩ := Option.map_eq_some_iff.1 h
        simp only [Prod.mk.injEq] at he
        obtain ⟨rfl, rfl⟩ := he
        obtain ⟨us, w', k, xs, rfl, hus, hw', ha, rfl⟩ := ih hvs
        exact ⟨w :: us, w', k, xs, rfl, by simpa [hk] using hus, hw', ha, by simp⟩
  · rintro ⟨us, w, k, xs, rfl, hus, hw, rfl, rfl⟩
    rw [takeOut_append_of_clean hus, takeOut, hw]
    simp

/-- Where the markers of a kind have a length, so has the one that is found. -/
lemma marker_ne_nil_of_find? (hp : p.Measured) {b : Bool} {t : Text} {k : Cut α}
    (h : p.find? b t = some k) : k.marker ≠ [] := by
  induction t generalizing b k with
  | nil => simp [find?] at h
  | cons c t ih =>
    rw [find?] at h
    split at h
    · next v n hv =>
      cases h
      simpa using hp.ne_zero hv
    · obtain ⟨k', hk, rfl⟩ := Option.map_eq_some_iff.1 h
      have := ih hk
      exact this

end Pattern

/-! ### The four kinds -/

/-- A word without blanks begins a text only before the first blank. -/
lemma beginsWith_append_blank {w : Text} (hw : ∀ d ∈ w, isBlank d = false) {c : Char}
    (hc : isBlank c = true) (s t : Text) : beginsWith w (s ++ c :: t) = beginsWith w s := by
  unfold beginsWith
  rcases le_or_gt w.length s.length with h | h
  · rw [List.take_append_of_le_length h]
  · have hl : ((s.take w.length).map Char.toLower == w) = false := by
      rw [beq_eq_false_iff_ne]
      intro he
      have := congrArg List.length he
      simp at this
      omega
    rw [hl, beq_eq_false_iff_ne]
    intro he
    have hmem : c.toLower ∈ ((s ++ c :: t).take w.length).map Char.toLower := by
      refine List.mem_map_of_mem ?_
      rw [List.take_append, List.mem_append]
      right
      obtain ⟨k, hk⟩ : ∃ k, w.length - s.length = k + 1 := ⟨w.length - s.length - 1, by omega⟩
      simp [hk]
    rw [he] at hmem
    have := hw _ hmem
    rw [toLower_of_isBlank hc] at this
    cases this

lemma startsWord_append_blank {c : Char} (hc : isBlank c = true) (s t : Text) :
    startsWord (s ++ c :: t) = startsWord s := by
  cases s with
  | nil => simp [isWord_of_isBlank hc]
  | cons d s => rfl

namespace Priority

lemma local_levelWord : levelWord.Local where
  blank := by
    intro c hc b t
    have hne : c ≠ '!' := ne_of_isBlank hc (by decide)
    simp [levelWord, hne]
  append := by
    intro c hc b a s t
    by_cases ha : a = '!'
    · subst ha
      simp only [levelWord, List.cons_append]
      congr 1
      funext p
      rw [beginsWith_append_blank p.solid_keyword.2 hc]
      cases hb : beginsWith p.keyword.toList s with
      | false => rfl
      | true =>
        have hl := length_le_of_beginsWith hb
        rw [String.length_toList] at hl
        rw [List.drop_append_of_le_length hl, startsWord_append_blank hc]
    · simp [levelWord, ha]
  length_le := measured_levelWord.le_length

lemma local_shorthand : shorthand.Local where
  blank := by
    intro c hc b t
    have hp : ¬ (c = 'p' ∨ c = 'P') := by
      rintro (rfl | rfl) <;> exact ne_of_isBlank hc (by decide) rfl
    cases t <;> simp [shorthand, hp]
  append := by
    intro c hc b a s t
    cases s with
    | nil =>
      have hd : decide ('1' ≤ c ∧ c ≤ '4') = false :=
        eq_of_isBlank (f := fun c => decide ('1' ≤ c ∧ c ≤ '4')) (by decide +kernel) hc
      have hd' : ¬ ('1' ≤ c ∧ c ≤ '4') := of_decide_eq_false hd
      simp only [shorthand, List.cons_append, List.nil_append]
      rw [if_neg (by tauto)]
    | cons d s => simp [shorthand, startsWord_append_blank hc]
  length_le := measured_shorthand.le_length

lemma local_longRun : longRun.Local where
  blank := by
    intro c hc b t
    have hne : c ≠ '!' := ne_of_isBlank hc (by decide)
    simp [longRun, hne]
  append := by
    intro c hc b a s t
    have hne : c ≠ '!' := ne_of_isBlank hc (by decide)
    have ht : (a :: s ++ c :: t).takeWhile (· == '!') = (a :: s).takeWhile (· == '!') := by
      rw [List.takeWhile_append]
      split_ifs with hl
      · rw [List.takeWhile_cons_of_neg (by simpa using hne), List.append_nil,
          (List.takeWhile_prefix _).eq_of_length hl]
      · rfl
    simp only [longRun, ht]
  length_le := measured_longRun.le_length

lemma local_pair : pair.Local where
  blank := by
    intro c hc b t
    have hne : c ≠ '!' := ne_of_isBlank hc (by decide)
    simp [pair, hne]
  append := by
    intro c hc b a s t
    have hne : c ≠ '!' := ne_of_isBlank hc (by decide)
    cases s with
    | nil => simp [pair, hne]
    | cons d s =>
      simp only [List.cons_append, pair]
      split <;> simp_all
  length_le := measured_pair.le_length

lemma local_of_mem_patterns {p : Pattern Priority} (h : p ∈ patterns) : p.Local := by
  simp only [patterns, List.mem_cons, List.not_mem_nil, or_false] at h
  rcases h with rfl | rfl | rfl | rfl
  · exact local_levelWord
  · exact local_shorthand
  · exact local_longRun
  · exact local_pair

/-- A marker lies within a word. -/
lemma solid_marker {t : Text} {c : Cut Priority} (h : find? t = some c) : Solid c.marker := by
  obtain ⟨p, hp, hc⟩ := List.exists_of_findSome?_eq_some h
  exact ⟨Pattern.marker_ne_nil_of_find? (measured_of_mem_patterns hp) hc,
    Pattern.isBlank_of_mem_marker (local_of_mem_patterns hp) hc⟩

/-- Taking the deciding marker out of a list of words. -/
def takeOut (ws : List Text) : Option (Priority × List Text) :=
  patterns.findSome? fun p => p.takeOut ws

/-- The priority of a list of words, and the words without their marker. -/
def outOf (ws : List Text) : Option Priority × List Text :=
  match takeOut ws with
  | some (p, vs) => (some p, vs)
  | none => (none, ws)

lemma takeOut_words (t : Text) :
    takeOut (words t) = (find? t).map fun k => (k.value, words (k.before ++ ' ' :: k.after)) := by
  have h : ∀ p ∈ patterns, p.takeOut (words t) =
      (p.find? false t).map fun k => (k.value, words (k.before ++ ' ' :: k.after)) :=
    fun p hp => Pattern.takeOut_words (local_of_mem_patterns hp) t
  unfold takeOut find?
  generalize patterns = ps at h
  induction ps with
  | nil => rfl
  | cons p ps ih =>
    rw [List.findSome?_cons, List.findSome?_cons, h p (by simp),
      ih fun q hq => h q (by simp [hq])]
    cases p.find? false t <;> rfl

lemma words_outOf_of_find?_none {t : Text} (h : find? t = none) :
    (outOf (words t)).2 = words t := by
  rw [outOf, takeOut_words, h]
  rfl

lemma words_outOf_of_find? {t : Text} {c : Cut Priority} (h : find? t = some c) :
    (outOf (words t)).2 = words c.before ++ words c.after := by
  rw [outOf, takeOut_words, h, Option.map_some, words_append_blank isBlank_space]

/-- **The priority of a text is that of its words.** -/
theorem extract_words (t : Text) :
    ((extract t).1, words (extract t).2) = outOf (words t) := by
  unfold extract outOf
  rw [takeOut_words]
  cases find? t <;> simp

end Priority

end TaskCapture
