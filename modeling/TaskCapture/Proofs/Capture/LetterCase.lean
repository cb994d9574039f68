import TaskCapture.Proofs.Capture.LineWords
import TaskCapture.Proofs.Text.LetterCase

/-!
What a line says does not hang on its layout or on the case of ASCII letters: the words of the line
decide, each read in either case. The steps of an interpretation are followed on words whose
capitals are made small.
-/

namespace TaskCapture

open Text

/-! ### Markers -/

namespace Pattern

variable {α : Type} {p : Pattern α}

/-- The kind finds the same marker in either case. -/
def CaseBlind (p : Pattern α) : Prop := ∀ b t, p b (foldCase t) = p b t

lemma find?_foldCase (hp : p.CaseBlind) (b : Bool) (t : Text) :
    p.find? b (foldCase t) = (p.find? b t).map fun k =>
      ⟨k.value, foldCase k.before, foldCase k.marker, foldCase k.after⟩ := by
  induction t generalizing b with
  | nil => rfl
  | cons c t ih =>
    rw [foldCase_cons, find?, find?, ← foldCase_cons, hp, isWord_toLower, ih]
    cases p b (c :: t) with
    | none => simp [Cut.push, Function.comp_def]
    | some v => simp [foldCase, List.map_take, List.map_drop]

lemma takeOut_foldCase (hp : p.CaseBlind) (ws : List Text) :
    p.takeOut (ws.map foldCase) = (p.takeOut ws).map fun (a, vs) => (a, vs.map foldCase) := by
  induction ws with
  | nil => rfl
  | cons w ws ih =>
    rw [List.map_cons, takeOut, takeOut, find?_foldCase hp, ih]
    cases p.find? false w with
    | none => simp [Function.comp_def]
    | some k => simp [words_foldCase]

end Pattern

lemma beginsWith_foldCase (w t : Text) : beginsWith w (foldCase t) = beginsWith w t := by
  have hlower : Char.toLower ∘ Char.toLower = Char.toLower :=
    funext fun c => apply_toLower (f := Char.toLower) (by decide +kernel) c
  rw [beginsWith, beginsWith, foldCase, ← List.map_take, List.map_map, hlower]

namespace Priority

lemma toLower_eq_mark_iff (c : Char) : c.toLower = '!' ↔ c = '!' :=
  toLower_eq_iff (by decide +kernel) c

lemma caseBlind_levelWord : levelWord.CaseBlind := by
  intro b t
  cases t with
  | nil => rfl
  | cons c t =>
    by_cases hc : c = '!'
    · subst hc
      have hdrop : ∀ n, startsWord ((foldCase t).drop n) = startsWord (t.drop n) := fun n => by
        rw [foldCase, ← List.map_drop]
        exact startsWord_foldCase _
      simp [levelWord, beginsWith_foldCase, hdrop]
    · have hc' : c.toLower ≠ '!' := by rwa [Ne, toLower_eq_mark_iff]
      simp [levelWord, hc, hc']

lemma caseBlind_shorthand : shorthand.CaseBlind := by
  intro b t
  match t with
  | [] => rfl
  | [c] => rfl
  | c :: d :: t =>
    have hp : (c.toLower = 'p' ∨ c.toLower = 'P') ↔ (c = 'p' ∨ c = 'P') :=
      decide_eq_decide.1 (apply_toLower (f := fun c => decide (c = 'p' ∨ c = 'P'))
        (by decide +kernel) c)
    have h1 : '1' ≤ d.toLower ↔ '1' ≤ d :=
      decide_eq_decide.1 (apply_toLower (f := fun d => decide ('1' ≤ d)) (by decide +kernel) d)
    have h4 : d.toLower ≤ '4' ↔ d ≤ '4' :=
      decide_eq_decide.1 (apply_toLower (f := fun d => decide (d ≤ '4')) (by decide +kernel) d)
    have hlevel : ofLevel? (d.toLower.toNat - '0'.toNat) = ofLevel? (d.toNat - '0'.toNat) :=
      apply_toLower (f := fun d => ofLevel? (d.toNat - '0'.toNat)) (by decide +kernel) d
    simp only [shorthand, foldCase_cons, startsWord_foldCase, hp, h1, h4, hlevel]

lemma caseBlind_longRun : longRun.CaseBlind := by
  intro b t
  have hmark : (· == '!') ∘ Char.toLower = (· == '!') := by
    funext c
    rw [Function.comp_apply, Bool.eq_iff_iff, beq_iff_eq, beq_iff_eq, toLower_eq_mark_iff]
  simp only [longRun, foldCase, List.takeWhile_map, hmark, List.length_map]

lemma caseBlind_pair : pair.CaseBlind := by
  intro b t
  match t with
  | [] => rfl
  | [c] => simp [pair]
  | c :: d :: t =>
    by_cases hc : c = '!'
    · by_cases hd : d = '!'
      · simp [pair, hc, hd]
      · simp [pair, hd, toLower_eq_mark_iff]
    · simp [pair, hc, toLower_eq_mark_iff]

lemma caseBlind_of_mem_patterns {p : Pattern Priority} (h : p ∈ patterns) : p.CaseBlind := by
  simp only [patterns, List.mem_cons, List.not_mem_nil, or_false] at h
  rcases h with rfl | rfl | rfl | rfl
  · exact caseBlind_levelWord
  · exact caseBlind_shorthand
  · exact caseBlind_longRun
  · exact caseBlind_pair

/-- **The marker is found in either case.** -/
theorem outOf_foldCase (ws : List Text) :
    outOf (ws.map foldCase) = ((outOf ws).1, (outOf ws).2.map foldCase) := by
  have htake : takeOut (ws.map foldCase) =
      (takeOut ws).map fun (a, vs) => (a, vs.map foldCase) := by
    have h : ∀ p ∈ patterns, p.takeOut (ws.map foldCase) = _ := fun p hp =>
      Pattern.takeOut_foldCase (caseBlind_of_mem_patterns hp) ws
    unfold takeOut
    generalize patterns = ps at h
    induction ps with
    | nil => rfl
    | cons p ps ih =>
      rw [List.findSome?_cons, List.findSome?_cons, h p (by simp),
        ih fun q hq => h q (by simp [hq])]
      cases p.takeOut ws <;> rfl
  rw [outOf, outOf, htake]
  cases takeOut ws <;> rfl

end Priority

/-! ### Tags -/

namespace Tag

variable (k : TagKind)

/-- The piece with its capitals made small. -/
def Piece.foldCase : Piece → Piece
  | plain c => plain c.toLower
  | tag name => tag (Text.foldCase name)

lemma toLower_eq_sigil_iff (c : Char) : c.toLower = k.sigil ↔ c = k.sigil := by
  cases k
  · exact toLower_eq_iff (by decide +kernel) c
  · exact toLower_eq_iff (by decide +kernel) c

lemma isTagChar_comp_toLower : isTagChar ∘ Char.toLower = isTagChar :=
  funext fun c => apply_toLower (f := isTagChar) (by decide +kernel) c

lemma nameOf_foldCase (t : Text) : nameOf (foldCase t) = foldCase (nameOf t) := by
  rw [nameOf, nameOf, foldCase, List.takeWhile_map, isTagChar_comp_toLower]
  rfl

lemma pieces_foldCase (t : Text) : pieces k (foldCase t) = (pieces k t).map Piece.foldCase := by
  induction t with
  | nil => rfl
  | cons c t ih =>
    have hname : foldCase (nameOf t) ≠ [] ↔ nameOf t ≠ [] := List.map_eq_nil_iff.not
    have hlength : (foldCase (nameOf t)).length = (nameOf t).length := List.length_map _
    rw [foldCase_cons, pieces, pieces, ih, nameOf_foldCase]
    simp only [toLower_eq_sigil_iff, hname, hlength]
    split_ifs with h
    · rw [List.map_cons, List.map_drop]
      rfl
    · rfl

lemma names_map_foldCase (ps : List Piece) :
    names (ps.map Piece.foldCase) = (names ps).map foldCase := by
  induction ps with
  | nil => rfl
  | cons p ps ih => cases p <;> simp [Piece.foldCase, ih]

lemma rest_map_foldCase (ps : List Piece) : rest (ps.map Piece.foldCase) = foldCase (rest ps) := by
  induction ps with
  | nil => rfl
  | cons p ps ih => cases p <;> simp [Piece.foldCase, ih]

/-- **The names of tags in small letters are those of either case.** -/
theorem lower_namesIn_foldCase (ws : List Text) :
    (namesIn k (ws.map foldCase)).map lower = (namesIn k ws).map lower := by
  simp only [namesIn, List.flatMap_map, pieces_foldCase, names_map_foldCase]
  rw [← List.map_flatMap, List.map_map]
  exact List.map_congr_left fun w _ => lower_foldCase w

lemma without_foldCase (ws : List Text) :
    without k (ws.map foldCase) = (without k ws).map foldCase := by
  simp only [without, List.flatMap_map, pieces_foldCase, rest_map_foldCase, words_foldCase]
  rw [List.map_flatMap]

end Tag

/-! ### The date and the line -/

lemma Phrase.outOf_foldCase (ref : Instant) (ws : List Text) :
    outOf ref (ws.map foldCase) =
      ((outOf ref ws).1, (outOf ref ws).2.1, (outOf ref ws).2.2.map foldCase) := by
  have hin : inWords? ref (ws.map foldCase) = inWords? ref ws := by
    rw [inWords?, inWords?, List.map_map]
    exact congrArg (first? ref) (List.map_congr_left fun w _ => norm_foldCase w)
  rw [outOf, outOf, hin]
  cases inWords? ref ws with
  | none => rfl
  | some kr => simp [List.map_take, List.map_drop]

/-- **Words say the same in either case.** -/
theorem gistOf_foldCase (ref : Instant) (ws : List Text) :
    gistOf ref (ws.map foldCase) =
      { gistOf ref ws with rest := (gistOf ref ws).rest.map foldCase } := by
  simp only [gistOf, Priority.outOf_foldCase, Tag.lower_namesIn_foldCase, Tag.without_foldCase,
    Phrase.outOf_foldCase]

/-- The words of the title are those left over, or those of the line where nothing is. -/
lemma words_title (ref : Instant) (input : Text) :
    words (interpret Resolver.english ref input).title =
      if (gistOf ref (words input)).rest = [] then words input
      else (gistOf ref (words input)).rest := by
  rw [interpret_eq_gistOf]
  simp only
  split_ifs
  · exact words_trim input
  · exact words_intercalate fun w hw => solid_of_mem_rest_gistOf hw

/-- **Layout and letter case do not count.** Two lines whose words are the same, letter case aside,
are read as tasks that differ at most in the letter case of their titles. -/
theorem interpret_congr (ref : Instant) {x y : Text}
    (h : List.Forall₂ SameLetters (words x) (words y)) :
    let t := interpret Resolver.english ref x
    let u := interpret Resolver.english ref y
    t.priority = u.priority ∧ t.categories = u.categories ∧ t.contexts = u.contexts ∧
      t.dueDate = u.dueDate ∧ t.dueTime = u.dueTime ∧
        SameLetters (collapse t.title) (collapse u.title) := by
  intro t u
  have hwords : (words x).map foldCase = (words y).map foldCase := by
    rwa [← List.forall₂_eq_eq_eq, List.forall₂_map_left_iff, List.forall₂_map_right_iff]
  have hgist := gistOf_foldCase ref (words x)
  rw [hwords, gistOf_foldCase, Gist.mk.injEq] at hgist
  obtain ⟨hrest, hdate, htime, hpriority, hcategories, hcontexts⟩ := hgist
  have ht : t = _ := interpret_eq_gistOf ref x
  have hu : u = _ := interpret_eq_gistOf ref y
  refine ⟨?_, ?_, ?_, ?_, ?_, ?_⟩
  · rw [ht, hu]
    exact hpriority.symm
  · rw [ht, hu]
    exact hcategories.symm
  · rw [ht, hu]
    exact hcontexts.symm
  · rw [ht, hu]
    exact hdate.symm
  · rw [ht, hu]
    exact htime.symm
  · have htitle : (words t.title).map foldCase = (words u.title).map foldCase := by
      have hnil : (gistOf ref (words x)).rest = [] ↔ (gistOf ref (words y)).rest = [] := by
        rw [← List.map_eq_nil_iff (f := foldCase), ← hrest, List.map_eq_nil_iff]
      rw [words_title, words_title]
      simp only [hnil]
      split_ifs
      · exact hwords
      · exact hrest.symm
    rw [SameLetters, collapse, collapse, foldCase_intercalate, foldCase_intercalate, htitle]

/-- A marker, a tag, a date and a time in capitals, with more blanks; and a tag whose last sigma is
final in either case. -/
theorem interpret_congr_of_milk :
    let ref : Instant := ⟨⟨2025, 3, 5, by decide, by decide, by decide, by decide⟩, .noon⟩
    let x := "Buy milk !high #ΟΔΟΣ-x @home next friday at 2pm".toList
    let y := "  BUY\tMilk !HIGH #ΟΔΟΣ-X  @Home NEXT Friday At 2PM ".toList
    let t := interpret Resolver.english ref x
    let u := interpret Resolver.english ref y
    List.Forall₂ SameLetters (words x) (words y) ∧ t.categories = u.categories ∧
      t.dueDate = u.dueDate ∧ t.dueTime = u.dueTime ∧ u.dueTime = some "14:00".toList ∧
        SameLetters (collapse t.title) (collapse u.title) ∧ t.title ≠ u.title := by
  intro ref x y t u
  have h : List.Forall₂ SameLetters (words x) (words y) := by decide +kernel
  obtain ⟨-, hcategories, -, hdate, htime, htitle⟩ := interpret_congr ref h
  exact ⟨h, hcategories, hdate, htime, by decide +kernel, htitle, by decide +kernel⟩

end TaskCapture
