import TaskCapture.Proofs.Capture.Shorthand

/-!
What is left when the tags of one kind are taken out. A tag takes all the tag characters that follow
its sigil, so none of them comes to stand after another sigil: the rest holds no tag of that kind,
and of the other kind just the tags that were there before.
-/

namespace TaskCapture.Tag

open Text

variable {j k : TagKind}

lemma nameOf_sigil (k : TagKind) (t : Text) : nameOf (k.sigil :: t) = [] := by
  rw [nameOf, List.takeWhile_cons_of_neg (by simp [isTagChar_sigil])]

lemma nameOf_dropWhile (t : Text) : nameOf (t.dropWhile isTagChar) = [] := by
  cases h : t.dropWhile isTagChar with
  | nil => rfl
  | cons c r =>
    have hc := List.head_dropWhile_not isTagChar (by rw [h]; simp)
    simp only [h, List.head_cons] at hc
    rw [nameOf, List.takeWhile_cons_of_neg (by simp [hc])]

/-- The tag characters at the head of a text stay there, and no others come to stand there. -/
lemma nameOf_rest (k : TagKind) (t : Text) : nameOf (rest (pieces k t)) = nameOf t := by
  induction t using induction_pieces k with
  | nil => rfl
  | tag t hn ih =>
    rw [pieces_sigil hn, rest_tag, ih, nameOf_dropWhile, nameOf_sigil]
  | plain c t hc ih =>
    rw [hc, rest_plain, nameOf, nameOf, List.takeWhile_cons, List.takeWhile_cons]
    split_ifs
    · exact congrArg (c :: ·) ih
    · rfl

/-- **No tag is left.** -/
theorem names_pieces_rest (k : TagKind) (t : Text) : names (pieces k (rest (pieces k t))) = [] := by
  induction t using induction_pieces k with
  | nil => rfl
  | tag t hn ih => rwa [pieces_sigil hn, rest_tag]
  | plain c t hc ih =>
    rw [hc, rest_plain]
    by_cases hs : c = k.sigil
    · -- a sigil without a name has none afterwards
      subst hs
      have hn : nameOf t = [] := by
        by_contra hn
        rw [pieces_sigil hn] at hc
        cases hc
      rwa [pieces_sigil_of_nil (by rwa [nameOf_rest]), names_plain]
    · rwa [pieces_cons_of_ne hs, names_plain]

/-- Tag characters at the head of a text belong to no tag in it. -/
lemma names_pieces_dropWhile (j : TagKind) (t : Text) :
    names (pieces j (t.dropWhile isTagChar)) = names (pieces j t) := by
  have hplain : ∀ w : Text, names (w.map Piece.plain) = [] := fun w => by
    induction w with
    | nil => rfl
    | cons c w ih => rwa [List.map_cons, names_plain]
  conv_rhs => rw [← nameOf_append_dropWhile t,
    pieces_append_of_tagChars (fun c hc => isTagChar_of_mem_nameOf hc), names_append, hplain]
  rfl

lemma sigil_injective : Function.Injective TagKind.sigil := by
  intro j k h
  cases j <;> cases k <;> first | rfl | exact absurd h (by decide)

lemma names_pieces_sigil_of_ne (h : j ≠ k) (t : Text) :
    names (pieces j (k.sigil :: t)) = names (pieces j t) := by
  rw [pieces_cons_of_ne (sigil_injective.ne h.symm), names_plain]

/-- **Tags of the other kind are not touched.** -/
theorem names_pieces_rest_of_ne (h : j ≠ k) (t : Text) :
    names (pieces j (rest (pieces k t))) = names (pieces j t) := by
  induction t using induction_pieces k with
  | nil => rfl
  | tag t hn ih =>
    rw [pieces_sigil hn, rest_tag, ih, names_pieces_dropWhile, names_pieces_sigil_of_ne h]
  | plain c t hc ih =>
    rw [hc, rest_plain]
    by_cases hs : c = j.sigil
    · subst hs
      by_cases hn : nameOf t = []
      · rw [pieces_sigil_of_nil hn, pieces_sigil_of_nil (by rwa [nameOf_rest]), names_plain,
          names_plain, ih]
      · rw [pieces_sigil hn, pieces_sigil (by rwa [nameOf_rest]), names_tag, names_tag, nameOf_rest,
          names_pieces_dropWhile, names_pieces_dropWhile, ih]
    · rw [pieces_cons_of_ne hs, pieces_cons_of_ne hs, names_plain, names_plain, ih]

/-! ### Word by word -/

lemma namesIn_without (j k : TagKind) (ws : List Text) :
    namesIn j (without k ws) = if j = k then [] else namesIn j ws := by
  induction ws with
  | nil => simp [without, namesIn]
  | cons w ws ih =>
    have hcons : without k (w :: ws) = words (rest (pieces k w)) ++ without k ws := rfl
    rw [hcons, namesIn_append, namesIn_words, ih]
    split_ifs with h
    · rw [h, names_pieces_rest]
      rfl
    · rw [names_pieces_rest_of_ne h]
      rfl

/-- A tag that is found in a word stands in it. -/
lemma infix_of_mem_names {t n : Text} (h : n ∈ names (pieces k t)) : k.sigil :: n <:+: t := by
  have hmem : Piece.tag n ∈ pieces k t := by
    obtain ⟨p, hp, hn⟩ := List.mem_filterMap.1 h
    cases p with
    | plain c => cases hn
    | tag m =>
      cases hn
      exact hp
  obtain ⟨ps, qs, hps⟩ := List.append_of_mem hmem
  refine ⟨ps.flatMap (Piece.text k), qs.flatMap (Piece.text k), ?_⟩
  conv_rhs => rw [← flatMap_text_pieces k t, hps]
  simp [Piece.text]

end TaskCapture.Tag
