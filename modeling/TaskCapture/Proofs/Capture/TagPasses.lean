import TaskCapture.Proofs.Capture.TagRest

/-!
Passes over the tags. One pass takes out all tags of its kind, so a second one finds none; and the
passes for the two kinds may come in either order.
-/

namespace TaskCapture.Tag

open Text

variable {j k : TagKind} {t : Text}

/-! ### The text without its tags -/

/-- The tag characters at the head of a text are no part of a tag in it, before and after. -/
lemma rest_pieces_dropWhile (k : TagKind) (t : Text) :
    rest (pieces k (t.dropWhile isTagChar)) = (rest (pieces k t)).dropWhile isTagChar := by
  have hname : ∀ c ∈ nameOf t, isTagChar c = true := fun c => isTagChar_of_mem_nameOf
  have hplain : ∀ w : Text, rest (w.map Piece.plain) = w := fun w => by
    induction w with
    | nil => rfl
    | cons c w ih => rw [List.map_cons, rest_plain, ih]
  have hstop : nameOf (rest (pieces k (t.dropWhile isTagChar))) = [] := by
    rw [nameOf_rest, nameOf_dropWhile]
  have hkeep := nameOf_append_dropWhile (rest (pieces k (t.dropWhile isTagChar)))
  rw [hstop, List.nil_append] at hkeep
  calc rest (pieces k (t.dropWhile isTagChar))
      = (nameOf t ++ rest (pieces k (t.dropWhile isTagChar))).dropWhile isTagChar := by
        rw [List.dropWhile_append_of_pos hname, hkeep]
    _ = (rest (pieces k (nameOf t ++ t.dropWhile isTagChar))).dropWhile isTagChar := by
        rw [pieces_append_of_tagChars hname, rest_append, hplain]
    _ = _ := by rw [nameOf_append_dropWhile]

/-- A sigil goes with its name, and stays where it has none. -/
lemma rest_pieces_sigil (k : TagKind) (t : Text) :
    rest (pieces k (k.sigil :: t)) =
      if nameOf t = [] then k.sigil :: rest (pieces k t)
      else (rest (pieces k t)).dropWhile isTagChar := by
  split_ifs with hn
  · rw [pieces_sigil_of_nil hn, rest_plain]
  · rw [pieces_sigil hn, rest_tag, rest_pieces_dropWhile]

lemma rest_pieces_cons_of_ne {c : Char} (h : c ≠ k.sigil) (t : Text) :
    rest (pieces k (c :: t)) = c :: rest (pieces k t) := by
  rw [pieces_cons_of_ne h, rest_plain]

/-- What two passes leave of a text that begins with the sigil of the one. -/
lemma rest_rest_sigil (h : j ≠ k) (t : Text) :
    rest (pieces j (rest (pieces k (k.sigil :: t)))) =
        (if nameOf t = [] then k.sigil :: rest (pieces j (rest (pieces k t)))
          else (rest (pieces j (rest (pieces k t)))).dropWhile isTagChar) ∧
      rest (pieces k (rest (pieces j (k.sigil :: t)))) =
        if nameOf t = [] then k.sigil :: rest (pieces k (rest (pieces j t)))
        else (rest (pieces k (rest (pieces j t)))).dropWhile isTagChar := by
  have hne : k.sigil ≠ j.sigil := sigil_injective.ne h.symm
  constructor
  · rw [rest_pieces_sigil]
    split_ifs
    · exact rest_pieces_cons_of_ne hne _
    · exact rest_pieces_dropWhile j _
  · rw [rest_pieces_cons_of_ne hne, rest_pieces_sigil, nameOf_rest]

/-- **Tags are taken out in either order.** Which characters are tag characters at the head of a
text does not change when tags are taken out of it, so neither pass makes or breaks a name of the
other kind. -/
theorem rest_rest_comm (j k : TagKind) (t : Text) :
    rest (pieces j (rest (pieces k t))) = rest (pieces k (rest (pieces j t))) := by
  by_cases hjk : j = k
  · rw [hjk]
  induction t with
  | nil => rfl
  | cons c t ih =>
    by_cases hk : c = k.sigil
    · obtain ⟨hl, hr⟩ := rest_rest_sigil hjk t
      rw [hk, hl, hr, ih]
    · by_cases hj : c = j.sigil
      · obtain ⟨hr, hl⟩ := rest_rest_sigil (Ne.symm hjk) t
        rw [hj, hl, hr, ih]
      · rw [rest_pieces_cons_of_ne hk, rest_pieces_cons_of_ne hj, rest_pieces_cons_of_ne hj,
          rest_pieces_cons_of_ne hk, ih]

/-! ### Passes -/

lemma extract_of_names_nil (h : names (pieces k t) = []) : extract k t = ([], t) := by
  simp only [extract, h, List.isEmpty_nil, if_true]

lemma extract_of_names_ne_nil (h : names (pieces k t) ≠ []) :
    extract k t = ((names (pieces k t)).map lower, collapse (rest (pieces k t))) := by
  have hfalse : ¬ (names (pieces k t)).isEmpty = true := by rwa [List.isEmpty_iff]
  simp only [extract, if_neg hfalse]

lemma fst_extract (k : TagKind) (t : Text) : (extract k t).1 = (names (pieces k t)).map lower := by
  by_cases h : names (pieces k t) = []
  · rw [extract_of_names_nil h, h, List.map_nil]
  · rw [extract_of_names_ne_nil h]

lemma words_snd_extract (k : TagKind) (t : Text) :
    words (extract k t).2 = words (rest (pieces k t)) := by
  rw [← without_words]
  exact (Prod.ext_iff.1 (extract_words k t)).2

/-- The tags that a pass leaves: none of its own kind, and all of the other. -/
lemma names_pieces_extract (j k : TagKind) (t : Text) :
    names (pieces j (extract k t).2) = if j = k then [] else names (pieces j t) := by
  rw [← namesIn_words, words_snd_extract, ← without_words, namesIn_without, namesIn_words]

/-- Collapsing the text between two passes makes no difference to what the second one leaves. -/
lemma collapse_rest_extract (j k : TagKind) (t : Text) :
    collapse (rest (pieces j (extract k t).2)) =
      collapse (rest (pieces j (rest (pieces k t)))) := by
  have hwords : words (rest (pieces j (extract k t).2)) =
      words (rest (pieces j (rest (pieces k t)))) := by
    rw [← without_words, words_snd_extract, without_words]
  rw [collapse, hwords, ← collapse]

/-- **The text that two passes leave** does not tell their order. A pass that finds nothing leaves
the text as it is, so the text is collapsed exactly if one of the passes finds a tag. -/
theorem snd_extract_comm (j k : TagKind) (t : Text) :
    (extract j (extract k t).2).2 = (extract k (extract j t).2).2 := by
  by_cases hjk : j = k
  · rw [hjk]
  have hj := names_pieces_extract j k t
  have hk := names_pieces_extract k j t
  rw [if_neg hjk] at hj
  rw [if_neg (Ne.symm hjk)] at hk
  by_cases hj' : names (pieces j t) = []
  · rw [extract_of_names_nil (hj.trans hj'), extract_of_names_nil hj']
  · by_cases hk' : names (pieces k t) = []
    · rw [extract_of_names_nil hk', extract_of_names_nil (hk.trans hk')]
    · have hleft := extract_of_names_ne_nil (hj ▸ hj')
      have hright := extract_of_names_ne_nil (hk ▸ hk')
      calc (extract j (extract k t).2).2
          = collapse (rest (pieces j (extract k t).2)) := congrArg Prod.snd hleft
        _ = collapse (rest (pieces j (rest (pieces k t)))) := collapse_rest_extract j k t
        _ = collapse (rest (pieces k (rest (pieces j t)))) := by rw [rest_rest_comm]
        _ = collapse (rest (pieces k (extract j t).2)) := (collapse_rest_extract k j t).symm
        _ = (extract k (extract j t).2).2 := (congrArg Prod.snd hright).symm

/-- A pass for the other kind before does not change what tags are found. -/
lemma fst_extract_extract (h : j ≠ k) (t : Text) :
    (extract j (extract k t).2).1 = (extract j t).1 := by
  rw [fst_extract, fst_extract, names_pieces_extract, if_neg h]

/-- **One pass for each kind is enough, in either order.** A second pass for the same kind finds
nothing and leaves the text as it is. Passes for both kinds give the same categories, the same
contexts and the same text whichever comes first. -/
theorem extract_extract (t : Text) :
    (∀ k, extract k (extract k t).2 = ([], (extract k t).2)) ∧
      let categoriesFirst := extract .category t
      let contextsSecond := extract .context categoriesFirst.2
      let contextsFirst := extract .context t
      let categoriesSecond := extract .category contextsFirst.2
      categoriesFirst.1 = categoriesSecond.1 ∧ contextsSecond.1 = contextsFirst.1 ∧
        contextsSecond.2 = categoriesSecond.2 := by
  refine ⟨fun k => extract_of_names_nil ?_, ?_, ?_, ?_⟩
  · rw [names_pieces_extract, if_pos rfl]
  · exact (fst_extract_extract (by decide) t).symm
  · exact fst_extract_extract (by decide) t
  · exact snd_extract_comm .context .category t

-- a sigil before a tag of the other kind, hyphens and letters after one
example : extract .context (extract .category "##a #@b  @#c-d@e".toList).2 =
    (["b".toList, "e".toList], "# # @".toList) := by decide +kernel

end TaskCapture.Tag
