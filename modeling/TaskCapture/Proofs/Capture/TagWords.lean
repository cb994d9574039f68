import TaskCapture.Proofs.Text.Blank
import TaskCapture.Proofs.Text.Words
import TaskCapture.Capture.Tag

/-!
Tags word by word. A tag lies within a word, so a text is taken apart at its tags by taking each of
its words apart.
-/

namespace TaskCapture.Tag

open Text

variable {k : TagKind}

lemma isTagChar_of_isBlank {c : Char} (h : isBlank c = true) : isTagChar c = false := by
  have hne : c ≠ '-' := ne_of_isBlank h (by decide)
  simp [isTagChar, isWord_of_isBlank h, hne]

lemma isBlank_of_isTagChar {c : Char} (h : isTagChar c = true) : isBlank c = false := by
  by_contra hb
  rw [isTagChar_of_isBlank (by simpa using hb)] at h
  cases h

lemma isBlank_sigil (k : TagKind) : isBlank k.sigil = false := by cases k <;> decide

lemma nameOf_append_blank {c : Char} (hc : isBlank c = true) (s t : Text) :
    nameOf (s ++ c :: t) = nameOf s := by
  unfold nameOf
  induction s with
  | nil => simp [isTagChar_of_isBlank hc]
  | cons a s ih => rw [List.cons_append, List.takeWhile_cons, List.takeWhile_cons, ih]

lemma dropWhile_append_blank {c : Char} (hc : isBlank c = true) (s t : Text) :
    (s ++ c :: t).dropWhile isTagChar = s.dropWhile isTagChar ++ c :: t := by
  induction s with
  | nil => simp [isTagChar_of_isBlank hc]
  | cons a s ih =>
    rw [List.cons_append, List.dropWhile_cons, List.dropWhile_cons, ih]
    split_ifs <;> rfl

/-- **A blank belongs to no tag.** -/
theorem pieces_append_blank {c : Char} (hc : isBlank c = true) (s t : Text) :
    pieces k (s ++ c :: t) = pieces k s ++ .plain c :: pieces k t := by
  match s with
  | [] => exact pieces_cons_of_ne (ne_of_isBlank hc (isBlank_sigil k)) t
  | a :: s =>
    have ih := pieces_append_blank hc s t
    by_cases ha : a = k.sigil
    · subst ha
      by_cases hn : nameOf s = []
      · rw [List.cons_append, pieces_sigil_of_nil (by rwa [nameOf_append_blank hc]),
          pieces_sigil_of_nil hn, ih]
        rfl
      · have hlen : (s.dropWhile isTagChar).length ≤ s.length :=
          (List.dropWhile_sublist isTagChar).length_le
        have ih' := pieces_append_blank hc (s.dropWhile isTagChar) t
        rw [List.cons_append, pieces_sigil (by rwa [nameOf_append_blank hc]),
          nameOf_append_blank hc, dropWhile_append_blank hc, pieces_sigil hn, ih']
        rfl
    · rw [List.cons_append, pieces_cons_of_ne ha, pieces_cons_of_ne ha, ih]
      rfl
termination_by s.length

@[simp] lemma names_append (ps qs : List Piece) : names (ps ++ qs) = names ps ++ names qs :=
  List.filterMap_append

@[simp] lemma rest_append (ps qs : List Piece) : rest (ps ++ qs) = rest ps ++ rest qs :=
  List.filterMap_append

@[simp] lemma names_plain (c : Char) (ps : List Piece) : names (.plain c :: ps) = names ps := rfl

@[simp] lemma rest_plain (c : Char) (ps : List Piece) : rest (.plain c :: ps) = c :: rest ps := rfl

@[simp] lemma names_tag (n : Text) (ps : List Piece) : names (.tag n :: ps) = n :: names ps := rfl

@[simp] lemma rest_tag (n : Text) (ps : List Piece) : rest (.tag n :: ps) = rest ps := rfl

/-- Without tags all pieces are plain. -/
lemma rest_of_names_nil {t : Text} (h : names (pieces k t) = []) : rest (pieces k t) = t := by
  have hall : ∀ ps : List Piece, names ps = [] → rest ps = ps.flatMap (Piece.text k) := by
    intro ps hps
    induction ps with
    | nil => rfl
    | cons p ps ih =>
      cases p with
      | plain c => simp [Piece.text, ih (by simpa using hps)]
      | tag n => simp at hps
  rw [hall _ h, flatMap_text_pieces]

/-! ### Word by word -/

/-- The names of the tags in a list of words. -/
def namesIn (k : TagKind) (ws : List Text) : List Text := ws.flatMap fun w => names (pieces k w)

/-- The words that are left when the tags are taken out of a list of words. -/
def without (k : TagKind) (ws : List Text) : List Text :=
  ws.flatMap fun w => words (rest (pieces k w))

lemma namesIn_append (us ws : List Text) : namesIn k (us ++ ws) = namesIn k us ++ namesIn k ws := by
  simp [namesIn]

lemma without_append (us ws : List Text) : without k (us ++ ws) = without k us ++ without k ws := by
  simp [without]

lemma namesIn_words (t : Text) : namesIn k (words t) = names (pieces k t) := by
  induction t using induction_words with
  | nil => rfl
  | blank c t hc ih =>
    rw [words_cons_blank hc, ih, pieces_cons_of_ne (ne_of_isBlank hc (isBlank_sigil k)),
      names_plain]
  | word w hw => simp [words_of_solid hw, namesIn]
  | cons w c t hw hc ih =>
    rw [words_append_blank hc, words_of_solid hw, namesIn_append, ih, pieces_append_blank hc]
    simp [namesIn]

lemma without_words (t : Text) : without k (words t) = words (rest (pieces k t)) := by
  induction t using induction_words with
  | nil => rfl
  | blank c t hc ih =>
    rw [words_cons_blank hc, ih, pieces_cons_of_ne (ne_of_isBlank hc (isBlank_sigil k)),
      rest_plain, words_cons_blank hc]
  | word w hw => simp [words_of_solid hw, without]
  | cons w c t hw hc ih =>
    rw [words_append_blank hc, words_of_solid hw, without_append, ih, pieces_append_blank hc,
      rest_append, rest_plain, words_append_blank hc]
    simp [without]

/-- **The tags of a text are those of its words.** -/
theorem extract_words (k : TagKind) (t : Text) :
    ((extract k t).1, words (extract k t).2) =
      ((namesIn k (words t)).map lower, without k (words t)) := by
  rw [namesIn_words, without_words]
  unfold extract
  simp only
  split_ifs with h
  · rw [List.isEmpty_iff] at h
    rw [rest_of_names_nil h, h]
    rfl
  · simp

lemma occurs_eq_false_iff {t : Text} : occurs k t = false ↔ namesIn k (words t) = [] := by
  rw [namesIn_words, occurs]
  simp

/-- Words without tags are all left. -/
lemma without_of_namesIn_nil {ws : List Text} (hs : ∀ w ∈ ws, Solid w) (h : namesIn k ws = []) :
    without k ws = ws := by
  induction ws with
  | nil => rfl
  | cons w ws ih =>
    obtain ⟨hw, hws⟩ :=
      List.append_eq_nil_iff.1 (show names (pieces k w) ++ namesIn k ws = [] from h)
    have hcons : without k (w :: ws) = words (rest (pieces k w)) ++ without k ws := rfl
    rw [hcons, rest_of_names_nil hw, words_of_solid (hs w (by simp)),
      ih (fun v hv => hs v (by simp [hv])) hws]
    rfl

/-- A word without the sigil has no tag. -/
lemma names_pieces_of_not_mem {w : Text} (h : k.sigil ∉ w) : names (pieces k w) = [] := by
  induction w with
  | nil => rfl
  | cons c w ih =>
    simp only [List.mem_cons, not_or] at h
    rw [pieces_cons_of_ne (Ne.symm h.1), names_plain, ih h.2]

lemma namesIn_of_not_mem {ws : List Text} (h : ∀ w ∈ ws, k.sigil ∉ w) : namesIn k ws = [] := by
  unfold namesIn
  rw [List.flatMap_eq_nil_iff]
  exact fun w hw => names_pieces_of_not_mem (h w hw)

/-- The words that write tags. -/
def tagWords (k : TagKind) (ns : List Text) : List Text := ns.map (k.sigil :: ·)

/-- A name that can be written as a tag. -/
def IsName (n : Text) : Prop := n ≠ [] ∧ ∀ c ∈ n, isTagChar c = true

lemma pieces_sigil_name {n : Text} (h : IsName n) : pieces k (k.sigil :: n) = [.tag n] := by
  have hn : nameOf n = n := List.takeWhile_eq_self_iff.2 h.2
  have hd : n.dropWhile isTagChar = [] := List.dropWhile_eq_nil_iff.2 h.2
  rw [pieces_sigil (by rw [hn]; exact h.1), hn, hd]
  rfl

lemma namesIn_tagWords {ns : List Text} (h : ∀ n ∈ ns, IsName n) :
    namesIn k (tagWords k ns) = ns := by
  induction ns with
  | nil => rfl
  | cons n ns ih =>
    have hcons : namesIn k (tagWords k (n :: ns)) =
      names (pieces k (k.sigil :: n)) ++ namesIn k (tagWords k ns) := rfl
    rw [hcons, pieces_sigil_name (h n (by simp)), ih fun m hm => h m (by simp [hm])]
    rfl

lemma without_tagWords {ns : List Text} (h : ∀ n ∈ ns, IsName n) :
    without k (tagWords k ns) = [] := by
  unfold without tagWords
  rw [List.flatMap_eq_nil_iff]
  intro w hw
  obtain ⟨n, hn, rfl⟩ := List.mem_map.1 hw
  rw [pieces_sigil_name (h n hn)]
  rfl

lemma solid_tagWord {n : Text} (h : IsName n) : Solid (k.sigil :: n) := by
  refine ⟨by simp, fun c hc => ?_⟩
  rcases List.mem_cons.1 hc with rfl | hc
  · exact isBlank_sigil k
  · exact isBlank_of_isTagChar (h.2 c hc)

lemma sigil_not_mem_tagWord {k' : TagKind} (hk : k ≠ k') {n : Text} (h : IsName n) :
    k.sigil ∉ k'.sigil :: n := by
  intro hc
  rcases List.mem_cons.1 hc with hc | hc
  · exact hk (by cases k <;> cases k' <;> first | rfl | exact absurd hc (by decide))
  · have := h.2 _ hc
    rw [isTagChar_sigil] at this
    cases this

/-- Tags that stand before words of other kinds are found after those that come before them. -/
lemma namesIn_append_tagWords {us ns vs : List Text} (hn : ∀ n ∈ ns, IsName n)
    (hv : ∀ w ∈ vs, k.sigil ∉ w) :
    namesIn k (us ++ (tagWords k ns ++ vs)) = namesIn k us ++ ns := by
  rw [namesIn_append, namesIn_append, namesIn_tagWords hn, namesIn_of_not_mem hv, List.append_nil]

lemma without_append_tagWords {us ns vs : List Text} (hn : ∀ n ∈ ns, IsName n)
    (hv : ∀ w ∈ vs, k.sigil ∉ w) (hs : ∀ w ∈ vs, Solid w) :
    without k (us ++ (tagWords k ns ++ vs)) = without k us ++ vs := by
  rw [without_append, without_append, without_tagWords hn, List.nil_append,
    without_of_namesIn_nil hs (namesIn_of_not_mem hv)]

/-- A word that holds no tag of either kind. -/
def Untagged (w : Text) : Prop := ∀ k, names (pieces k w) = []

lemma namesIn_eq_nil_iff {ws : List Text} :
    namesIn k ws = [] ↔ ∀ w ∈ ws, names (pieces k w) = [] := by
  rw [namesIn, List.flatMap_eq_nil_iff]

lemma untagged_of_not_mem {w : Text} (h : ∀ k : TagKind, k.sigil ∉ w) : Untagged w :=
  fun k => names_pieces_of_not_mem (h k)

/-- Names in small letters come back as they are, after those that stand before them. -/
lemma map_lower_append_eq_iff {ns vs : List Text} (h : ∀ n ∈ ns, lower n = n) :
    (vs ++ ns).map lower = ns ↔ vs = [] := by
  have hns : ns.map lower = ns := (List.map_congr_left h).trans (List.map_id _)
  rw [List.map_append, hns]
  simp

end TaskCapture.Tag
