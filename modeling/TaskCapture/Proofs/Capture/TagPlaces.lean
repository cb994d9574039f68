import TaskCapture.Proofs.Capture.Shorthand
import TaskCapture.Proofs.Text.Placed
import TaskCapture.Proofs.Text.Spans

/-!
Where the tags of a text stand. Each lies within one of the words; where all tags stand apart from
other text, a word either is a tag or holds none.
-/

namespace TaskCapture.Tag

open Text

variable {k : TagKind}

/-! ### The bytes of a tag -/

/-- A tag lies where the pieces before it end. -/
lemma exists_of_mem_spans {n : ℕ} {ps : List Piece} {s : Span} (h : s ∈ spans k n ps) :
    ∃ qs name rs, ps = qs ++ .tag name :: rs ∧
      s = ⟨n + byteSize (qs.flatMap (Piece.text k)),
        n + byteSize (qs.flatMap (Piece.text k)) + byteSize (k.sigil :: name)⟩ := by
  induction ps generalizing n with
  | nil => cases h
  | cons p ps ih =>
    cases p with
    | plain c =>
      obtain ⟨qs, name, rs, rfl, rfl⟩ := ih h
      exact ⟨.plain c :: qs, name, rs, rfl, by simp [Piece.text, Nat.add_assoc]⟩
    | tag m =>
      rw [spans, List.mem_cons] at h
      rcases h with rfl | h
      · exact ⟨[], m, ps, rfl, by simp [Piece.text]⟩
      · obtain ⟨qs, name, rs, rfl, rfl⟩ := ih h
        exact ⟨.tag m :: qs, name, rs, rfl, by simp [Piece.text, Nat.add_assoc]⟩

lemma names_ne_nil_of_mem_spans {n : ℕ} {ps : List Piece} {s : Span} (h : s ∈ spans k n ps) :
    names ps ≠ [] := by
  obtain ⟨qs, name, rs, rfl, -⟩ := exists_of_mem_spans h
  simp

/-- The bytes of a tag are those of its sigil and its name. -/
lemma exists_name_of_mem_spans {n : ℕ} {t : Text} {s : Span} (h : s ∈ spans k n (pieces k t)) :
    ∃ a name b, t = a ++ k.sigil :: name ++ b ∧ IsName name ∧
      s = ⟨n + byteSize a, n + byteSize a + byteSize (k.sigil :: name)⟩ := by
  obtain ⟨qs, name, rs, hps, rfl⟩ := exists_of_mem_spans h
  have hname : IsName name := isName_of_mem_names (k := k) (t := t) (by rw [hps]; simp)
  refine ⟨qs.flatMap (Piece.text k), name, rs.flatMap (Piece.text k), ?_, hname, rfl⟩
  conv_lhs => rw [← flatMap_text_pieces k t, hps]
  simp [Piece.text]

lemma fits_of_mem_spans {t : Text} {s : Span} (h : s ∈ spans k 0 (pieces k t)) : s.Fits t := by
  obtain ⟨a, name, b, ht, -, hs⟩ := exists_name_of_mem_spans h
  exact ⟨a, k.sigil :: name, b, ht, by simp, by simpa using hs⟩

lemma bounds_of_mem_spans {n : ℕ} {t : Text} {s : Span} (h : s ∈ spans k n (pieces k t)) :
    n ≤ s.start ∧ s.start < s.stop ∧ s.stop ≤ n + byteSize t := by
  obtain ⟨a, name, b, rfl, -, rfl⟩ := exists_name_of_mem_spans h
  have := byteSize_pos (List.cons_ne_nil k.sigil name)
  simp only [byteSize_append]
  omega

/-- Tags of one kind lie one after the other. -/
lemma pairwise_spans (n : ℕ) (ps : List Piece) :
    (spans k n ps).Pairwise fun a b => a.stop ≤ b.start := by
  induction ps generalizing n with
  | nil => exact .nil
  | cons p ps ih =>
    cases p with
    | plain c => exact ih _
    | tag name =>
      refine .cons (fun s hs => ?_) (ih _)
      obtain ⟨qs, m, rs, -, rfl⟩ := exists_of_mem_spans hs
      exact Nat.le_add_right _ _

lemma overlaps_eq_false_of_mem_spans {n : ℕ} {ps : List Piece} {r s : Span}
    (hr : r ∈ spans k n ps) (hs : s ∈ spans k n ps) (hne : r ≠ s) : r.overlaps s = false := by
  have : Std.Symm fun r s : Span => r.overlaps s = false :=
    ⟨fun r s h => by rwa [Span.overlaps_comm]⟩
  have hpair : (spans k n ps).Pairwise fun r s => r.overlaps s = false :=
    (pairwise_spans n ps).imp fun h => Span.overlaps_eq_false_iff.2 (.inr h)
  exact hpair.forall hr hs hne

lemma spans_append (n : ℕ) (ps qs : List Piece) :
    spans k n (ps ++ qs) =
      spans k n ps ++ spans k (n + byteSize (ps.flatMap (Piece.text k))) qs := by
  induction ps generalizing n with
  | nil => rfl
  | cons p ps ih =>
    cases p with
    | plain c =>
      rw [List.cons_append, spans, spans, ih]
      simp [Piece.text, Nat.add_assoc]
    | tag name =>
      rw [List.cons_append, spans, spans, ih]
      simp [Piece.text, Nat.add_assoc]

/-- **The tags of a text stand where those of its words do.** -/
theorem spans_pieces (k : TagKind) (n : ℕ) (t : Text) :
    spans k n (pieces k t) = (placed n t).flatMap fun p => spans k p.start (pieces k p.text) := by
  induction t using induction_words generalizing n with
  | nil => rfl
  | blank c t hc ih =>
    rw [pieces_cons_of_ne (ne_of_isBlank hc (isBlank_sigil k)), spans, ih, placed, if_pos hc]
  | word w hw => simp [placed_of_solid hw]
  | cons w c t hw hc ih =>
    rw [pieces_append_blank hc, spans_append, flatMap_text_pieces, spans, ih,
      placed_append_blank hc, placed_of_solid hw]
    rfl

section

variable {n : ℕ} {t : Text} {p : Placed} (hp : p ∈ placed n t)

include hp

/-- A tag that shares a byte with a word is a tag of that word. -/
lemma mem_spans_of_overlaps {s : Span} (hs : s ∈ spans k n (pieces k t))
    (h : s.overlaps p.span = true) : s ∈ spans k p.start (pieces k p.text) := by
  rw [spans_pieces] at hs
  obtain ⟨q, hq, hs⟩ := List.mem_flatMap.1 hs
  obtain rfl : q = p := by
    by_contra hne
    have hbounds := bounds_of_mem_spans hs
    have := stop_le_or_stop_le_of_mem_placed hq hp hne
    simp only [Span.overlaps_iff, Placed.span_start, Placed.span_stop, Placed.stop] at h this
    omega
  exact hs

variable {name : Text} (hn : IsName name) (htext : p.text = k.sigil :: name)

include hn htext

lemma span_mem_spans : p.span ∈ spans k n (pieces k t) := by
  rw [spans_pieces]
  refine List.mem_flatMap.2 ⟨p, hp, ?_⟩
  rw [htext, pieces_sigil_name hn, Placed.span, Placed.stop, htext]
  exact List.mem_singleton_self _

omit hp

/-- A word that is a tag holds no other. -/
lemma eq_of_mem_spans_tagWord {k' : TagKind} {s : Span}
    (hs : s ∈ spans k' p.start (pieces k' p.text)) : k' = k ∧ s = p.span := by
  obtain rfl : k' = k := by
    by_contra hne
    refine names_ne_nil_of_mem_spans hs (names_pieces_of_not_mem ?_)
    rw [htext]
    exact sigil_not_mem_tagWord hne hn
  rw [htext, pieces_sigil_name hn] at hs
  rw [Placed.span, Placed.stop, htext]
  exact ⟨rfl, List.mem_singleton.1 hs⟩

end

/-! ### Texts without tags -/

/-- A text holds no tag if no tag character follows a sigil. -/
lemma names_pieces_eq_nil_iff {t : Text} :
    names (pieces k t) = [] ↔ t.IsChain fun c d => ¬ (c = k.sigil ∧ isTagChar d = true) := by
  induction t using induction_pieces k with
  | nil => simp [names]
  | tag t hn ih =>
    rw [pieces_sigil hn, names_tag]
    refine iff_of_false (by simp) fun h => ?_
    cases t with
    | nil => exact hn rfl
    | cons d t =>
      have hd : isTagChar d = true := by
        by_contra hd
        exact hn (by simp [nameOf, hd])
      exact (List.isChain_cons_cons.1 h).1 ⟨rfl, hd⟩
  | plain c t hc ih =>
    rw [hc, names_plain, ih, List.isChain_cons, iff_and_self]
    rintro - d hd ⟨rfl, htag⟩
    obtain ⟨t, rfl⟩ : ∃ r, t = d :: r := by
      cases t with
      | nil => cases hd
      | cons e t => exact ⟨t, by simpa using hd⟩
    have hn : nameOf (d :: t) ≠ [] := by simp [nameOf, htag]
    rw [pieces_sigil hn] at hc
    cases hc

lemma Untagged.of_append {a b : Text} (h : Untagged (a ++ b)) : Untagged a ∧ Untagged b :=
  ⟨fun k => names_pieces_eq_nil_iff.2 (names_pieces_eq_nil_iff.1 (h k)).left_of_append,
    fun k => names_pieces_eq_nil_iff.2 (names_pieces_eq_nil_iff.1 (h k)).right_of_append⟩

lemma untagged_of_isTagChar {w : Text} (h : ∀ c ∈ w, isTagChar c = true) : Untagged w := by
  refine untagged_of_not_mem fun k hk => ?_
  have := h _ hk
  rw [isTagChar_sigil] at this
  cases this

lemma untagged_sigil (k : TagKind) : Untagged [k.sigil] :=
  fun _ => names_pieces_eq_nil_iff.2 (List.isChain_singleton _)

/-! ### Tags that stand apart -/

namespace Piece

def isTag : Piece → Bool
  | tag _ => true
  | plain _ => false

def isBlank : Piece → Bool
  | tag _ => false
  | plain c => Text.isBlank c

end Piece

/-- Each tag of the kind stands between blanks or at an end of the text. -/
def StandApart (k : TagKind) (t : Text) : Prop :=
  (pieces k t).IsChain fun p q =>
    (p.isTag = true → q.isBlank = true) ∧ (q.isTag = true → p.isBlank = true)

instance (k : TagKind) (t : Text) : Decidable (StandApart k t) :=
  inferInstanceAs (Decidable (List.IsChain _ _))

lemma StandApart.of_mem_words {t w : Text} (h : StandApart k t) (hw : w ∈ words t) :
    StandApart k w := by
  unfold StandApart at h
  induction t using induction_words with
  | nil => cases hw
  | blank c t hc ih =>
    rw [words_cons_blank hc] at hw
    rw [pieces_cons_of_ne (ne_of_isBlank hc (isBlank_sigil k))] at h
    exact ih (List.isChain_cons.1 h).2 hw
  | word v hv =>
    rw [words_of_solid hv, List.mem_singleton] at hw
    exact hw ▸ h
  | cons v c t hv hc ih =>
    rw [words_append_blank hc, words_of_solid hv, List.singleton_append, List.mem_cons] at hw
    rw [pieces_append_blank hc] at h
    rcases hw with rfl | hw
    · exact h.left_of_append
    · exact ih (List.isChain_cons.1 h.right_of_append).2 hw

lemma Piece.isBlank_of_mem_pieces {w : Text} (hw : Solid w) {p : Piece} (hp : p ∈ pieces k w) :
    p.isBlank = false := by
  cases p with
  | tag name => rfl
  | plain c =>
    refine hw.2 c ?_
    rw [← flatMap_text_pieces k w]
    exact List.mem_flatMap.2 ⟨_, hp, List.mem_singleton_self c⟩

/-- A word with a tag that stands apart is nothing but the tag. -/
lemma StandApart.exists_of_solid {w : Text} (h : StandApart k w) (hw : Solid w)
    (hn : names (pieces k w) ≠ []) : ∃ name, IsName name ∧ w = k.sigil :: name := by
  obtain ⟨name, hname⟩ := List.exists_mem_of_ne_nil _ hn
  have htag : Piece.tag name ∈ pieces k w := by
    obtain ⟨p, hp, he⟩ := List.mem_filterMap.1 hname
    cases p with
    | plain c => cases he
    | tag m => cases he; exact hp
  obtain ⟨qs, rs, hps⟩ := List.append_of_mem htag
  unfold StandApart at h
  rw [hps, List.isChain_append, List.isChain_cons] at h
  have hblank : ∀ p ∈ qs ++ .tag name :: rs, p.isBlank = false := fun p hp =>
    Piece.isBlank_of_mem_pieces hw (hps ▸ hp)
  have hqs : qs = [] := by
    rw [← List.getLast?_eq_none_iff, Option.eq_none_iff_forall_ne_some]
    intro p hp
    have hpb := (h.2.2 p hp (.tag name) rfl).2 rfl
    rw [hblank p (by simp [List.mem_of_getLast? hp])] at hpb
    cases hpb
  have hrs : rs = [] := by
    rw [← List.head?_eq_none_iff, Option.eq_none_iff_forall_ne_some]
    intro p hp
    have hpb := (h.2.1.1 p hp).1 rfl
    rw [hblank p (by simp [List.mem_of_head? hp])] at hpb
    cases hpb
  refine ⟨name, isName_of_mem_names hname, ?_⟩
  rw [← flatMap_text_pieces k w, hps, hqs, hrs]
  simp [Piece.text]

/-- **A word is a tag or holds none**, where the tags of both kinds stand apart. -/
theorem untagged_or_exists_tagWord {t w : Text} (h : ∀ k, StandApart k t) (hw : w ∈ words t) :
    Untagged w ∨ ∃ (k : TagKind) (name : Text), IsName name ∧ w = k.sigil :: name := by
  by_cases hu : Untagged w
  · exact .inl hu
  · obtain ⟨k, hk⟩ := not_forall.1 hu
    exact .inr ⟨k, ((h k).of_mem_words hw).exists_of_solid (solid_of_mem_words hw) hk⟩

/-! ### Words without the tags of both kinds -/

/-- The words that are left when the tags of both kinds are taken out, one kind after the other. -/
def cleared (ws : List Text) : List Text := without .context (without .category ws)

lemma cleared_append (us ws : List Text) : cleared (us ++ ws) = cleared us ++ cleared ws := by
  rw [cleared, without_append, without_append]
  rfl

lemma cleared_of_untagged {ws : List Text} (hs : ∀ w ∈ ws, Solid w) (h : ∀ w ∈ ws, Untagged w) :
    cleared ws = ws := by
  have hk : ∀ k, without k ws = ws := fun k =>
    without_of_namesIn_nil hs (namesIn_eq_nil_iff.2 fun w hw => h w hw k)
  rw [cleared, hk, hk]

lemma cleared_tagWord {name : Text} (h : IsName name) : cleared [k.sigil :: name] = [] := by
  have hown : without k (tagWords k [name]) = [] := without_tagWords (by simpa using h)
  rw [tagWords, List.map_singleton] at hown
  cases k with
  | category =>
    rw [cleared, hown]
    rfl
  | context =>
    have hkeep : without .category [TagKind.context.sigil :: name] =
        [TagKind.context.sigil :: name] :=
      without_of_namesIn_nil (by simpa using solid_tagWord h)
        (namesIn_of_not_mem (by simpa using sigil_not_mem_tagWord (by decide) h))
    rw [cleared, hkeep, hown]

lemma cleared_words_of_untagged {t : Text} (h : Untagged t) : cleared (words t) = words t := by
  refine cleared_of_untagged (fun _ => solid_of_mem_words) fun w hw k => ?_
  have hk : namesIn k (words t) = [] := (namesIn_words t).trans (h k)
  exact namesIn_eq_nil_iff.1 hk w hw

end TaskCapture.Tag
