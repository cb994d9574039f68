import TaskCapture.Proofs.Capture.LineWords
import TaskCapture.Proofs.Capture.TagRest
import TaskCapture.Proofs.Capture.Tokens

/-!
The tags of a line are found twice: its tokens mark them where they stand, and an interpretation
takes them out after the priority marker. Both find the same tags, unless one of them runs into the
marker.
-/

namespace TaskCapture

open Text

/-! ### The text of a span -/

/-- The text between the two ends of a span, where both are boundaries. -/
def Span.slice (s : Span) (t : Text) : Text :=
  ((splitAtByte s.stop t).bind fun (u, _) => (splitAtByte s.start u).map (·.2)).getD []

lemma Span.slice_append (a x b : Text) :
    Span.slice ⟨byteSize a, byteSize (a ++ x)⟩ (a ++ x ++ b) = x := by
  simp only [slice, splitAtByte_append, Option.bind_some, Option.map_some, Option.getD_some]

namespace Tag

variable {j k : TagKind} {n : ℕ} {a b : Text}

/-- The texts of the tags, in order, are their names with the sigil before them. -/
lemma map_slice_spans (ps : List Piece) (a : Text) :
    (spans k (byteSize a) ps).map (·.slice (a ++ ps.flatMap (Piece.text k))) =
      (names ps).map (k.sigil :: ·) := by
  induction ps generalizing a with
  | nil => rfl
  | cons p ps ih =>
    have h := ih (a ++ p.text k)
    rw [byteSize_append] at h
    cases p with
    | plain c => simpa [spans, Piece.text] using h
    | tag name =>
      have hslice := Span.slice_append a (k.sigil :: name) (ps.flatMap (Piece.text k))
      rw [byteSize_append] at hslice
      simp only [Piece.text, List.append_assoc] at h hslice
      simp only [spans, Piece.text, List.map_cons, List.flatMap_cons, names_tag, h, hslice]

/-- A tag for each name. -/
lemma length_spans (k : TagKind) (n : ℕ) (ps : List Piece) :
    (spans k n ps).length = (names ps).length := by
  induction ps generalizing n with
  | nil => rfl
  | cons p ps ih => cases p <;> simp [spans, ih]

/-! ### Cutting a text where no tag stands -/

/-- A name goes no further than the text before the cut, unless that is all of it. -/
lemma nameOf_append (h : a.dropWhile isTagChar = [] → nameOf b = []) :
    nameOf (a ++ b) = nameOf a ∧ (a ++ b).dropWhile isTagChar = a.dropWhile isTagChar ++ b := by
  induction a with
  | nil =>
    have hb := nameOf_append_dropWhile b
    rw [h rfl, List.nil_append] at hb
    exact ⟨h rfl, hb⟩
  | cons c a ih =>
    rw [nameOf, nameOf, List.cons_append, List.takeWhile_cons, List.takeWhile_cons,
      List.dropWhile_cons, List.dropWhile_cons]
    split_ifs with hc
    · rw [List.dropWhile_cons_of_pos hc] at h
      exact ⟨congrArg (c :: ·) (ih h).1, (ih h).2⟩
    · exact ⟨rfl, rfl⟩

/-- A tag that begins before the cut ends there at the latest. -/
lemma nameOf_eq_nil_of_stop_le (hn : nameOf (a ++ b) ≠ [])
    (h : ∀ s ∈ spans k n (pieces k (k.sigil :: (a ++ b))),
      s.stop ≤ n + byteSize (k.sigil :: a) ∨ n + byteSize (k.sigil :: a) ≤ s.start)
    (ha : a.dropWhile isTagChar = []) : nameOf b = [] := by
  have hall : nameOf (a ++ b) = a ++ nameOf b :=
    List.takeWhile_append_of_pos (List.dropWhile_eq_nil_iff.1 ha)
  rw [pieces_sigil hn, hall] at h
  have hc := k.sigil.utf8Size_pos
  have hfirst := h _ List.mem_cons_self
  simp only [Piece.text, byteSize_cons, byteSize_append] at hfirst
  by_contra hb
  have := byteSize_pos hb
  omega

/-- **A text may be cut wherever no tag lies across the cut.** -/
theorem pieces_append (h : ∀ s ∈ spans k n (pieces k (a ++ b)),
    s.stop ≤ n + byteSize a ∨ n + byteSize a ≤ s.start) :
    pieces k (a ++ b) = pieces k a ++ pieces k b := by
  induction a using induction_pieces k generalizing n with
  | nil => rfl
  | tag a hn ih =>
    have hne : nameOf (a ++ b) ≠ [] := by
      obtain ⟨c, a, rfl⟩ : ∃ c r, a = c :: r :=
        List.exists_cons_of_ne_nil fun ha => hn (by rw [ha]; rfl)
      have hc : isTagChar c = true := by
        by_contra hc
        exact hn (by simp [nameOf, hc])
      simp [nameOf, hc]
    obtain ⟨hname, hdrop⟩ := nameOf_append (nameOf_eq_nil_of_stop_le hne h)
    rw [List.cons_append, pieces_sigil hne, hname, hdrop] at h
    have hsize : n + byteSize (k.sigil :: a) =
        n + byteSize (Piece.text k (.tag (nameOf a))) + byteSize (a.dropWhile isTagChar) := by
      conv_lhs => rw [← nameOf_append_dropWhile a]
      simp [Piece.text, Nat.add_assoc]
    rw [List.cons_append, pieces_sigil hne, pieces_sigil hn, hname, hdrop, List.cons_append,
      ih fun s hs => hsize ▸ h s (List.mem_cons_of_mem _ hs)]
  | plain c a hc ih =>
    have hplain : pieces k (c :: (a ++ b)) = .plain c :: pieces k (a ++ b) := by
      by_cases hs : c = k.sigil
      · subst hs
        refine pieces_sigil_of_nil (by_contra fun hne => hne ?_)
        have ha : nameOf a = [] := by
          by_contra hn
          rw [pieces_sigil hn] at hc
          cases hc
        rw [(nameOf_append (nameOf_eq_nil_of_stop_le hne h)).1, ha]
      · exact pieces_cons_of_ne hs _
    rw [List.cons_append, hplain] at h
    rw [List.cons_append, hplain, hc, List.cons_append, ih (n := n + c.utf8Size) fun s hs => ?_]
    have := h s hs
    rw [byteSize_cons] at this
    omega

/-- What no tag shares a byte with can be taken out; the tags stay what they are. -/
lemma names_pieces_of_apart {m : Text} (hm : m ≠ [])
    (h : ∀ s ∈ spans k 0 (pieces k (a ++ m ++ b)),
      s.overlaps ⟨byteSize a, byteSize a + byteSize m⟩ = false) :
    names (pieces k (a ++ m ++ b)) = names (pieces k a) ++ names (pieces k b) := by
  have hpos := byteSize_pos hm
  have hcut : pieces k (a ++ m ++ b) = pieces k a ++ pieces k m ++ pieces k b := by
    have hb : pieces k (a ++ m ++ b) = pieces k (a ++ m) ++ pieces k b := by
      refine pieces_append (n := 0) fun s hs => ?_
      have := Span.overlaps_eq_false_iff.1 (h s hs)
      simp only [byteSize_append] at this ⊢
      omega
    rw [hb, pieces_append (n := 0) fun s hs => ?_]
    have := Span.overlaps_eq_false_iff.1 (h s (by rw [hb, spans_append]; simp [hs]))
    simp only at this
    omega
  have hnone : names (pieces k m) = [] := by
    by_contra hne
    have hpos := List.length_pos_iff.2 hne
    rw [← length_spans k (byteSize a)] at hpos
    obtain ⟨s, hs⟩ := List.exists_mem_of_length_pos hpos
    have hbounds := bounds_of_mem_spans hs
    have := Span.overlaps_eq_false_iff.1
      (h s (by rw [hcut, spans_append, spans_append, flatMap_text_pieces]; simp [hs]))
    simp only at this
    omega
  rw [hcut, names_append, names_append, hnone, List.append_nil]

/-! ### Tags of both kinds -/

/-- A tag has the sigil of its own kind only, so no tag of the other kind begins within it. -/
lemma start_lt_or_stop_le {t : Text} {r s : Span} (hne : j ≠ k) (hr : r ∈ spans j 0 (pieces j t))
    (hs : s ∈ spans k 0 (pieces k t)) : s.start < r.start ∨ r.stop ≤ s.start := by
  obtain ⟨a, name, b, rfl, hname, rfl⟩ := exists_name_of_mem_spans hr
  obtain ⟨a', name', b', ht, -, rfl⟩ := exists_name_of_mem_spans hs
  by_contra hin
  rw [not_or, not_lt, not_le, Nat.zero_add, Nat.zero_add, ← byteSize_append] at hin
  -- the sigil of the second tag would stand in the first
  obtain ⟨m, hm, hx, hy⟩ := exists_of_append_eq_of_byteSize_lt
    (a := a') (y := b) (by rw [ht, List.append_assoc]) hin.2
  obtain ⟨c, m, rfl⟩ := List.exists_cons_of_ne_nil hm
  obtain ⟨rfl, -⟩ := List.cons_eq_cons.1 hy
  have hmem : k.sigil ∈ j.sigil :: name := by
    rcases List.append_eq_append_iff.1 hx with ⟨y, rfl, hy⟩ | ⟨y, rfl, hy⟩
    · rw [hy]
      simp
    · obtain rfl : y = [] := by
        by_contra hne
        have := byteSize_pos hne
        simp only [byteSize_append] at hin
        omega
      rw [List.nil_append] at hy
      rw [← hy]
      simp
  exact sigil_not_mem_tagWord hne.symm hname hmem

lemma overlaps_eq_false_of_ne {t : Text} {r s : Span} (hne : j ≠ k)
    (hr : r ∈ spans j 0 (pieces j t)) (hs : s ∈ spans k 0 (pieces k t)) :
    r.overlaps s = false := by
  have h1 := start_lt_or_stop_le hne hr hs
  have h2 := start_lt_or_stop_le hne.symm hs hr
  rw [Span.overlaps_eq_false_iff]
  omega

end Tag

/-! ### What is interpreted -/

instance : Fintype TagKind := ⟨{.category, .context}, fun k => by cases k <;> decide⟩

/-- No tag shares a byte with the priority marker. -/
def MarkerApart (t : Text) : Prop :=
  ∀ c ∈ Priority.find? t, ∀ k, ∀ s ∈ Tag.spans k 0 (Tag.pieces k t), s.overlaps c.span = false

instance (t : Text) : Decidable (MarkerApart t) :=
  inferInstanceAs (Decidable (∀ c ∈ Priority.find? t, _))

variable {t : Text} {resolve : Resolver} {ref : Instant} {k : TagKind}

/-- Without its priority marker a text has the same tags. -/
lemma MarkerApart.namesIn_outOf (h : MarkerApart t) (k : TagKind) :
    Tag.namesIn k (Priority.outOf (words t)).2 = Tag.names (Tag.pieces k t) := by
  cases hc : Priority.find? t with
  | none => rw [Priority.words_outOf_of_find?_none hc, Tag.namesIn_words]
  | some c =>
    have ht := Priority.eq_of_find? hc
    have hapart := h c hc k
    rw [Priority.words_outOf_of_find? hc, Tag.namesIn_append, Tag.namesIn_words, Tag.namesIn_words]
    rw [ht] at hapart ⊢
    exact (Tag.names_pieces_of_apart (Priority.solid_marker hc).1 hapart).symm

/-- **The tags of the text are those of the task**, in small letters. -/
theorem MarkerApart.tags_interpret (h : MarkerApart t) :
    (interpret resolve ref t).tags k = (Tag.names (Tag.pieces k t)).map lower := by
  obtain ⟨-, hp⟩ := Prod.ext_iff.1 (Priority.extract_words t)
  obtain ⟨hc, hcw⟩ := Prod.ext_iff.1 (Tag.extract_words .category (Priority.extract t).2)
  obtain ⟨hx, -⟩ := Prod.ext_iff.1
    (Tag.extract_words .context (Tag.extract .category (Priority.extract t).2).2)
  dsimp only at hp hc hcw hx
  rw [hp, h.namesIn_outOf] at hc
  rw [hcw, hp, Tag.namesIn_without, if_neg (by decide), h.namesIn_outOf] at hx
  cases k with
  | category => exact hc
  | context => exact hx

namespace Highlight

/-! ### What is marked -/

/-- Spans that lie apart from the marks and from each other are all added. -/
lemma addFree_eq_append {kind : TokenKind} {marks : List Token} {spans : List Span}
    (hmarks : ∀ s ∈ spans, ∀ m ∈ marks, Apart m ⟨kind, s⟩)
    (hspans : spans.Pairwise fun r s => r.overlaps s = false) :
    addFree kind marks spans = marks ++ spans.map (⟨kind, ·⟩) := by
  induction spans generalizing marks with
  | nil => simp [addFree]
  | cons s spans ih =>
    obtain ⟨hs, hspans⟩ := List.pairwise_cons.1 hspans
    rw [addFree_cons, if_pos (hmarks s (by simp)), ih (fun r hr m hm => ?_) hspans]
    · simp
    · rcases List.mem_append.1 hm with hm | hm
      · exact hmarks r (by simp [hr]) m hm
      · obtain rfl := List.mem_singleton.1 hm
        exact hs r hr

/-- The tags of a kind as marks. -/
def tagMarks (k : TagKind) (t : Text) : List Token :=
  (Tag.spans k 0 (Tag.pieces k t)).map (⟨markOf k, ·⟩)

lemma markers_eq_append (h : MarkerApart t) :
    markers t = (Priority.find? t).toList.map (fun c => ⟨.priority, c.span⟩) ++
      tagMarks .category t ++ tagMarks .context t := by
  have hpriority : ∀ k, ∀ s ∈ Tag.spans k 0 (Tag.pieces k t),
      ∀ m ∈ (Priority.find? t).toList.map fun c => (⟨.priority, c.span⟩ : Token),
        Apart m ⟨markOf k, s⟩ := by
    intro k s hs m hm
    obtain ⟨c, hc, rfl⟩ := List.mem_map.1 hm
    exact Apart.symm (h c (Option.mem_toList.1 hc) k s hs)
  have hspans : ∀ k, (Tag.spans k 0 (Tag.pieces k t)).Pairwise fun r s => r.overlaps s = false :=
    fun k => (Tag.pairwise_spans 0 _).imp fun h => Span.overlaps_eq_false_iff.2 (.inr h)
  have hcategory := addFree_eq_append (hpriority .category) (hspans .category)
  rw [markOf] at hcategory
  rw [markers, hcategory]
  refine addFree_eq_append (fun s hs m hm => ?_) (hspans .context)
  rcases List.mem_append.1 hm with hm | hm
  · exact hpriority .context s hs m hm
  · obtain ⟨r, hr, rfl⟩ := List.mem_map.1 hm
    exact Tag.overlaps_eq_false_of_ne (by decide) hr hs

lemma filter_fill {kind : TokenKind} (h : kind ≠ .text) (size n : ℕ) (ms : List Token) :
    (fill size n ms).filter (·.kind = kind) = ms.filter (·.kind = kind) := by
  induction ms generalizing n with
  | nil =>
    rw [fill]
    split_ifs <;> simp [h.symm]
  | cons m ms ih =>
    rw [fill, List.filter_append, List.filter_cons, List.filter_cons, ih]
    split_ifs <;> simp [h.symm]

lemma filter_marks (h : MarkerApart t) :
    (marks resolve ref t).filter (·.kind = markOf k) = tagMarks k t := by
  have hdate : ∀ m ∈ dateMark? resolve ref t (markers t), m.kind ≠ markOf k := by
    intro m hm
    obtain ⟨d, -, rfl, -⟩ := dateMark?_eq_some_iff.1 hm
    cases k <;> simp [markOf]
  have hself : ∀ j, (tagMarks j t).filter (·.kind = markOf k) =
      if j = k then tagMarks j t else [] := by
    intro j
    rw [tagMarks, List.filter_map]
    cases j <;> cases k <;> simp [Function.comp_def, markOf]
  have hpriority : ((Priority.find? t).toList.map fun c => (⟨.priority, c.span⟩ : Token)).filter
      (·.kind = markOf k) = [] := by
    rw [List.filter_map]
    cases k <;> simp [Function.comp_def, markOf]
  have hnone : (dateMark? resolve ref t (markers t)).toList.filter (·.kind = markOf k) = [] := by
    simpa using hdate
  rw [marks, List.filter_append, hnone, markers_eq_append h, List.filter_append, List.filter_append,
    hpriority, hself, hself]
  cases k <;> simp

/-- **The tokens of a kind of tag are its marks in order.** -/
theorem filter_highlight (h : MarkerApart t) :
    (highlight resolve ref t).filter (·.kind = markOf k) = tagMarks k t := by
  have hkind : markOf k ≠ .text := by cases k <;> decide
  have hmarks : (marks resolve ref t).filter (·.kind = markOf k) = tagMarks k t := filter_marks h
  rw [highlight_eq_fill, filter_fill hkind, ← hmarks]
  have hperm := (sortMarks_perm (marks resolve ref t)).filter (·.kind = markOf k)
  have hsorted : ((marks resolve ref t).filter (·.kind = markOf k)).Pairwise
      fun a b => a.span.start ≤ b.span.start := by
    rw [hmarks, tagMarks, List.pairwise_map]
    refine (Tag.pairwise_spans 0 _).imp_of_mem fun hr _ hle => ?_
    exact (Tag.bounds_of_mem_spans hr).2.1.le.trans hle
  refine hperm.eq_of_pairwise (fun a b ha hb hab hba => ?_)
    ((ascending_sortMarks _).sublist List.filter_sublist) hsorted
  -- two tags of a kind that start together are one tag
  rw [hperm.mem_iff, hmarks] at ha
  rw [hmarks] at hb
  obtain ⟨r, hr, rfl⟩ := List.mem_map.1 ha
  obtain ⟨s, hs, rfl⟩ := List.mem_map.1 hb
  by_contra hne
  have hapart := Tag.overlaps_eq_false_of_mem_spans hr hs fun he => hne (by rw [he])
  have hrpos := (Tag.bounds_of_mem_spans hr).2.1
  have hspos := (Tag.bounds_of_mem_spans hs).2.1
  rw [Span.overlaps_eq_false_iff] at hapart
  simp only at hab hba
  omega

/-- **The tags that are marked are the tags that are interpreted.** Where no tag shares a byte with
the priority marker, the texts of the tokens of either kind are, in order and with repetitions, the
sigil before names, and these names in small letters are the tags of the task. -/
theorem highlighted_tags (h : MarkerApart t) (resolve : Resolver) (ref : Instant) (k : TagKind) :
    ∃ names : List Text, (∀ n ∈ names, Tag.IsName n) ∧
      ((highlight resolve ref t).filter (·.kind = markOf k)).map (·.span.slice t) =
        names.map (k.sigil :: ·) ∧
      (interpret resolve ref t).tags k = names.map lower := by
  refine ⟨Tag.names (Tag.pieces k t), fun n => Tag.isName_of_mem_names, ?_, h.tags_interpret⟩
  have hslice := Tag.map_slice_spans (k := k) (Tag.pieces k t) []
  rw [Tag.flatMap_text_pieces, List.nil_append] at hslice
  rw [filter_highlight h, tagMarks, List.map_map, ← hslice]
  rfl

/-- Tags run into each other, one has a hyphen before the marker and one comes right after it, and
one is there twice. -/
theorem highlighted_tags_of_office :
    let ref : Instant := ⟨⟨2025, 3, 5, by decide, by decide, by decide, by decide⟩, .noon⟩
    let t := "fix #a#b-c@Büro-!high#A tomorrow @x @x".toList
    let texts := fun k => ((highlight Resolver.english ref t).filter (·.kind = markOf k)).map
      (·.span.slice t)
    MarkerApart t ∧ texts .category = ["#a".toList, "#b-c".toList, "#A".toList] ∧
      (interpret Resolver.english ref t).categories = ["a".toList, "b-c".toList, "a".toList] ∧
      texts .context = ["@Büro-".toList, "@x".toList, "@x".toList] ∧
      (interpret Resolver.english ref t).contexts = ["büro-".toList, "x".toList, "x".toList] := by
  intro ref t texts
  have hmarker : MarkerApart t := by decide +kernel
  have hnames : ∀ (k : TagKind) (us vs : List Text),
      us.map (k.sigil :: ·) = vs.map (k.sigil :: ·) → us = vs :=
    fun k _ _ h => List.map_injective_iff.2 (fun _ _ he => (List.cons_eq_cons.1 he).2) h
  have hcategory : texts .category = ["#a".toList, "#b-c".toList, "#A".toList] := by decide +kernel
  have hcontext : texts .context = ["@Büro-".toList, "@x".toList, "@x".toList] := by decide +kernel
  obtain ⟨cs, -, hc, hc'⟩ := highlighted_tags hmarker Resolver.english ref .category
  obtain ⟨xs, -, hx, hx'⟩ := highlighted_tags hmarker Resolver.english ref .context
  obtain rfl := hnames .category _ ["a".toList, "b-c".toList, "A".toList]
    (hc.symm.trans hcategory)
  obtain rfl := hnames .context _ ["Büro-".toList, "x".toList, "x".toList]
    (hx.symm.trans hcontext)
  exact ⟨hmarker, hcategory, hc'.trans (by decide +kernel), hcontext,
    hx'.trans (by decide +kernel)⟩

end Highlight

end TaskCapture
