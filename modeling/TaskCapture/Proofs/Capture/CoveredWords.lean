import TaskCapture.Proofs.Capture.Marks

/-!
The words of a line with its markers covered are those that are left when the markers are taken
out, as long as no marker cuts a tag in two.
-/

namespace TaskCapture

open Text

namespace Highlight

/-! ### Covering word by word -/

lemma isBlank_of_mem_cover {marks : List Token} {n : ℕ} {c d : Char} (hc : isBlank c = true)
    (hd : d ∈ cover marks n [c]) : isBlank d = true := by
  rw [cover_cons] at hd
  simp only [cover, List.append_nil] at hd
  split_ifs at hd
  · exact isBlank_of_mem_spaces hd
  · rwa [List.mem_singleton.1 hd]

lemma cover_ne_nil {marks : List Token} {n : ℕ} {t : Text} (h : t ≠ []) :
    cover marks n t ≠ [] := by
  intro hnil
  have := byteSize_pos h
  rw [← byteSize_cover marks n t, hnil] at this
  simp at this

/-- **Covering changes each word on its own.** -/
theorem words_cover (marks : List Token) (n : ℕ) (t : Text) :
    words (cover marks n t) =
      (placed n t).flatMap fun p => words (cover marks p.start p.text) := by
  induction t using induction_words generalizing n with
  | nil => rfl
  | blank c t hc ih =>
    rw [← List.singleton_append, cover_append,
      words_blanks_append fun d hd => isBlank_of_mem_cover hc hd, ih, List.singleton_append,
      placed, if_pos hc]
    simp
  | word w hw => simp [placed_of_solid hw]
  | cons w c t hw hc ih =>
    have hcut : w ++ c :: t = w ++ [c] ++ t := by simp
    rw [placed_append_blank hc, placed_of_solid hw, hcut, cover_append, cover_append,
      words_append_blanks_append (cover_ne_nil (by simp)) fun d hd => isBlank_of_mem_cover hc hd,
      ih]
    simp [Nat.add_assoc]

/-- What covers a byte of a word is the priority marker or a tag of the word. -/
lemma or_exists_of_covers_markers {t : Text} {p : Placed} (hp : p ∈ placed 0 t) {n : ℕ}
    (hn : p.start ≤ n ∧ n < p.stop) (h : Covers (markers t) n) :
    (∃ c, Priority.find? t = some c ∧ c.span.start ≤ n ∧ n < c.span.stop) ∨
      ∃ k, ∃ s ∈ Tag.spans k p.start (Tag.pieces k p.text), ⟨markOf k, s⟩ ∈ markers t := by
  obtain ⟨m, hm, hmn⟩ := h
  rcases mem_or_of_mem_markers hm with ⟨c, hc, rfl⟩ | ⟨k, hk, hs⟩
  · exact .inl ⟨c, hc, hmn⟩
  · refine .inr ⟨k, m.span, Tag.mem_spans_of_overlaps hp hs ?_, hk ▸ hm⟩
    simp only [Span.overlaps_iff, Placed.span_start, Placed.span_stop]
    simp only [Placed.stop] at hn
    omega

/-! ### Words apart from the priority marker -/

section

variable {t : Text} {p : Placed} (hp : p ∈ placed 0 t)
  (hc : ∀ c, Priority.find? t = some c → c.span.overlaps p.span = false)

include hp hc

lemma cover_markers_of_untagged (hu : Tag.Untagged p.text) :
    cover (markers t) p.start p.text = p.text := by
  refine cover_of_not_covers fun n hn hn' h => ?_
  rcases or_exists_of_covers_markers hp ⟨hn, hn'⟩ h with ⟨c, hfind, hcn⟩ | ⟨k, s, hs, -⟩
  · have := Span.overlaps_eq_false_iff.1 (hc c hfind)
    simp only [Placed.span_start, Placed.span_stop] at this
    omega
  · exact Tag.names_ne_nil_of_mem_spans hs (hu k)

/-- A word that is a tag is marked as one. -/
lemma tagWord_mem_markers {k : TagKind} {name : Text} (hn : Tag.IsName name)
    (htext : p.text = k.sigil :: name) : ⟨markOf k, p.span⟩ ∈ markers t := by
  have hs := Tag.span_mem_spans hp hn htext
  have hspans := fun r hr => Tag.overlaps_eq_false_of_mem_spans (r := r) (k := k) hr hs
  have hpriority : ∀ kind, ∀ m ∈ (Priority.find? t).toList.map fun c => Token.mk .priority c.span,
      Apart m ⟨kind, p.span⟩ := by
    intro kind m hm
    obtain ⟨c, hfind, rfl⟩ := List.mem_map.1 hm
    exact hc c (Option.mem_toList.1 hfind)
  cases k with
  | category => exact mem_addFree_of_mem (mem_addFree_of_apart hs (hpriority _) hspans)
  | context =>
    refine mem_addFree_of_apart hs (fun m hm => ?_) hspans
    rcases mem_or_of_mem_addFree hm with hm | ⟨-, hm⟩
    · exact hpriority _ m hm
    · -- a category would be a tag of another word
      refine Bool.eq_false_iff.2 fun hover => ?_
      have := (Tag.eq_of_mem_spans_tagWord hn htext (Tag.mem_spans_of_overlaps hp hm hover)).1
      cases this

/-- Covering a word has the effect of taking its tags out. -/
lemma words_cover_markers_of_word (htags : ∀ k, Tag.StandApart k t) :
    words (cover (markers t) p.start p.text) = Tag.cleared [p.text] := by
  have hsolid := solid_of_mem_words (text_mem_words hp)
  rcases Tag.untagged_or_exists_tagWord htags (text_mem_words hp) with
    hu | ⟨k, name, hn, htext⟩
  · rw [cover_markers_of_untagged hp hc hu, words_of_solid hsolid,
      Tag.cleared_of_untagged (by simpa using hsolid) (by simpa using hu)]
  · have hcov : cover (markers t) p.start p.text = List.replicate (byteSize p.text) ' ' :=
      cover_of_covers fun n hn' hn'' => ⟨_, tagWord_mem_markers hp hc hn htext, hn', hn''⟩
    rw [hcov, htext, Tag.cleared_tagWord hn, ← List.append_nil (List.replicate _ _),
      words_blanks_append fun _ => isBlank_of_mem_spaces]
    rfl

end

/-! ### The word with the priority marker -/

/-- The priority marker lies in the name of a tag only at its start. -/
def MarkerOpensName (t : Text) : Prop :=
  ∀ c ∈ Priority.find? t, ∀ k, ∀ s ∈ Tag.spans k 0 (Tag.pieces k t),
    s.overlaps c.span = true → c.span.start = s.start + 1

section

variable {t : Text} {c : Cut Priority} (hc : Priority.find? t = some c) {q : Placed}
  (hq : q ∈ placed 0 t) {a b : Text} (htext : q.text = a ++ c.marker ++ b)
  (hstart : q.start + byteSize a = byteSize c.before) (htags : ∀ k, Tag.StandApart k t)

include hc htext hstart in
/-- The marker lies in its word. -/
lemma overlaps_priority : q.span.overlaps c.span = true := by
  have hpos := byteSize_pos (Priority.solid_marker hc).1
  simp only [Span.overlaps_iff, Cut.span, Placed.span_start, Placed.span_stop, htext,
    byteSize_append, ← hstart]
  omega

include hc hq htext hstart htags

/-- No tag is marked in the word of the priority marker. -/
lemma covers_markers_iff_of_priority {n : ℕ} (hn : q.start ≤ n ∧ n < q.stop) :
    Covers (markers t) n ↔ c.span.start ≤ n ∧ n < c.span.stop := by
  refine ⟨fun h => ?_, fun h => ⟨_, priority_mem_markers hc, h⟩⟩
  rcases or_exists_of_covers_markers hq hn h with ⟨c', hc', hcn⟩ | ⟨k, s, hs, hmem⟩
  · rw [hc] at hc'
    cases hc'
    exact hcn
  · -- the word would be a tag, and the marker would share its bytes
    exfalso
    rcases Tag.untagged_or_exists_tagWord htags (text_mem_words hq) with
      hu | ⟨k', name, hname, hword⟩
    · exact Tag.names_ne_nil_of_mem_spans hs (hu k)
    · obtain ⟨-, rfl⟩ := Tag.eq_of_mem_spans_tagWord hname hword hs
      have hne : (⟨markOf k, q.span⟩ : Token) ≠ ⟨.priority, c.span⟩ := by
        intro he
        have := congrArg Token.kind he
        cases k <;> cases this
      have hapart := (pairwise_markers t).forall hmem (priority_mem_markers hc) hne
      rw [Apart, overlaps_priority hc htext hstart] at hapart
      cases hapart

lemma cover_markers_of_priority :
    cover (markers t) q.start q.text = a ++ List.replicate (byteSize c.marker) ' ' ++ b := by
  have hiff : ∀ n, q.start ≤ n → n < q.stop →
      (Covers (markers t) n ↔ c.span.start ≤ n ∧ n < c.span.stop) := fun n h h' =>
    covers_markers_iff_of_priority hc hq htext hstart htags ⟨h, h'⟩
  simp only [Placed.stop, htext, Cut.span, byteSize_append, ← hstart] at hiff
  rw [htext, cover_append, cover_append, byteSize_append, ← Nat.add_assoc]
  congr 1
  · congr 1
    · exact cover_of_not_covers fun n h h' => by rw [hiff n h (by omega)]; omega
    · exact cover_of_covers fun n h h' => by rw [hiff n (by omega) (by omega)]; omega
  · exact cover_of_not_covers fun n h h' => by rw [hiff n (by omega) (by omega)]; omega

/-- On neither side of the marker its word holds a tag. -/
lemma untagged_of_priority (hname : MarkerOpensName t) : Tag.Untagged a ∧ Tag.Untagged b := by
  rcases Tag.untagged_or_exists_tagWord htags (text_mem_words hq) with
    hu | ⟨k, name, hn, hword⟩
  · rw [htext] at hu
    exact ⟨hu.of_append.1.of_append.1, hu.of_append.2⟩
  · have hopens := hname c hc k _ (Tag.span_mem_spans hq hn hword)
      (overlaps_priority hc htext hstart)
    have hone : byteSize a = 1 := by
      simp only [Cut.span, Placed.span_start] at hopens
      omega
    -- the sigil is all that stands before the marker
    rw [htext] at hword
    cases a with
    | nil => cases hone
    | cons d a =>
      rw [List.cons_append, List.cons_append, List.cons.injEq] at hword
      obtain ⟨rfl, rfl⟩ := hword
      have hsize : k.sigil.utf8Size = 1 := by cases k <;> rfl
      have ha : a = [] := by
        by_contra hne
        have := byteSize_pos hne
        rw [byteSize_cons] at hone
        omega
      subst ha
      exact ⟨Tag.untagged_sigil k, Tag.untagged_of_isTagChar fun d hd => hn.2 d (by simp [hd])⟩

/-- Covering the word has the effect of taking the marker out. -/
lemma words_cover_markers_of_priority (hname : MarkerOpensName t) :
    words (cover (markers t) q.start q.text) = Tag.cleared (words a ++ words b) := by
  obtain ⟨ha, hb⟩ := untagged_of_priority hc hq htext hstart htags hname
  have hpos := byteSize_pos (Priority.solid_marker hc).1
  rw [cover_markers_of_priority hc hq htext hstart htags,
    words_append_blanks_append (by simp; omega) fun _ => isBlank_of_mem_spaces,
    Tag.cleared_append, Tag.cleared_words_of_untagged ha, Tag.cleared_words_of_untagged hb]

end

/-! ### The whole line -/

lemma flatMap_words_cover {marks : List Token} {ps : List Placed}
    (h : ∀ p ∈ ps, words (cover marks p.start p.text) = Tag.cleared [p.text]) :
    (ps.flatMap fun p => words (cover marks p.start p.text)) = Tag.cleared (ps.map (·.text)) := by
  induction ps with
  | nil => rfl
  | cons p ps ih =>
    rw [List.flatMap_cons, h p (by simp), ih fun r hr => h r (by simp [hr]), ← Tag.cleared_append]
    rfl

/-- **Covering the markers leaves the words that taking them out leaves.** -/
theorem words_cover_markers {t : Text} (htags : ∀ k, Tag.StandApart k t)
    (hname : MarkerOpensName t) :
    words (cover (markers t) 0 t) = Tag.cleared (Priority.outOf (words t)).2 := by
  rw [words_cover]
  cases hc : Priority.find? t with
  | none =>
    rw [Priority.words_outOf_of_find?_none hc, ← map_text_placed 0 t]
    refine flatMap_words_cover fun p hp => words_cover_markers_of_word hp (fun c h => ?_) htags
    rw [hc] at h
    cases h
  | some c =>
    obtain ⟨ps, q, qs, a, b, hplaced, htext, hstart, ha, hb⟩ :=
      exists_placed_append (Priority.solid_marker hc) 0 c.before c.after
    rw [← Priority.eq_of_find? hc] at hplaced
    rw [Nat.zero_add] at hstart
    have hq : q ∈ placed 0 t := by simp [hplaced]
    have hwords : ∀ p ∈ ps ++ qs, words (cover (markers t) p.start p.text) =
        Tag.cleared [p.text] := by
      intro p hp
      -- the marker lies in `q`, which stands after the words of `ps` and before those of `qs`
      have hpq : p.stop ≤ q.start ∨ q.stop ≤ p.start := by
        have hpair := pairwise_placed 0 t
        rw [hplaced, List.pairwise_append, List.pairwise_cons] at hpair
        rcases List.mem_append.1 hp with hp | hp
        · exact .inl (hpair.2.2 p hp q (by simp))
        · exact .inr (hpair.2.1.1 p hp)
      have hp' : p ∈ placed 0 t := by
        rw [hplaced, List.mem_append, List.mem_cons]
        exact (List.mem_append.1 hp).imp_right .inr
      refine words_cover_markers_of_word hp' (fun c' h => ?_) htags
      rw [hc] at h
      cases h
      refine Span.overlaps_eq_false_iff.2 ?_
      simp only [Placed.stop, htext, byteSize_append, Cut.span, Placed.span_start,
        Placed.span_stop] at hpq ⊢
      omega
    rw [hplaced, List.flatMap_append, List.flatMap_cons,
      flatMap_words_cover fun p hp => hwords p (by simp [hp]),
      flatMap_words_cover fun p hp => hwords p (by simp [hp]),
      words_cover_markers_of_priority hc hq htext hstart htags hname,
      Priority.words_outOf_of_find? hc, ha, hb]
    simp only [Tag.cleared_append, List.append_assoc]

end Highlight

end TaskCapture
