import TaskCapture.Proofs.Capture.Parts

/-!
Which tasks come back from their line: those whose title is in parts that the line gives back, and
no others. What is taken out of the title on reading is made up for by what the line adds, and from
that the repetitions follow.
-/

namespace TaskCapture

open Text

/-- A word is longer than those that stand around its marker. -/
lemma not_mem_of_find?_levelWord {w : Text} {c : Cut Priority}
    (h : Priority.levelWord.find? false w = some c) : w ∉ words c.before ++ words c.after := by
  have hw := congrArg List.length (Pattern.eq_of_find? h)
  have hpos := List.length_pos_iff.2 (Pattern.marker_ne_nil_of_find? Priority.measured_levelWord h)
  simp only [List.length_append] at hw
  intro hmem
  rcases List.mem_append.1 hmem with hmem | hmem
  · have := length_le_of_mem_words hmem
    omega
  · have := length_le_of_mem_words hmem
    omega

namespace Task

variable {t : Task} {ref : Instant}

/-- A title without markers comes back only if what the date gives way to can be shifted past the
due words. -/
lemma exists_parts_of_unmarked (hun : ∀ w ∈ words t.title, Priority.Unmarked t.priority w)
    (htag : ∀ w ∈ words t.title, Tag.Untagged w)
    (h : Phrase.outOf ref (words t.title ++ t.due) = (t.dueDate, t.dueTime, words t.title)) :
    ∃ own rep n, t.Parts ref own rep n := by
  obtain ⟨own, block, rep, hall, hwords, hnone, hsilent⟩ := Phrase.exists_block_of_outOf h
  have hturn : rep ++ t.due = block ++ rep := by
    rw [hwords, List.append_assoc, List.append_assoc] at hall
    exact List.append_cancel_left hall
  have hrep : ∃ m, rep <:+ repeats m t.due := by
    cases hd : t.dueDate with
    | none =>
      rw [(hnone hd).2]
      exact ⟨0, List.suffix_rfl⟩
    | some d =>
      apply suffix_repeats_of_append_eq _ hturn
      simp [due, hd, dueWords]
  obtain ⟨m, hm⟩ := hrep
  refine ⟨own, rep, 0, by simpa using hwords, ⟨m, .inr hm⟩, ?_, ?_, ?_⟩
  · exact fun w hw => hun w (by rw [hwords]; simp [hw])
  · exact fun w hw => htag w (by rw [hwords]; simp [hw])
  · rw [repeats_zero, List.append_nil, hturn]
    exact hsilent

/-! ### A title with a marker

The word `g` is the first one of the title with a marker. Reading the line leaves the words `mid` of
it and takes a block out for the date, and the marker `k` of the line stays in the title. -/

section

variable {g k : Text} {us mid block post : List Text} (hk : t.marker = [k]) (hg : g ∉ t.due)
  (hun : ∀ w ∈ us, Priority.Unmarked t.priority w) (htag : ∀ w ∈ us, Tag.Untagged w)

include hk hg hun htag

/-- The date was taken out before `g`. -/
lemma exists_parts_of_block_before {b ys : List Text}
    (htitle : words t.title = us ++ b ++ g :: ys)
    (hall : b ++ mid ++ ys ++ k :: t.due = block ++ b ++ g :: ys) (hmid : g = k → mid = [])
    (hdue : t.due ≠ []) (hsilent : Phrase.Silent ref us (block ++ (b ++ g :: ys))) :
    ∃ own rep n, t.Parts ref own rep n := by
  obtain ⟨rfl, n, hn, hpre⟩ := exists_repeats_of_append_eq hall hg
  rw [hmid rfl, List.append_nil] at hpre
  obtain ⟨m, hrep⟩ := suffix_repeats_of_append_eq hdue hpre
  refine ⟨us, b, n + 1, ?_, ⟨m, .inr hrep⟩, hun, htag, ?_⟩
  · rw [htitle, hk, List.singleton_append, ← hn]
  · rw [hk, List.singleton_append, ← hn, hpre, List.append_assoc]
    exact hsilent

/-- The date was taken out after `g`, or none was. All words from `g` to the block are the
marker. -/
lemma exists_parts_of_block_after {x : List Text}
    (htitle : words t.title = us ++ (g :: x) ++ post)
    (hall : mid ++ (x ++ (post ++ k :: t.due)) = g :: (x ++ (block ++ post))) (hmid : g ∉ mid)
    (hsilent : Phrase.Silent ref (us ++ g :: x) (block ++ post)) :
    ∃ own rep n, t.Parts ref own rep n := by
  obtain rfl : mid = [] := by
    cases mid with
    | nil => rfl
    | cons v mid =>
      simp only [List.cons_append, List.cons.injEq] at hall
      rw [hall.1] at hmid
      simp at hmid
  rw [List.nil_append] at hall
  obtain ⟨hx, hpost⟩ := eq_of_append_eq_cons_append hall
  have hparts : ∀ n, g = k → block = t.due → post = repeats n (t.marker ++ t.due) →
      t.Parts ref us (g :: x) n := by
    rintro n rfl rfl rfl
    refine ⟨htitle, ⟨x.length + 1, .inl ?_⟩, hun, htag, ?_⟩
    · rw [hk, repeats_singleton, List.replicate_succ, ← List.eq_replicate_of_mem hx]
    · rw [List.append_assoc]
      exact (Phrase.silent_append_iff.1 hsilent).1
  cases post with
  | nil =>
    obtain ⟨hkg, hblock⟩ : k = g ∧ t.due = block := by simpa using hpost
    exact ⟨us, g :: x, 0, hparts 0 hkg.symm hblock.symm rfl⟩
  | cons v post =>
    simp only [List.cons_append, List.cons.injEq] at hpost
    obtain ⟨rfl, hpost⟩ := hpost
    have hshift : [] ++ [] ++ post ++ k :: t.due = block ++ [] ++ v :: post := by simpa using hpost
    obtain ⟨rfl, n, hn, hpre⟩ := exists_repeats_of_append_eq hshift hg
    refine ⟨us, v :: x, n + 1, hparts (n + 1) rfl (by simpa using hpre.symm) ?_⟩
    rw [hk, List.singleton_append, ← hn]

end

lemma exists_parts_of_marked (ht : t.WellFormed) {p : Priority} (hp : t.priority = some p)
    {us ys : List Text} {g : Text} {c : Cut Priority} (htitle : words t.title = us ++ g :: ys)
    (hun : ∀ u ∈ us, Priority.levelWord.find? false u = none)
    (hg : Priority.levelWord.find? false g = some c) (htag : ∀ w ∈ us, Tag.Untagged w)
    (h : Phrase.outOf ref (us ++ (words c.before ++ words c.after) ++ ys ++
        ('!' :: p.keyword.toList) :: t.due) = (t.dueDate, t.dueTime, words t.title)) :
    ∃ own rep n, t.Parts ref own rep n := by
  have hk : t.marker = ['!' :: p.keyword.toList] := by rw [marker, hp, markerWords]
  have hgdue : g ∉ t.due := by
    intro hmem
    have hnone : Priority.levelWord.find? false g = none := ht.unmarked_of_mem_due (some p) hmem
    rw [hg] at hnone
    cases hnone
  have hun' : ∀ w ∈ us, Priority.Unmarked t.priority w := by
    rw [hp]
    exact hun
  have haround := not_mem_of_find?_levelWord hg
  -- of the marker of the line nothing is left
  have hmid : g = '!' :: p.keyword.toList → words c.before ++ words c.after = [] := by
    rintro rfl
    rw [find?_markerWord] at hg
    cases hg
    rfl
  generalize words c.before ++ words c.after = mid at haround hmid h
  obtain ⟨pre, block, post, hall, hwords, hnone, hsilent⟩ := Phrase.exists_block_of_outOf h
  rw [htitle] at hwords
  rcases le_or_gt pre.length us.length with hl | hl
  · obtain ⟨b, rfl, rfl⟩ := exists_of_append_eq_append hwords.symm hl
    have hdue : t.due ≠ [] := by
      cases hd : t.dueDate with
      | none => simpa using (hnone hd).2
      | some d => simp [due, hd, dueWords]
    refine exists_parts_of_block_before hk hgdue (fun w hw => hun' w (by simp [hw]))
      (fun w hw => htag w (by simp [hw])) htitle ?_ hmid hdue hsilent
    simp only [List.append_assoc] at hall ⊢
    exact List.append_cancel_left hall
  · obtain ⟨x, rfl, hx⟩ := exists_of_append_eq_append hwords hl.le
    cases x with
    | nil => simp at hl
    | cons a x =>
      simp only [List.cons_append, List.cons.injEq] at hx
      obtain ⟨rfl, rfl⟩ := hx
      refine exists_parts_of_block_after hk hgdue hun' htag (by simpa using htitle) ?_ haround
        hsilent
      simp only [List.append_assoc, List.cons_append] at hall ⊢
      exact List.append_cancel_left hall

/-- The words before the tags, where the title has a marker of its own. -/
lemma outOf_line_of_marked (ht : t.WellFormed) {p : Priority} (hp : t.priority = some p)
    {us ys : List Text} {g : Text} {c : Cut Priority} (htitle : words t.title = us ++ g :: ys)
    (hun : ∀ u ∈ us, Priority.levelWord.find? false u = none)
    (hg : Priority.levelWord.find? false g = some c) :
    Priority.outOf (words t.line) = (some c.value,
      us ++ (words c.before ++ words c.after) ++ ys ++ ['!' :: p.keyword.toList] ++
        t.tagsAndDue) := by
  have hk : t.marker = ['!' :: p.keyword.toList] := by rw [marker, hp, markerWords]
  apply Priority.outOf_of_levelWord
  rw [Pattern.takeOut_eq_some_iff]
  refine ⟨us, g, c, ys ++ (t.marker ++ t.tagsAndDue), ?_, hun, hg, rfl, ?_⟩
  · rw [ht.words_line, htitle]
    simp
  · rw [hk]
    simp

theorem exists_parts_of_gistOf_line (ht : t.WellFormed) (h : gistOf ref (words t.line) = t.gist) :
    ∃ own rep n, t.Parts ref own rep n := by
  have hsolid : ∀ w ∈ words t.title, Solid w := fun w hw => solid_of_mem_words hw
  by_cases hun : ∀ w ∈ words t.title, Priority.Unmarked t.priority w
  · have hout : Priority.outOf (words t.line) = (t.priority, words t.title ++ t.tagsAndDue) := by
      rw [ht.words_line, ← List.append_assoc]
      apply Priority.outOf_append_markerWords hun
      intro hp w hw
      exact hp ▸ (ht.mem_tagsAndDue hw).2
    obtain ⟨-, htag, hphrase⟩ := (ht.gistOf_eq_gist_iff hsolid hout).1 h
    exact exists_parts_of_unmarked hun htag hphrase
  · cases hp : t.priority with
    | none =>
      -- a marker in the title would have been found
      have hnone : (Priority.outOf (words t.line)).1 = none :=
        (congrArg Gist.priority h).trans hp
      rw [Priority.fst_outOf_eq_none_iff, ht.words_line] at hnone
      rw [hp] at hun
      exact absurd (fun w hw => hnone w (List.mem_append_left _ hw)) hun
    | some p =>
      have hne : Priority.levelWord.takeOut (words t.title) ≠ none := by
        rw [hp] at hun
        rwa [Ne, Pattern.takeOut_eq_none_iff]
      obtain ⟨⟨q, vs⟩, hq⟩ := Option.ne_none_iff_exists'.1 hne
      obtain ⟨us, g, c, ys, htitle, hus, hg, -, -⟩ := Pattern.takeOut_eq_some_iff.1 hq
      have hv : ∀ w ∈ us ++ (words c.before ++ words c.after) ++ ys ++ ['!' :: p.keyword.toList],
          Solid w := by
        simp only [List.mem_append, List.mem_singleton]
        rintro w (((hw | hw | hw) | hw) | rfl)
        · exact hsolid w (by rw [htitle]; simp [hw])
        · exact solid_of_mem_words hw
        · exact solid_of_mem_words hw
        · exact hsolid w (by rw [htitle]; simp [hw])
        · exact solid_of_mem_markerWords (p := some p) (by simp [markerWords])
      obtain ⟨-, htag, hphrase⟩ :=
        (ht.gistOf_eq_gist_iff hv (outOf_line_of_marked ht hp htitle hus hg)).1 h
      apply exists_parts_of_marked ht hp htitle hus hg
      · exact fun w hw => htag w (by simp [hw])
      · rwa [List.append_assoc, List.singleton_append] at hphrase

/-- **A task comes back from its line exactly if its title is recapturable.** -/
theorem WellFormed.interpret_line_eq_iff_recapturable (ht : t.WellFormed) (ref : Instant) :
    interpret Resolver.english ref t.line = { t with rawInput := t.line } ↔ t.Recapturable ref := by
  rw [ht.interpret_line_eq_iff]
  refine and_congr_right fun _ => ⟨exists_parts_of_gistOf_line ht, ?_⟩
  rintro ⟨own, rep, n, h⟩
  exact h.gistOf_line ht

end Task

end TaskCapture
