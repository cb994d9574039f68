import TaskCapture.Proofs.Capture.WrittenLine

/-!
Titles that come back. The words of such a title are first some that hold nothing to be found, then
perhaps repetitions: of the marker, of the due words or of both in turn. Reading the line takes one
marker and one date out of the title, and the line has put one of each after it.
-/

namespace TaskCapture

open Text

namespace Phrase

/-- **Due words are read as the due date**, also when the time stands first. Where no time is
written, none may follow. -/
theorem exists_reading?_dueWords (ref : Instant) {d : Date} {s : Option Text} (hs : IsTime s)
    {a b ws : List Text} (hab : dueWords (some d) s = a ++ b)
    (hws : s = none → clock? (ws.map norm) = none) :
    ∃ r, reading? ref ((b ++ a ++ ws).map norm) = some r ∧ r.used = (b ++ a).length ∧
      r.instant.date = d ∧ (if r.hasTime then some r.instant.time.text else none) = s := by
  cases s with
  | none =>
    have hba : b ++ a = [d.text] := by
      rcases List.append_eq_singleton_iff.1 hab.symm with ⟨rfl, rfl⟩ | ⟨rfl, rfl⟩ <;> rfl
    refine ⟨⟨⟨d, .midnight⟩, false, 1⟩, ?_, by simp [hba], rfl, rfl⟩
    rw [hba, List.singleton_append, List.map_cons, norm_dateText]
    exact reading?_dateText ref d (hws rfl)
  | some w =>
    obtain ⟨c, rfl⟩ := hs w rfl
    have hba : b ++ a = [d.text, c.text] ∨ b ++ a = [c.text, d.text] := by
      match a, b, hab with
      | [], b, hab => exact .inl (by simpa [dueWords] using hab.symm)
      | [x], b, hab =>
        simp only [dueWords, Option.toList_some, List.singleton_append, List.cons.injEq] at hab
        obtain ⟨rfl, rfl⟩ := hab
        exact .inr rfl
      | [x, y], b, hab =>
        simp only [dueWords, Option.toList_some, List.cons_append, List.nil_append,
          List.cons.injEq] at hab
        obtain ⟨rfl, rfl, rfl⟩ := hab
        exact .inl rfl
      | x :: y :: z :: a, b, hab => simp [dueWords] at hab
    refine ⟨⟨⟨d, c.toMinute⟩, true, 2⟩, ?_, by rcases hba with h | h <;> simp [h], rfl, rfl⟩
    rcases hba with h | h
    · simp only [h, List.cons_append, List.nil_append, List.map_cons, norm_dateText, norm_clockText]
      exact reading?_dateText_clockText ref d c _
    · simp only [h, List.cons_append, List.nil_append, List.map_cons, norm_dateText, norm_clockText]
      exact reading?_clockText_dateText ref d c _

/-- Neither a marker nor a date begins with a time. -/
lemma clock?_eq_none {p : Option Priority} {d : Option Date} {ws : List Text}
    (h : ∀ w ∈ ws, w ∈ markerWords p ++ dueWords d none) : clock? (ws.map norm) = none := by
  cases ws with
  | nil => rfl
  | cons w ws =>
    rcases List.mem_append.1 (h w (by simp)) with hw | hw
    · cases p with
      | none => simp [markerWords] at hw
      | some p =>
        obtain rfl := List.mem_singleton.1 hw
        rw [List.map_cons, norm_marker]
        exact clock?_marker p _
    · cases d with
      | none => simp [dueWords] at hw
      | some d =>
        obtain rfl := List.mem_singleton.1 hw
        rw [List.map_cons, norm_dateText]
        exact clock?_dateText d _

lemma silent_of_markerWords {ref : Instant} {p : Option Priority} {us ws : List Text}
    (h : ∀ w ∈ us, w ∈ markerWords p) : Silent ref us ws := by
  intro v hv hs
  obtain ⟨w, v', rfl⟩ := List.exists_cons_of_ne_nil hv
  have hw := h w (hs.subset (by simp))
  cases p with
  | none => simp [markerWords] at hw
  | some p =>
    obtain rfl := List.mem_singleton.1 hw
    rw [List.cons_append, List.map_cons, norm_marker]
    exact reading?_marker ref p _

end Phrase

namespace Task

variable {t : Task} {ref : Instant}

/-- The words of a title that comes back: words of its own, which hold no marker, no tag and no
phrase, and then repetitions of what the line adds. The first of them are an end of the marker or of
the due words, gone through over and over; after them both come in turn. -/
structure Parts (ref : Instant) (t : Task) (own rep : List Text) (n : ℕ) : Prop where
  words_eq : words t.title = own ++ rep ++ repeats n (t.marker ++ t.due)
  rep_suffix : ∃ m, rep <:+ repeats m t.marker ∨ rep <:+ repeats m t.due
  unmarked : ∀ w ∈ own, Priority.Unmarked t.priority w
  untagged : ∀ w ∈ own, Tag.Untagged w
  silent : Phrase.Silent ref own (rep ++ t.due ++ repeats n (t.marker ++ t.due))

/-- A task whose title is collapsed and in parts that the line gives back. -/
def Recapturable (ref : Instant) (t : Task) : Prop :=
  collapse t.title = t.title ∧ ∃ own rep n, t.Parts ref own rep n

namespace Parts

variable {own rep : List Text} {n : ℕ} (h : t.Parts ref own rep n)

include h

lemma mem_of_mem_rep {w : Text} (hw : w ∈ rep) : w ∈ t.marker ++ t.due := by
  obtain ⟨m, hm | hm⟩ := h.rep_suffix
  · exact List.mem_append_left _ (mem_of_mem_repeats (hm.subset hw))
  · exact List.mem_append_right _ (mem_of_mem_repeats (hm.subset hw))

/-- A marker after the first repetitions is found among them or at their end. -/
lemma exists_marker_first (ht : t.WellFormed) :
    ∃ us vs, rep = us ++ vs ∧ rep ++ t.marker = us ++ t.marker ++ vs ∧
      ∀ w ∈ us, Priority.Unmarked t.priority w := by
  obtain ⟨m, hm | hm⟩ := h.rep_suffix
  · obtain ⟨a, b, hab, hturn⟩ := exists_append_eq_of_suffix_repeats hm
    have hba : b ++ a = t.marker := by
      unfold marker at hab ⊢
      cases hp : t.priority with
      | none => simpa [hp, markerWords, and_comm] using hab
      | some p =>
        rw [hp, markerWords] at hab
        rcases List.append_eq_singleton_iff.1 hab.symm with ⟨rfl, rfl⟩ | ⟨rfl, rfl⟩ <;> rfl
    refine ⟨[], rep, rfl, ?_, by simp⟩
    rw [hturn, hba]
    rfl
  · refine ⟨rep, [], by simp, by simp, fun w hw => ?_⟩
    exact ht.unmarked_of_mem_due _ (mem_of_mem_repeats (hm.subset hw))

/-- A date after the first repetitions is found among them or at their end, cut somewhere in two. -/
lemma exists_due_first :
    ∃ us a b vs, rep = us ++ vs ∧ rep ++ t.due = us ++ (b ++ a) ++ vs ∧ t.due = a ++ b ∧
      ∀ w ∈ us, w ∈ t.marker := by
  obtain ⟨m, hm | hm⟩ := h.rep_suffix
  · exact ⟨rep, t.due, [], [], by simp, by simp, by simp,
      fun w hw => mem_of_mem_repeats (hm.subset hw)⟩
  · obtain ⟨a, b, hab, hturn⟩ := exists_append_eq_of_suffix_repeats hm
    exact ⟨[], a, b, rep, rfl, hturn, hab, by simp⟩

/-- The words before the tags, once the marker has been taken out. -/
lemma outOf_line (ht : t.WellFormed) :
    Priority.outOf (words t.line) =
      (t.priority, own ++ rep ++ repeats n (t.due ++ t.marker) ++ t.tagsAndDue) := by
  obtain ⟨us, vs, hrep, hmove, hus⟩ := h.exists_marker_first ht
  have hline : words t.line = own ++ us ++ t.marker ++
      (vs ++ repeats n (t.due ++ t.marker) ++ t.tagsAndDue) := by
    calc words t.line = words t.title ++ (t.marker ++ t.tagsAndDue) := ht.words_line
      _ = own ++ rep ++ (repeats n (t.marker ++ t.due) ++ t.marker) ++ t.tagsAndDue := by
          rw [h.words_eq]
          simp only [List.append_assoc]
      _ = own ++ (rep ++ t.marker) ++ repeats n (t.due ++ t.marker) ++ t.tagsAndDue := by
          rw [repeats_append_comm]
          simp only [List.append_assoc]
      _ = _ := by
          rw [hmove]
          simp only [List.append_assoc]
  rw [hline]
  refine (Priority.outOf_append_markerWords (p := t.priority) ?_ ?_).trans ?_
  · intro w hw
    rcases List.mem_append.1 hw with hw | hw
    · exact h.unmarked w hw
    · exact hus w hw
  · intro hp w hw
    -- without a priority only due words are repeated
    have hadded : ∀ w ∈ t.marker ++ t.due, Priority.Unmarked none w := by
      intro w hw
      rw [marker, hp, markerWords, List.nil_append] at hw
      exact ht.unmarked_of_mem_due none hw
    rcases List.mem_append.1 hw with hw | hw
    · rcases List.mem_append.1 hw with hw | hw
      · exact hadded w (h.mem_of_mem_rep (by rw [hrep]; exact List.mem_append_right _ hw))
      · exact hadded w (by simpa [or_comm] using mem_of_mem_repeats hw)
    · exact hp ▸ (ht.mem_tagsAndDue hw).2
  · rw [hrep]
    simp only [List.append_assoc]

/-- Without a due date no phrase begins in the title. -/
lemma outOf_title_of_none (hd : t.dueDate = none) :
    Phrase.outOf ref (words t.title) = (none, none, words t.title) := by
  have hdue : t.due = [] := by rw [due, hd, dueWords]
  have hs := h.silent
  rw [hdue, List.append_nil, List.append_nil] at hs
  have hnone : Phrase.inWords? ref (words t.title) = none := by
    rw [Phrase.inWords?_eq_none_iff, h.words_eq, hdue, List.append_nil, List.append_assoc,
      Phrase.silent_append_iff, List.append_nil]
    refine ⟨hs, Phrase.silent_of_markerWords (p := t.priority) fun w hw => ?_⟩
    rcases List.mem_append.1 hw with hw | hw
    · have := h.mem_of_mem_rep hw
      rwa [hdue, List.append_nil] at this
    · exact mem_of_mem_repeats hw
  rw [Phrase.outOf, hnone]

/-- The date that is found stands before the repetitions of the due words or among them. -/
lemma outOf_title (ht : t.WellFormed) :
    Phrase.outOf ref (own ++ rep ++ repeats n (t.due ++ t.marker) ++ t.due) =
      (t.dueDate, t.dueTime, words t.title) := by
  cases hd : t.dueDate with
  | none =>
    have hdue : t.due = [] := by rw [due, hd, dueWords]
    have htitle := h.outOf_title_of_none hd
    rw [h.words_eq, hdue, List.append_nil] at htitle
    rw [h.words_eq, hdue, List.nil_append, List.append_nil, List.append_nil,
      ht.dueTime_of_dueDate hd, htitle]
  | some d =>
    obtain ⟨us, a, b, vs, hrep, hmove, hab, hus⟩ := h.exists_due_first
    have hdue : t.due = dueWords (some d) t.dueTime := by rw [due, hd]
    have hafter : t.dueTime = none → Phrase.clock?
        ((vs ++ repeats n (t.marker ++ t.due)).map Phrase.norm) = none := by
      intro hs
      refine Phrase.clock?_eq_none (p := t.priority) (d := some d) fun w hw => ?_
      rw [← hs, ← hdue]
      rcases List.mem_append.1 hw with hw | hw
      · exact h.mem_of_mem_rep (by rw [hrep]; exact List.mem_append_right _ hw)
      · exact mem_of_mem_repeats hw
    obtain ⟨r, hr, hu, hdate, htime⟩ :=
      Phrase.exists_reading?_dueWords ref ht.isTime (hdue ▸ hab) hafter
    have hs := h.silent
    rw [hmove] at hs
    have hsilent : Phrase.Silent ref (own ++ us)
        (b ++ a ++ (vs ++ repeats n (t.marker ++ t.due))) := by
      rw [Phrase.silent_append_iff]
      refine ⟨?_, Phrase.silent_of_markerWords (p := t.priority) hus⟩
      simpa only [List.append_assoc] using hs
    have hcut : own ++ rep ++ repeats n (t.due ++ t.marker) ++ t.due =
        own ++ us ++ (b ++ a) ++ (vs ++ repeats n (t.marker ++ t.due)) := by
      calc own ++ rep ++ repeats n (t.due ++ t.marker) ++ t.due
          = own ++ (rep ++ t.due) ++ repeats n (t.marker ++ t.due) := by
            rw [List.append_assoc, repeats_append_comm]
            simp only [List.append_assoc]
        _ = _ := by
            rw [hmove]
            simp only [List.append_assoc]
    rw [hcut, Phrase.outOf_of_block hsilent hr hu, hdate, htime, h.words_eq, hrep]
    simp only [List.append_assoc]

/-- **A title in parts comes back.** -/
theorem gistOf_line (ht : t.WellFormed) : gistOf ref (words t.line) = t.gist := by
  have hadded : ∀ w ∈ t.marker ++ t.due, Solid w ∧ Tag.Untagged w := by
    intro w hw
    rcases List.mem_append.1 hw with hw | hw
    · exact ⟨solid_of_mem_markerWords hw,
        Tag.untagged_of_not_mem fun k => sigil_not_mem_markerWords k hw⟩
    · exact ⟨ht.solid_of_mem_due hw,
        Tag.untagged_of_not_mem fun k => ht.sigil_not_mem_of_mem_due k hw⟩
  have hwords : ∀ w ∈ own ++ rep ++ repeats n (t.due ++ t.marker), Solid w ∧ Tag.Untagged w := by
    intro w hw
    rcases List.mem_append.1 hw with hw | hw
    · rcases List.mem_append.1 hw with hw | hw
      · refine ⟨solid_of_mem_words (t := t.title) ?_, h.untagged w hw⟩
        rw [h.words_eq]
        simp [hw]
      · exact hadded w (h.mem_of_mem_rep hw)
    · exact hadded w (by simpa [or_comm] using mem_of_mem_repeats hw)
  rw [ht.gistOf_eq_gist_iff (fun w hw => (hwords w hw).1) (h.outOf_line ht)]
  exact ⟨rfl, fun w hw => (hwords w hw).2, h.outOf_title ht⟩

end Parts

end Task

end TaskCapture
