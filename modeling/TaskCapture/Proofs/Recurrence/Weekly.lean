import TaskCapture.Proofs.Recurrence.Schedule

/-!
The schedule of a weekly rule: every selected day after the start, each once and in order, up to
the end of the calendar. Without days the rule selects every seventh day from the start on.
-/

namespace TaskCapture.Rule

/-- A weekly rule begun on day `d` selects day `n`. -/
def Selects (r : Rule) (d n : ℤ) : Prop :=
  if r.days.getD [] = [] then 7 ∣ n - d else (n % 7).toNat ∈ r.days.getD []

/-- A start moved to a selected day selects the same days. -/
lemma selects_iff_of_selects {r : Rule} {d e n : ℤ} (h : r.Selects d e) :
    r.Selects e n ↔ r.Selects d n := by
  unfold Selects at *
  split_ifs at * with hnil
  · omega
  · rfl

/-- A weekly rule falls due on the first selected day. -/
lemma dueOn_iff_isLeast {r : Rule} (hw : r.frequency = .weekly) {d : Date} {n : ℤ} :
    r.DueOn d n ↔ IsLeast {k | d.toDays < k ∧ r.Selects d.toDays k} n := by
  simp only [DueOn, hw, Selects]
  split_ifs with hnil
  · have hl : IsLeast {k : ℤ | d.toDays < k ∧ 7 ∣ k - d.toDays} (d.toDays + 7) := by
      refine ⟨⟨by omega, by omega⟩, ?_⟩
      rintro k ⟨h1, h2⟩
      omega
    exact ⟨fun h => h ▸ hl, fun h => h.unique hl⟩
  · rfl

section

variable {r : Rule} (hw : r.frequency = .weekly) (hr : ∀ k ∈ r.days.getD [], k ≤ 6)

include hw hr

/-- One step of the schedule: nothing is selected on the way to the next instant, and where there
is none nothing is selected at all. -/
lemma next?_weekly (i : Instant) :
    match r.next? i with
    | none => ∀ e : Date, i.date < e → ¬ r.Selects i.date.toDays e.toDays
    | some j => j.time = i.time ∧ r.Selects i.date.toDays j.date.toDays ∧
        ∀ e : Date, i.date < e → r.Selects i.date.toDays e.toDays → j.date.toDays ≤ e.toDays := by
  have hm : ¬ r.ByMonths := by simp [ByMonths, hw]
  split
  · next h =>
    obtain ⟨n, hn⟩ := exists_dueOn hr i.date
    have hout := (nextDate?_eq_none_iff hr hn).1 (by simpa [next?] using h)
    rw [outOfReach_iff_of_not_byMonths hm] at hout
    intro e hlt hsel
    have := ((dueOn_iff_isLeast hw).1 hn).2 ⟨hlt, hsel⟩
    have := e.le_last
    omega
  · next j h =>
    obtain ⟨hj, ht⟩ := next?_eq_some_iff.1 h
    obtain ⟨hmem, hleast⟩ := (dueOn_iff_isLeast hw).1 ((nextDate?_eq_some_iff hr).1 hj).1
    exact ⟨ht, hmem.2, fun e hlt hsel => hleast ⟨hlt, hsel⟩⟩

lemma mem_schedule_weekly {i j : Instant} :
    j ∈ r.schedule i ↔
      i.date < j.date ∧ j.time = i.time ∧ r.Selects i.date.toDays j.date.toDays := by
  induction i using schedule_induction (r := r) with
  | none i hi =>
    have hstep := next?_weekly hw hr i
    simp only [hi] at hstep
    simp only [schedule_of_none hi, List.not_mem_nil, false_iff]
    rintro ⟨hlt, -, hsel⟩
    exact hstep _ hlt hsel
  | some i k hk ih =>
    have hstep := next?_weekly hw hr i
    simp only [hk] at hstep
    obtain ⟨ht, hsel, hleast⟩ := hstep
    have hik := lt_of_next? hk
    rw [schedule_of_some hk, List.mem_cons, ih, selects_iff_of_selects hsel, ht]
    constructor
    · rintro (rfl | ⟨hlt, hjt, hj⟩)
      · exact ⟨hik, ht, hsel⟩
      · exact ⟨hik.trans hlt, hjt, hj⟩
    · rintro ⟨hlt, hjt, hj⟩
      rcases (hleast _ hlt hj).lt_or_eq with hlt | heq
      · exact Or.inr ⟨hlt, hjt, hj⟩
      · left
        obtain ⟨d, t⟩ := j
        obtain ⟨d', t'⟩ := k
        simp only at ht hjt heq
        rw [ht, hjt, Date.toDays_injective heq]

end

/-- **A weekly rule misses no selected day and repeats none.** All runs are first parts of one
list in ascending order, which holds the selected days after the start, at the start's time. -/
theorem weekly_schedule {r : Rule} (hw : r.frequency = .weekly) (hr : ∀ k ∈ r.days.getD [], k ≤ 6)
    (i : Instant) :
    (∀ n, r.occurrences n i = (r.schedule i).take n) ∧
      (r.schedule i).Pairwise (fun j k => j.date < k.date) ∧
      ∀ j, j ∈ r.schedule i ↔ i.date < j.date ∧ j.time = i.time ∧
        if r.days.getD [] = [] then 7 ∣ j.date.toDays - i.date.toDays
        else (j.date.weekday : ℕ) ∈ r.days.getD [] :=
  ⟨fun n => occurrences_eq_take r n i, pairwise_schedule r i, fun _ => mem_schedule_weekly hw hr⟩

/-- Fridays and Mondays, from noon of a Wednesday on. -/
theorem weekly_schedule_of_friday_and_monday :
    let r : Rule := ⟨.weekly, some [5, 1, 5]⟩
    let i : Instant := ⟨⟨2025, 3, 5, by decide, by decide, by decide, by decide⟩, .noon⟩
    r.frequency = .weekly ∧ (∀ k ∈ r.days.getD [], k ≤ 6) ∧
      (∀ n, r.occurrences n i = (r.schedule i).take n) ∧
      (r.schedule i).Pairwise (fun j k => j.date < k.date) ∧
      ∀ j, j ∈ r.schedule i ↔ i.date < j.date ∧ j.time = i.time ∧
        if r.days.getD [] = [] then 7 ∣ j.date.toDays - i.date.toDays
        else (j.date.weekday : ℕ) ∈ r.days.getD [] :=
  ⟨rfl, by decide, weekly_schedule rfl (by decide) _⟩

end TaskCapture.Rule
