import TaskCapture.Proofs.Recurrence.Schedule

/-!
A rule keeps the order of dates: from an earlier day on it never falls due later, and it falls due
wherever it does from a later one. Step by step this carries over to the runs of dates.
-/

namespace TaskCapture

open Calendar

namespace Instant

lemma le_of_date_le {i j : Instant} (hd : i.date ≤ j.date)
    (ht : i.time.toSeconds ≤ j.time.toSeconds) : i ≤ j := by
  rw [Date.le_def] at hd
  rw [le_def, toSeconds, toSeconds]
  omega

end Instant

namespace Rule

variable {r : Rule} {d e : Date}

lemma DueOn.mono {n m : ℤ} (hn : r.DueOn d n) (hm : r.DueOn e m) (h : d ≤ e) : n ≤ m := by
  have hdays := Date.le_def.1 h
  unfold DueOn at hn hm
  cases hf : r.frequency with
  | daily =>
    simp only [hf] at hn hm
    omega
  | weekly =>
    simp only [hf] at hn hm
    split_ifs at hn hm with hnil
    · omega
    · -- what is selected after the later day is selected after the earlier one
      exact hn.2 ⟨hdays.trans_lt hm.1.1, hm.1.2⟩
  | monthly =>
    simp only [hf] at hn hm
    exact hn.mono hm h
  | yearly =>
    simp only [hf] at hn hm
    exact hn.mono hm h

lemma OutOfReach.mono {n m : ℤ} (hn : r.OutOfReach n) (h : n ≤ m) : r.OutOfReach m :=
  hn.imp (fun hlt => hlt.trans_le h) fun ⟨hm, hlt⟩ => ⟨hm, hlt.trans_le h⟩

/-- One step keeps the order. -/
lemma exists_nextDate?_le (hr : ∀ k ∈ r.days.getD [], k ≤ 6) (h : d ≤ e) {e' : Date}
    (he : r.nextDate? e = some e') : ∃ d', r.nextDate? d = some d' ∧ d' ≤ e' := by
  obtain ⟨hdue, hreach⟩ := (nextDate?_eq_some_iff hr).1 he
  obtain ⟨n, hn⟩ := exists_dueOn hr d
  have hle : n ≤ e'.toDays := hn.mono hdue h
  cases hd : r.nextDate? d with
  | none => exact absurd (((nextDate?_eq_none_iff hr hn).1 hd).mono hle) hreach
  | some d' =>
    have hdn := ((nextDate?_eq_some_iff hr).1 hd).1.unique hr hn
    exact ⟨d', rfl, Date.le_def.2 (hdn ▸ hle)⟩

/-- A whole run keeps the order, and the times of day. -/
lemma exists_getElem?_occurrences_le (hr : ∀ k ∈ r.days.getD [], k ≤ 6) {n k : ℕ}
    {i j j' : Instant} (h : i.date ≤ j.date) (hj : (r.occurrences n j)[k]? = some j') :
    ∃ i', (r.occurrences n i)[k]? = some i' ∧ i'.date ≤ j'.date ∧ i'.time = i.time ∧
      j'.time = j.time := by
  induction n generalizing k i j with
  | zero => simp at hj
  | succ n ih =>
    cases hnext : r.next? j with
    | none => simp [occurrences_succ_of_none hnext] at hj
    | some l =>
      obtain ⟨hdate, htime⟩ := next?_eq_some_iff.1 hnext
      obtain ⟨d, hd, hle⟩ := exists_nextDate?_le hr h hdate
      have hi : r.next? i = some ⟨d, i.time⟩ := next?_eq_some_iff.2 ⟨hd, rfl⟩
      rw [occurrences_succ_of_some hnext] at hj
      rw [occurrences_succ_of_some hi]
      cases k with
      | zero =>
        rw [List.getElem?_cons_zero, Option.some.injEq] at hj
        subst hj
        exact ⟨_, rfl, hle, rfl, htime⟩
      | succ k =>
        rw [List.getElem?_cons_succ] at hj ⊢
        rw [← htime]
        exact ih hle hj

/-- **Rescheduling keeps the order of dates.** Where a rule has a date after a day, it has one after
every earlier day, and that is no later; and so have the runs of dates from the two days on, at each
of their places. The times of day may differ, and where the time of the earlier day is not later
either, the instants are in order, too. -/
theorem nextDate?_mono (hr : ∀ k ∈ r.days.getD [], k ≤ 6) (h : d ≤ e) :
    (∀ e', r.nextDate? e = some e' → ∃ d', r.nextDate? d = some d' ∧ d' ≤ e') ∧
    ∀ (t u : Clock) (n k : ℕ) (j : Instant), (r.occurrences n ⟨e, u⟩)[k]? = some j →
      ∃ i, (r.occurrences n ⟨d, t⟩)[k]? = some i ∧ i.date ≤ j.date ∧
        (t.toSeconds ≤ u.toSeconds → i ≤ j) := by
  refine ⟨fun e' he => exists_nextDate?_le hr h he, fun t u n k j hj => ?_⟩
  obtain ⟨i, hi, hdate, hit, hjt⟩ :=
    exists_getElem?_occurrences_le hr (i := ⟨d, t⟩) (j := ⟨e, u⟩) h hj
  exact ⟨i, hi, hdate, fun htime => Instant.le_of_date_le hdate (by rwa [hit, hjt])⟩

/-- From 29 and from 31 January a monthly rule comes to the same last day of February, and goes on
from there. -/
theorem nextDate?_mono_of_january :
    let r : Rule := ⟨.monthly, none⟩
    let d : Date := ⟨2023, 1, 29, by decide, by decide, by decide, by decide⟩
    let e : Date := ⟨2023, 1, 31, by decide, by decide, by decide, by decide⟩
    let f : Date := ⟨2023, 2, 28, by decide, by decide, by decide, by decide⟩
    let j : Instant := ⟨⟨2023, 3, 28, by decide, by decide, by decide, by decide⟩, .noon⟩
    (∀ k ∈ r.days.getD [], k ≤ 6) ∧ d ≤ e ∧
      r.nextDate? e = some f ∧ (∃ d', r.nextDate? d = some d' ∧ d' ≤ f) ∧
      (r.occurrences 2 ⟨e, .noon⟩)[1]? = some j ∧
      ∃ i, (r.occurrences 2 ⟨d, .noon⟩)[1]? = some i ∧ i ≤ j := by
  intro r d e f j
  have hr : ∀ k ∈ r.days.getD [], k ≤ 6 := by decide
  have hde : d ≤ e := by decide
  have he : r.nextDate? e = some f := by decide +kernel
  have hj : (r.occurrences 2 ⟨e, .noon⟩)[1]? = some j := by decide +kernel
  obtain ⟨hnext, hrun⟩ := nextDate?_mono hr hde
  obtain ⟨i, hi, -, hle⟩ := hrun .noon .noon 2 1 j hj
  exact ⟨hr, hde, he, hnext f he, hj, i, hi, hle le_rfl⟩

end Rule

end TaskCapture
