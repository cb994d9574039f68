import TaskCapture.Proofs.Recurrence.Schedule

/-!
Runs make progress: every instant is later than the one before it, at the same time of day, so a run
repeats nothing and the days left bound its length. How far one date lies after another is settled
by the frequency, as long as every day of the rule has a name.
-/

namespace TaskCapture

open Calendar

namespace Instant

/-- A later day comes later, whatever the time. -/
lemma lt_of_toDays_lt {i j : Instant} (h : i.date.toDays < j.date.toDays) : i < j := by
  have hi := i.time.toSeconds_lt
  have hj := j.time.toSeconds_lt
  rw [lt_def]
  unfold toSeconds
  omega

instance : IsStrictOrder Instant (· < ·) where
  irrefl i := lt_irrefl i.toSeconds
  trans _ _ _ := Int.lt_trans

end Instant

namespace Date

/-- One month on, a date lies a month's length later, or less where the day has been cut. -/
lemma MonthsBefore.sub_mem_of_one {d : Date} {n : ℤ} (h : d.MonthsBefore 1 n) :
    28 ≤ n - d.toDays ∧ n - d.toDays ≤ 31 := by
  obtain ⟨z, k, hk, hk', hn, rfl⟩ := h
  have hd := d.month_mem
  have hstart := daysBefore_next_month hd.2 hk hk' (by unfold monthNumber at hn; omega)
  have hlen := le_monthLength (y := d.year) hd.1 hd.2
  have hlen' := monthLength_le d.year d.month
  have hnext := le_monthLength (y := z) hk hk'
  have hday := d.day_le
  unfold toDays
  omega

/-- Two leap years never follow each other. -/
lemma isLeap_succ {y : ℤ} (h : isLeap y = true) : isLeap (y + 1) = false := by
  simp only [isLeap, Bool.and_eq_true, decide_eq_true_eq] at h
  have hne : ¬ (y + 1) % 4 = 0 := by omega
  simp [isLeap, hne]

/-- The leap day counts for the months after February. -/
lemma daysBeforeMonth_add_leap (y z : ℤ) {m : ℕ} (h : m ≤ 12) :
    daysBeforeMonth y m + (if 2 < m ∧ isLeap z then 1 else 0) =
      daysBeforeMonth z m + (if 2 < m ∧ isLeap y then 1 else 0) := by
  cases hy : isLeap y <;> cases hz : isLeap z <;>
    interval_cases m <;> simp [daysBeforeMonth, monthLength, hy, hz]

/-- Twelve months on, a date lies a year later; for a leap day that is lost the day before
counts. -/
lemma MonthsBefore.sub_mem_of_twelve {d : Date} {n : ℤ} (h : d.MonthsBefore 12 n) :
    365 ≤ n - d.toDays ∧ n - d.toDays ≤ 366 := by
  obtain ⟨z, k, hk, hk', hn, rfl⟩ := h
  have hd := d.month_mem
  have hday := d.day_le
  obtain ⟨rfl, rfl⟩ : z = d.year + 1 ∧ k = d.month := by
    unfold monthNumber at hn
    omega
  have hyear := daysBeforeYear_succ d.year
  have hmonth := daysBeforeMonth_add_leap d.year (d.year + 1) hd.2
  unfold yearLength at hyear
  unfold toDays
  by_cases hm : d.month = 2
  · -- from one February to the next the leap day of the year begun is passed
    simp only [hm, monthLength, lt_irrefl, false_and, if_false, if_true, add_zero] at hday hmonth ⊢
    split_ifs at * <;> omega
  · rw [monthLength_of_ne_two hm (d.year + 1) d.year, min_eq_left hday]
    cases hy : isLeap d.year with
    | true =>
      simp only [hy, isLeap_succ hy, and_true, Bool.false_eq_true, and_false, if_true, if_false]
        at hyear hmonth
      split_ifs at hmonth <;> omega
    | false =>
      simp only [hy, Bool.false_eq_true, and_false, if_false] at hyear hmonth
      split_ifs at hmonth <;> omega

end Date

/-- How many days lie between one date of a rule and the next. -/
def Frequency.gaps : Frequency → Set ℤ
  | .daily => {1}
  | .weekly => Set.Icc 1 7
  | .monthly => Set.Icc 28 31
  | .yearly => Set.Icc 365 366

namespace Rule

/-- The next of the days is at most a week ahead. -/
lemma daysAhead_le_seven {w : ℕ} (hw : w < 7) {days : List ℕ} (h : ∀ k ∈ days, k ≤ 6) :
    daysAhead w days ≤ 7 := by
  unfold daysAhead
  split
  · exact le_rfl
  · next first rest =>
    split
    · next later hl =>
      have := h later (List.mem_of_find?_eq_some hl)
      omega
    · next hl =>
      have : first ≤ w := by simpa using List.find?_eq_none.1 hl first (by simp)
      omega

/-- **From one date to the next**, as far as the frequency says. -/
theorem sub_mem_gaps_of_next? {r : Rule} (hr : ∀ k ∈ r.days.getD [], k ≤ 6) {i j : Instant}
    (h : r.next? i = some j) : j.date.toDays - i.date.toDays ∈ r.frequency.gaps := by
  have hdate := (next?_eq_some_iff.1 h).1
  have hdue := ((nextDate?_eq_some_iff hr).1 hdate).1
  cases hf : r.frequency with
  | daily =>
    simp only [DueOn, hf] at hdue
    simp [Frequency.gaps, hdue]
  | weekly =>
    have hpos := daysAhead_pos i.date.weekday.isLt r.sortedDays
    have hle := daysAhead_le_seven i.date.weekday.isLt (sortedDays_le hr)
    rw [(dueOn_weekly_iff hr hf).1 hdue, Frequency.gaps, Set.mem_Icc]
    omega
  | monthly =>
    simp only [DueOn, hf] at hdue
    exact hdue.sub_mem_of_one
  | yearly =>
    simp only [DueOn, hf] at hdue
    exact hdue.sub_mem_of_twelve

variable {r : Rule}

/-- What holds from each instant to the next holds along a run. -/
lemma isChain_occurrences {R : Instant → Instant → Prop} (h : ∀ i j, r.next? i = some j → R i j)
    (n : ℕ) (i : Instant) : (i :: r.occurrences n i).IsChain R := by
  induction n generalizing i with
  | zero => simp
  | succ n ih =>
    cases hj : r.next? i with
    | none => simp [occurrences_succ_of_none hj]
    | some j =>
      rw [occurrences_succ_of_some hj]
      exact List.isChain_cons_cons.2 ⟨h i j hj, ih j⟩

lemma length_occurrences_le (n : ℕ) (i : Instant) :
    (r.occurrences n i).length ≤ i.date.daysLeft := by
  induction n generalizing i with
  | zero => simp
  | succ n ih =>
    cases hj : r.next? i with
    | none => simp [occurrences_succ_of_none hj]
    | some j =>
      have := ih j
      have := Date.daysLeft_lt (lt_of_next? hj)
      rw [occurrences_succ_of_some hj, List.length_cons]
      omega

lemma time_of_mem_occurrences {n : ℕ} {i j : Instant} (h : j ∈ r.occurrences n i) :
    j.time = i.time := by
  have hchain : (i :: r.occurrences n i).IsChain fun a b => b.time = a.time :=
    isChain_occurrences (fun _ _ h => (next?_eq_some_iff.1 h).2) n i
  have : IsTrans Instant fun a b => b.time = a.time := ⟨fun _ _ _ h h' => h'.trans h⟩
  exact List.rel_of_pairwise_cons hchain.pairwise h

/-- **Runs make progress and end.** Whatever the days of the rule, a run from `i` on rises strictly
at the time of day of `i`, so it repeats nothing; no run is longer than the days that are left, and
all runs are first parts of one list. Where every day has a name, each date lies as far after the
one before it as the frequency says. -/
theorem occurrences_progress (r : Rule) (n : ℕ) (i : Instant) :
    (i :: r.occurrences n i).Pairwise (· < ·) ∧
      (∀ j ∈ r.occurrences n i, j.time = i.time) ∧
      (r.occurrences n i).Nodup ∧
      (r.occurrences n i).length ≤ (Date.last.toDays - i.date.toDays).toNat ∧
      r.occurrences n i = (r.schedule i).take n ∧
      ((∀ k ∈ r.days.getD [], k ≤ 6) → (i :: r.occurrences n i).IsChain
        fun j k => k.date.toDays - j.date.toDays ∈ r.frequency.gaps) := by
  have hlt : (i :: r.occurrences n i).Pairwise (· < ·) :=
    (isChain_occurrences (fun _ _ h => Instant.lt_of_toDays_lt (lt_of_next? h)) n i).pairwise
  refine ⟨hlt, fun j hj => time_of_mem_occurrences hj, ?_, length_occurrences_le n i,
    occurrences_eq_take r n i, fun hr => ?_⟩
  · exact (List.pairwise_cons.1 hlt).2.imp fun h => ne_of_irrefl h
  · exact isChain_occurrences (fun _ _ h => sub_mem_gaps_of_next? hr h) n i

/-- Fridays and Mondays, from noon of a Wednesday on. -/
theorem occurrences_progress_of_friday_and_monday :
    let r : Rule := ⟨.weekly, some [5, 1, 5]⟩
    let i : Instant := ⟨⟨2025, 3, 5, by decide, by decide, by decide, by decide⟩, .noon⟩
    (∀ k ∈ r.days.getD [], k ≤ 6) ∧ (i :: r.occurrences 3 i).IsChain
      fun j k => k.date.toDays - j.date.toDays ∈ r.frequency.gaps := by
  intro r i
  have hr : ∀ k ∈ r.days.getD [], k ≤ 6 := by decide
  obtain ⟨-, -, -, -, -, h⟩ := occurrences_progress r 3 i
  exact ⟨hr, h hr⟩

end Rule

end TaskCapture
