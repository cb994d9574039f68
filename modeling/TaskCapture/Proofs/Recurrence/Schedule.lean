import TaskCapture.Proofs.Recurrence.NextDate

/-!
The run of dates of a rule. It comes to an end with the calendar, so it is one list of which every
run is a first part; for a weekly rule the list holds just the selected days, in order.
-/

namespace TaskCapture

/-- How many days of the calendar come after a day. -/
def Date.daysLeft (d : Date) : ℕ := (Date.last.toDays - d.toDays).toNat

lemma Date.daysLeft_lt {d e : Date} (h : d.toDays < e.toDays) : e.daysLeft < d.daysLeft := by
  have := e.le_last
  unfold daysLeft
  omega

namespace Rule

/-- Whatever the days of a rule, the date after is later. -/
lemma lt_of_nextDate? {r : Rule} {d e : Date} (h : r.nextDate? d = some e) :
    d.toDays < e.toDays := by
  have hmonths : ∀ n : ℕ, 0 < n → d.addMonths? n = some e → d.toDays < e.toDays := by
    intro n hn he
    obtain ⟨h1, h2, -⟩ := Date.addMonths?_eq_some_iff.1 he
    exact (Date.monthsBefore_toDays_iff.2 ⟨h1, h2⟩).lt hn
  unfold nextDate? at h
  split at h
  · have := Date.addDays?_eq_some_iff.1 h
    omega
  · have := Date.addDays?_eq_some_iff.1 h
    have := daysAhead_pos d.weekday.isLt r.sortedDays
    omega
  · exact hmonths 1 one_pos h
  · exact hmonths 12 (by norm_num) h

lemma next?_eq_some_iff {r : Rule} {i j : Instant} :
    r.next? i = some j ↔ r.nextDate? i.date = some j.date ∧ j.time = i.time := by
  rw [next?, Option.map_eq_some_iff]
  constructor
  · rintro ⟨e, he, rfl⟩
    exact ⟨he, rfl⟩
  · rintro ⟨he, ht⟩
    exact ⟨j.date, he, by rw [← ht]⟩

lemma lt_of_next? {r : Rule} {i j : Instant} (h : r.next? i = some j) :
    i.date.toDays < j.date.toDays :=
  lt_of_nextDate? (next?_eq_some_iff.1 h).1

lemma take_occurrences (r : Rule) (m n : ℕ) (i : Instant) :
    (r.occurrences m i).take n = r.occurrences (min n m) i := by
  induction m generalizing n i with
  | zero => simp
  | succ m ih =>
    cases n with
    | zero => simp
    | succ n =>
      rw [Nat.succ_min_succ]
      cases h : r.next? i with
      | none => simp [occurrences_succ_of_none h]
      | some j => simp [occurrences_succ_of_some h, ih]

/-- No more dates come than there are days left. -/
lemma occurrences_eq_of_le {r : Rule} {m n : ℕ} {i : Instant} (hm : i.date.daysLeft ≤ m)
    (hn : m ≤ n) : r.occurrences n i = r.occurrences m i := by
  induction m generalizing n i with
  | zero =>
    cases n with
    | zero => rfl
    | succ n =>
      cases h : r.next? i with
      | none => simp [occurrences_succ_of_none h]
      | some j =>
        have := Date.daysLeft_lt (lt_of_next? h)
        omega
  | succ m ih =>
    obtain ⟨n, rfl⟩ : ∃ k, n = k + 1 := ⟨n - 1, by omega⟩
    cases h : r.next? i with
    | none => simp [occurrences_succ_of_none h]
    | some j =>
      have := Date.daysLeft_lt (lt_of_next? h)
      rw [occurrences_succ_of_some h, occurrences_succ_of_some h, ih (by omega) (by omega)]

/-- All instants at which the rule falls due after `i`. -/
def schedule (r : Rule) (i : Instant) : List Instant := r.occurrences i.date.daysLeft i

lemma schedule_of_none {r : Rule} {i : Instant} (h : r.next? i = none) : r.schedule i = [] := by
  unfold schedule
  cases i.date.daysLeft with
  | zero => rfl
  | succ n => exact occurrences_succ_of_none h n

lemma schedule_of_some {r : Rule} {i j : Instant} (h : r.next? i = some j) :
    r.schedule i = j :: r.schedule j := by
  have hlt := Date.daysLeft_lt (lt_of_next? h)
  obtain ⟨n, hn⟩ : ∃ n, i.date.daysLeft = n + 1 := ⟨i.date.daysLeft - 1, by omega⟩
  unfold schedule
  rw [hn, occurrences_succ_of_some h, occurrences_eq_of_le le_rfl (by omega)]

/-- Every run is a first part of the schedule. -/
lemma occurrences_eq_take (r : Rule) (n : ℕ) (i : Instant) :
    r.occurrences n i = (r.schedule i).take n := by
  unfold schedule
  rw [take_occurrences]
  rcases le_total n i.date.daysLeft with h | h
  · rw [min_eq_left h]
  · rw [min_eq_right h, occurrences_eq_of_le le_rfl h]

/-- An argument along the schedule: it ends, or it goes on from the next instant. -/
lemma schedule_induction {r : Rule} {motive : Instant → Prop}
    (none : ∀ i, r.next? i = none → motive i)
    (some : ∀ i j, r.next? i = some j → motive j → motive i) (i : Instant) : motive i := by
  obtain ⟨n, hn⟩ : ∃ n, i.date.daysLeft = n := ⟨_, rfl⟩
  induction n using Nat.strong_induction_on generalizing i with
  | _ n ih =>
    cases h : r.next? i with
    | none => exact none i h
    | some j => exact some i j h (ih _ (hn ▸ Date.daysLeft_lt (lt_of_next? h)) j rfl)

lemma lt_of_mem_schedule {r : Rule} {i j : Instant} (h : j ∈ r.schedule i) :
    i.date.toDays < j.date.toDays := by
  induction i using schedule_induction (r := r) with
  | none i hi => simp [schedule_of_none hi] at h
  | some i k hk ih =>
    have hlt := lt_of_next? hk
    rw [schedule_of_some hk, List.mem_cons] at h
    rcases h with rfl | h
    · exact hlt
    · exact hlt.trans (ih h)

lemma pairwise_schedule (r : Rule) (i : Instant) :
    (r.schedule i).Pairwise fun j k => j.date < k.date := by
  induction i using schedule_induction (r := r) with
  | none i hi => simp [schedule_of_none hi]
  | some i j hj ih =>
    rw [schedule_of_some hj]
    exact List.pairwise_cons.2 ⟨fun k hk => lt_of_mem_schedule hk, ih⟩

end Rule

end TaskCapture
