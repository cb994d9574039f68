import TaskCapture.Proofs.Recurrence.Progress

/-!
The runs of monthly and yearly rules in closed form. A monthly rule never gives back a day that a
short month has cut; a yearly rule keeps its day, save the leap day, which it loses for good.
-/

namespace TaskCapture

open Calendar

namespace Date

/-- The lengths of the `k` months after the month of a day. -/
def lengthsPassed (d : Date) (k : ℕ) : Set ℕ :=
  {l | ∃ y : ℤ, ∃ m : ℕ, 1 ≤ m ∧ m ≤ 12 ∧
    d.monthNumber < 12 * y + m ∧ 12 * y + m ≤ d.monthNumber + k ∧ l = monthLength y m}

lemma lengthsPassed_zero (d : Date) : d.lengthsPassed 0 = ∅ := by
  ext l
  simp only [lengthsPassed, Set.mem_ofPred_eq, Set.mem_empty_iff_false, iff_false]
  rintro ⟨y, m, -, -, hlt, hle, -⟩
  omega

/-- The first month passed is the one that the date after lies in. -/
lemma lengthsPassed_succ {d e : Date} (h : e.monthNumber = d.monthNumber + 1) (k : ℕ) :
    d.lengthsPassed (k + 1) = insert (monthLength e.year e.month) (e.lengthsPassed k) := by
  have he := e.month_mem
  ext l
  simp only [lengthsPassed, Set.mem_ofPred_eq, Set.mem_insert_iff]
  constructor
  · rintro ⟨y, m, h1, h2, hlt, hle, rfl⟩
    by_cases heq : 12 * y + m = e.monthNumber
    · obtain ⟨rfl, rfl⟩ : y = e.year ∧ m = e.month := by
        unfold monthNumber at heq
        omega
      exact .inl rfl
    · exact .inr ⟨y, m, h1, h2, by omega, by omega, rfl⟩
  · rintro (rfl | ⟨y, m, h1, h2, hlt, hle, rfl⟩)
    · unfold monthNumber at *
      exact ⟨e.year, e.month, he.1, he.2, by omega, by omega, rfl⟩
    · exact ⟨y, m, h1, h2, by omega, by omega, rfl⟩

lemma isLeast_insert_min_iff {a b c : ℕ} {s : Set ℕ} :
    IsLeast (insert (min a b) s) c ↔ IsLeast (insert a (insert b s)) c := by
  simp only [IsLeast, Set.mem_insert_iff, lowerBounds_insert, Set.mem_inter_iff, Set.mem_Iic,
    le_min_iff, and_assoc]
  refine and_congr_left fun hle => ?_
  obtain ⟨ha, hb, -⟩ := hle
  rw [← or_assoc]
  refine or_congr_left ⟨fun h => ?_, fun h => ?_⟩
  · exact (min_choice a b).imp h.trans h.trans
  · rcases h with rfl | rfl
    · exact (min_eq_left hb).symm
    · exact (min_eq_right ha).symm

/-- The leap day. -/
def IsLeapDay (d : Date) : Prop := d.month = 2 ∧ d.day = 29

instance (d : Date) : Decidable d.IsLeapDay := inferInstanceAs (Decidable (_ ∧ _))

/-- A year on, every day but the leap day is there. -/
lemma min_day_monthLength (d : Date) :
    min d.day (monthLength (d.year + 1) d.month) = if d.IsLeapDay then 28 else d.day := by
  have hday := d.day_le
  by_cases hm : d.month = 2
  · have hnext := le_monthLength (y := d.year + 1) (m := 2) (by decide) (by decide)
    rw [hm] at hday ⊢
    split_ifs with h
    · -- only a leap year has the day, and the year after is none
      have hleap : isLeap d.year = true := by
        by_contra hn
        simp [monthLength, hn, h.2] at hday
      simp [monthLength, isLeap_succ hleap, h.2]
    · have hne : d.day ≠ 29 := fun h29 => h ⟨hm, h29⟩
      have hle : monthLength d.year 2 ≤ 29 := by
        unfold monthLength
        split_ifs <;> omega
      omega
  · rw [monthLength_of_ne_two hm (d.year + 1) d.year, min_eq_left hday, if_neg fun h => hm h.1]

end Date

namespace Rule

variable {r : Rule}

lemma next?_eq_some_iff_of_addMonths? {m : ℕ} (h : ∀ d, r.nextDate? d = d.addMonths? m)
    {i j : Instant} :
    r.next? i = some j ↔ j.date.monthNumber = i.date.monthNumber + m ∧
      j.date.day = min i.date.day (monthLength j.date.year j.date.month) ∧
      j.date.monthNumber < Date.last.monthNumber ∧ j.time = i.time := by
  rw [next?_eq_some_iff, h, Date.addMonths?_eq_some_iff, and_assoc, and_assoc]

lemma exists_next?_of_addMonths? {m : ℕ} (h : ∀ d, r.nextDate? d = d.addMonths? m) {i : Instant}
    (hi : i.date.monthNumber + m < Date.last.monthNumber) : ∃ j, r.next? i = some j := by
  obtain ⟨e, he⟩ := Date.exists_addMonths? hi
  exact ⟨⟨e, i.time⟩, next?_eq_some_iff.2 ⟨by rw [h, he], rfl⟩⟩

/-- The instant that a monthly rule reaches in `k` steps: `k` months later, on the day that is left
of the first one after all the months passed. -/
structure MonthsOn (k : ℕ) (i j : Instant) : Prop where
  month : j.date.monthNumber = i.date.monthNumber + k
  day : IsLeast (insert i.date.day (i.date.lengthsPassed k)) j.date.day
  lt_last : j.date.monthNumber < Date.last.monthNumber
  time : j.time = i.time

/-- The instant that a yearly rule reaches in `k` steps: the same month and day `k` years later,
with the day before for a leap day. -/
structure YearsOn (k : ℕ) (i j : Instant) : Prop where
  year : j.date.year = i.date.year + k
  month : j.date.month = i.date.month
  day : j.date.day = if i.date.IsLeapDay then 28 else i.date.day
  lt_last : j.date.monthNumber < Date.last.monthNumber
  time : j.time = i.time

section

variable (hf : r.frequency = .monthly)

include hf

lemma next?_monthly_iff {i j : Instant} :
    r.next? i = some j ↔ j.date.monthNumber = i.date.monthNumber + 1 ∧
      j.date.day = min i.date.day (monthLength j.date.year j.date.month) ∧
      j.date.monthNumber < Date.last.monthNumber ∧ j.time = i.time :=
  next?_eq_some_iff_of_addMonths? (m := 1) fun d => by simp [nextDate?, hf]

lemma next?_iff_monthsOn (i j : Instant) : r.next? i = some j ↔ MonthsOn 1 i j := by
  have hday : j.date.monthNumber = i.date.monthNumber + 1 →
      (j.date.day = min i.date.day (monthLength j.date.year j.date.month) ↔
        IsLeast (insert i.date.day (i.date.lengthsPassed 1)) j.date.day) := by
    intro hm
    rw [Date.lengthsPassed_succ hm, Date.lengthsPassed_zero, ← Date.isLeast_insert_min_iff,
      insert_empty_eq]
    exact ⟨fun h => h ▸ isLeast_singleton, fun h => h.unique isLeast_singleton⟩
  rw [next?_monthly_iff hf]
  constructor
  · rintro ⟨hm, hd, hl, ht⟩
    exact ⟨hm, (hday hm).1 hd, hl, ht⟩
  · rintro ⟨hm, hd, hl, ht⟩
    exact ⟨hm, (hday hm).2 hd, hl, ht⟩

/-- The months passed from the start are those passed from the first instant on, and its own. -/
lemma monthsOn_succ_iff {k : ℕ} {i i' : Instant} (h : r.next? i = some i') (j : Instant) :
    MonthsOn (k + 1) i j ↔ MonthsOn k i' j := by
  obtain ⟨hm, hd, -, ht⟩ := (next?_monthly_iff hf).1 h
  have hday : IsLeast (insert i'.date.day (i'.date.lengthsPassed k)) j.date.day ↔
      IsLeast (insert i.date.day (i.date.lengthsPassed (k + 1))) j.date.day := by
    rw [Date.lengthsPassed_succ hm, hd, Date.isLeast_insert_min_iff]
  constructor
  · rintro ⟨hm', hd', hl, ht'⟩
    exact ⟨by push_cast at hm'; omega, hday.2 hd', hl, by rw [ht', ht]⟩
  · rintro ⟨hm', hd', hl, ht'⟩
    exact ⟨by push_cast; omega, hday.1 hd', hl, by rw [ht', ht]⟩

lemma MonthsOn.exists_next? {k : ℕ} {i j : Instant} (h : MonthsOn (k + 1) i j) :
    ∃ i', r.next? i = some i' := by
  have hm := h.month
  have hl := h.lt_last
  exact exists_next?_of_addMonths? (m := 1) (fun d => by simp [nextDate?, hf])
    (by push_cast at hm ⊢; omega)

end

section

variable (hf : r.frequency = .yearly)

include hf

lemma next?_iff_yearsOn (i j : Instant) : r.next? i = some j ↔ YearsOn 1 i j := by
  rw [next?_eq_some_iff_of_addMonths? (m := 12) fun d => by simp [nextDate?, hf]]
  have hi := i.date.month_mem
  have hj := j.date.month_mem
  have hmonth : j.date.monthNumber = i.date.monthNumber + (12 : ℕ) ↔
      j.date.year = i.date.year + 1 ∧ j.date.month = i.date.month := by
    unfold Date.monthNumber
    omega
  rw [hmonth]
  constructor
  · rintro ⟨⟨hy, hm⟩, hd, hl, ht⟩
    exact ⟨hy, hm, by rw [hd, hy, hm, Date.min_day_monthLength], hl, ht⟩
  · rintro ⟨hy, hm, hd, hl, ht⟩
    exact ⟨⟨hy, hm⟩, by rw [hd, hy, hm]; exact (Date.min_day_monthLength _).symm, hl, ht⟩

/-- A year after its start a run is on no leap day. -/
lemma yearsOn_succ_iff {k : ℕ} {i i' : Instant} (h : r.next? i = some i') (j : Instant) :
    YearsOn (k + 1) i j ↔ YearsOn k i' j := by
  obtain ⟨hy, hm, hd, -, ht⟩ := (next?_iff_yearsOn hf i i').1 h
  have hleap : ¬ i'.date.IsLeapDay := by
    rintro ⟨h2, h29⟩
    split_ifs at hd with hi
    · omega
    · exact hi ⟨by omega, by omega⟩
  constructor
  · rintro ⟨hy', hm', hd', hl, ht'⟩
    exact ⟨by push_cast at *; omega, by omega, by rw [if_neg hleap, hd', hd], hl, by rw [ht', ht]⟩
  · rintro ⟨hy', hm', hd', hl, ht'⟩
    rw [if_neg hleap] at hd'
    exact ⟨by push_cast at *; omega, by omega, by rw [hd', hd], hl, by rw [ht', ht]⟩

lemma YearsOn.exists_next? {k : ℕ} {i j : Instant} (h : YearsOn (k + 1) i j) :
    ∃ i', r.next? i = some i' := by
  have hy := h.year
  have hm := h.month
  have hl := h.lt_last
  refine exists_next?_of_addMonths? (m := 12) (fun d => by simp [nextDate?, hf]) ?_
  unfold Date.monthNumber at *
  push_cast at hy ⊢
  omega

end

/-- A closed form for the instants of a run: it holds of the first one, and from the first one on
with one step less of the others. -/
lemma getElem?_occurrences_iff {P : ℕ → Instant → Instant → Prop}
    (one : ∀ i j, r.next? i = some j ↔ P 1 i j)
    (succ : ∀ k i i', r.next? i = some i' → ∀ j, P (k + 1) i j ↔ P k i' j)
    (exists_next? : ∀ k i j, P (k + 1) i j → ∃ i', r.next? i = some i') {n k : ℕ} (h : k < n)
    (i j : Instant) : (r.occurrences n i)[k]? = some j ↔ P (k + 1) i j := by
  induction n generalizing k i with
  | zero => omega
  | succ n ih =>
    cases hi : r.next? i with
    | none =>
      rw [occurrences_succ_of_none hi, List.getElem?_nil]
      refine ⟨nofun, fun h => ?_⟩
      obtain ⟨i', hi'⟩ := exists_next? k i j h
      rw [hi] at hi'
      cases hi'
    | some i' =>
      rw [occurrences_succ_of_some hi]
      cases k with
      | zero => rw [List.getElem?_cons_zero, ← one, hi]
      | succ k =>
        rw [List.getElem?_cons_succ, ih (Nat.lt_of_succ_lt_succ h), succ _ i i' hi]

/-- **Monthly and yearly runs in closed form.** After `k + 1` steps a monthly rule is as many months
on, on the start's day or the last day of the shortest month passed, and a yearly rule is as many
years on, on the start's day, or on 28 February if that is a leap day. -/
theorem getElem?_occurrences_by_months (r : Rule) {n k : ℕ} (hk : k < n) (i j : Instant) :
    (r.frequency = .monthly → ((r.occurrences n i)[k]? = some j ↔ MonthsOn (k + 1) i j)) ∧
      (r.frequency = .yearly → ((r.occurrences n i)[k]? = some j ↔ YearsOn (k + 1) i j)) := by
  refine ⟨fun hf => ?_, fun hf => ?_⟩
  · exact getElem?_occurrences_iff (next?_iff_monthsOn hf) (fun _ _ _ => monthsOn_succ_iff hf)
      (fun _ _ _ => MonthsOn.exists_next? hf) hk i j
  · exact getElem?_occurrences_iff (next?_iff_yearsOn hf) (fun _ _ _ => yearsOn_succ_iff hf)
      (fun _ _ _ => YearsOn.exists_next? hf) hk i j

/-- From 31 January 2023 the third month is April, and the day is that of February; from the leap
day of 2024 the fourth year has one again, and the day is not restored. -/
theorem getElem?_occurrences_by_months_of_january_and_leap_day :
    let i : Instant := ⟨⟨2023, 1, 31, by decide, by decide, by decide, by decide⟩, .noon⟩
    let j : Instant := ⟨⟨2023, 4, 28, by decide, by decide, by decide, by decide⟩, .noon⟩
    let l : Instant := ⟨⟨2024, 2, 29, by decide, by decide, by decide, by decide⟩, .noon⟩
    let m : Instant := ⟨⟨2028, 2, 28, by decide, by decide, by decide, by decide⟩, .noon⟩
    let monthly : Rule := ⟨.monthly, none⟩
    let yearly : Rule := ⟨.yearly, none⟩
    (2 < 3 ∧ (monthly.occurrences 3 i)[2]? = some j ∧ MonthsOn 3 i j) ∧
      (3 < 4 ∧ (yearly.occurrences 4 l)[3]? = some m ∧ YearsOn 4 l m) := by
  intro i j l m monthly yearly
  have hj : (monthly.occurrences 3 i)[2]? = some j := by decide +kernel
  have hm : (yearly.occurrences 4 l)[3]? = some m := by decide +kernel
  have hmonthly := (getElem?_occurrences_by_months monthly (show 2 < 3 by decide) i j).1 rfl
  have hyearly := (getElem?_occurrences_by_months yearly (show 3 < 4 by decide) l m).2 rfl
  exact ⟨⟨by decide, hj, hmonthly.1 hj⟩, by decide, hm, hyearly.1 hm⟩

end Rule

end TaskCapture
