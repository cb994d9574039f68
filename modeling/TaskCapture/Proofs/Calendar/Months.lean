import TaskCapture.Proofs.Calendar.DayNumber

/-!
Going on by whole months. Months are numbered through, twelve to a year.
-/

namespace TaskCapture.Date

open Calendar

/-- The number of the month that a day belongs to. -/
def monthNumber (d : Date) : ℤ := 12 * d.year + d.month

lemma monthNumber_le (d : Date) : d.monthNumber ≤ last.monthNumber := by
  have h1 := d.year_le
  have h2 := d.month_mem
  simp only [monthNumber, last]
  omega

lemma first_monthNumber_le (d : Date) : first.monthNumber ≤ d.monthNumber := by
  have h1 := d.minYear_le
  have h2 := d.month_mem
  simp only [monthNumber, first]
  omega

lemma monthNumber_eq_iff {d e : Date} :
    d.monthNumber = e.monthNumber ↔ d.year = e.year ∧ d.month = e.month := by
  have hd := d.month_mem
  have he := e.month_mem
  unfold monthNumber
  omega

/-- Within a month the days decide. -/
lemma le_iff_of_monthNumber_eq {d e : Date} (h : d.monthNumber = e.monthNumber) :
    d ≤ e ↔ d.day ≤ e.day := by
  obtain ⟨hy, hm⟩ := monthNumber_eq_iff.1 h
  rw [le_def, toDays, toDays, hy, hm]
  omega

lemma toDays_of_ofYmd? {y : ℤ} {m k : ℕ} {d : Date} (h : ofYmd? y m k = some d) :
    d.toDays = daysBeforeYear y + daysBeforeMonth y m + k := by
  obtain ⟨rfl, rfl, rfl⟩ := ofYmd?_eq_some_iff.1 h
  rfl

lemma exists_ofYmd?_one {y : ℤ} {m : ℕ} (hy : minYear ≤ y) (hy' : y ≤ maxYear) (hm : 1 ≤ m)
    (hm' : m ≤ 12) : ∃ d, ofYmd? y m 1 = some d := by
  have hlen : 1 ≤ monthLength y m := (monthLength_pos_iff y m).2 ⟨hm, hm'⟩
  exact ⟨⟨y, m, 1, hy, hy', le_rfl, hlen⟩, by simp [ofYmd?, hy, hy', hlen]⟩

/-- Only February changes its length. -/
lemma monthLength_of_ne_two {m : ℕ} (h : m ≠ 2) (y z : ℤ) : monthLength y m = monthLength z m := by
  simp [monthLength, h]

/-- The first day of the month after month `m`. -/
def firstAfter? (y : ℤ) (m : ℕ) : Option Date :=
  if m = 12 then ofYmd? (y + 1) 1 1 else ofYmd? y (m + 1) 1

lemma monthLength?_eq_bind (y : ℤ) (m : ℕ) :
    monthLength? y m = (ofYmd? y m 1).bind fun a =>
      (firstAfter? y m).bind fun b => some (b.toDays - a.toDays).toNat := by
  unfold monthLength? firstAfter?
  split_ifs <;> rfl

/-- Counted in days, the month after begins where the month ends. -/
lemma daysBefore_next_month {y z : ℤ} {m k : ℕ} (hm : m ≤ 12) (hk : 1 ≤ k) (hk' : k ≤ 12)
    (h : 12 * z + k = 12 * y + m + 1) :
    daysBeforeYear z + daysBeforeMonth z k =
      daysBeforeYear y + daysBeforeMonth y m + monthLength y m := by
  have hs : daysBeforeMonth y (m + 1) = daysBeforeMonth y m + monthLength y m := rfl
  rcases hm.lt_or_eq with hlt | rfl
  · obtain ⟨rfl, rfl⟩ : z = y ∧ k = m + 1 := by omega
    omega
  · obtain ⟨rfl, rfl⟩ : z = y + 1 ∧ k = 1 := by omega
    have hyear : daysBeforeMonth y (12 + 1) = yearLength y := daysBeforeMonth_thirteen y
    rw [daysBeforeYear_succ, daysBeforeMonth_one]
    omega

lemma monthNumber_of_firstAfter? {y : ℤ} {m : ℕ} {b : Date} (h : firstAfter? y m = some b) :
    b.monthNumber = 12 * y + m + 1 ∧ b.day = 1 ∧ m ≤ 12 := by
  have hb := b.month_mem
  unfold firstAfter? at h
  unfold monthNumber
  split_ifs at h with h12
  · obtain ⟨hy, hm, hd⟩ := ofYmd?_eq_some_iff.1 h
    omega
  · obtain ⟨hy, hm, hd⟩ := ofYmd?_eq_some_iff.1 h
    omega

lemma toDays_of_firstAfter? {y : ℤ} {m : ℕ} {b : Date} (h : firstAfter? y m = some b) :
    b.toDays = daysBeforeYear y + daysBeforeMonth y m + monthLength y m + 1 := by
  obtain ⟨hmonth, hday, hm⟩ := monthNumber_of_firstAfter? h
  rw [toDays, daysBefore_next_month hm b.month_mem.1 b.month_mem.2 hmonth, hday]
  rfl

/-- The last month of the calendar has none after it. -/
lemma exists_firstAfter?_iff {y : ℤ} {m : ℕ} (hy : minYear ≤ y) (hy' : y ≤ maxYear) (hm : 1 ≤ m)
    (hm' : m ≤ 12) : (∃ b, firstAfter? y m = some b) ↔ 12 * y + m < last.monthNumber := by
  constructor
  · rintro ⟨b, hb⟩
    have hmonth := (monthNumber_of_firstAfter? hb).1
    have hle := b.monthNumber_le
    omega
  · intro h
    have hlast : last.monthNumber = 12 * maxYear + 12 := rfl
    unfold firstAfter?
    split_ifs with h12
    · exact exists_ofYmd?_one (by omega) (by omega) le_rfl (by omega)
    · exact exists_ofYmd?_one hy hy' (by omega) (by omega)

/-- The length of a month is known for every month but the last of the calendar. -/
lemma monthLength?_eq_some_iff {y : ℤ} {m len : ℕ} :
    monthLength? y m = some len ↔
      (minYear ≤ y ∧ 1 ≤ m ∧ m ≤ 12 ∧ 12 * y + m < last.monthNumber) ∧ len = monthLength y m := by
  simp only [monthLength?_eq_bind, Option.bind_eq_some_iff, Option.some.injEq]
  constructor
  · rintro ⟨a, ha, b, hb, rfl⟩
    have hda := toDays_of_ofYmd? ha
    have hdb := toDays_of_firstAfter? hb
    obtain ⟨rfl, rfl, -⟩ := ofYmd?_eq_some_iff.1 ha
    have hm := a.month_mem
    have hlt := (exists_firstAfter?_iff a.minYear_le a.year_le hm.1 hm.2).1 ⟨b, hb⟩
    exact ⟨⟨a.minYear_le, hm.1, hm.2, hlt⟩, by omega⟩
  · rintro ⟨⟨h1, h2, h3, h4⟩, rfl⟩
    have hy : y ≤ maxYear := by
      have hlast : last.monthNumber = 12 * maxYear + 12 := rfl
      omega
    obtain ⟨a, ha⟩ := exists_ofYmd?_one h1 hy h2 h3
    obtain ⟨b, hb⟩ := (exists_firstAfter?_iff h1 hy h2 h3).2 h4
    have hda := toDays_of_ofYmd? ha
    have hdb := toDays_of_firstAfter? hb
    exact ⟨a, ha, b, hb, by omega⟩

/-- **Going on by months keeps the day, or takes the last of a month too short for it**, and fails
only past the calendar or in its last month. -/
theorem addMonths?_eq_some_iff {d e : Date} {n : ℕ} :
    d.addMonths? n = some e ↔
      e.monthNumber = d.monthNumber + n ∧ e.day = min d.day (monthLength e.year e.month) ∧
        e.monthNumber < last.monthNumber := by
  have hd := d.month_mem
  have hy := d.minYear_le
  have he := e.month_mem
  simp only [addMonths?, Option.bind_eq_bind, Option.bind_eq_some_iff, monthLength?_eq_some_iff,
    ofYmd?_eq_some_iff]
  constructor
  · rintro ⟨len, ⟨⟨-, -, -, hlt⟩, rfl⟩, hey, hem, hed⟩
    refine ⟨?_, by rw [hey, hem, hed], ?_⟩
    · unfold monthNumber
      omega
    · unfold monthNumber at hlt ⊢
      omega
  · rintro ⟨hn, hed, hlt⟩
    unfold monthNumber at hn hlt
    have hey : e.year = d.year + ((d.month - 1 + n) / 12 : ℕ) := by omega
    have hem : e.month = (d.month - 1 + n) % 12 + 1 := by omega
    refine ⟨_, ⟨⟨by omega, by omega, by omega, ?_⟩, rfl⟩, hey, hem, by rw [hed, hey, hem]⟩
    rw [← hey, ← hem]
    exact hlt

/-- A later month begins after the end of the month. -/
lemma daysBefore_add_le {y z : ℤ} {m k : ℕ} (hm : 1 ≤ m) (hm' : m ≤ 12) (hk : 1 ≤ k) (hk' : k ≤ 12)
    (h : 12 * y + m < 12 * z + k) :
    daysBeforeYear y + daysBeforeMonth y m + monthLength y m ≤
      daysBeforeYear z + daysBeforeMonth z k := by
  rcases (show y ≤ z by omega).lt_or_eq with hlt | rfl
  · have := daysBeforeYear_add_le (show y + 1 ≤ z by omega)
    have := daysBeforeMonth_add_le_yearLength (y := y) hm'
    have := daysBeforeYear_succ y
    omega
  · have := daysBeforeMonth_add_le (y := y) (show m < k by omega)
    omega

/-- The last month of the calendar has 31 days. -/
lemma monthNumber_lt_last_iff {d : Date} :
    d.monthNumber < last.monthNumber ↔ d.toDays ≤ last.toDays - 31 := by
  constructor
  · intro h
    have := daysBefore_add_le d.month_mem.1 d.month_mem.2 (show 1 ≤ 12 by omega) le_rfl h
    have := d.day_le
    simp only [toDays, last] at *
    omega
  · intro h
    rcases d.monthNumber_le.lt_or_eq with hlt | heq
    · exact hlt
    · obtain ⟨hy, hm⟩ : d.year = maxYear ∧ d.month = 12 := by
        have := d.month_mem
        have := d.year_le
        simp only [monthNumber, last] at heq
        omega
      have := d.day_pos
      simp only [toDays, last, hy, hm] at h
      omega

lemma le_of_addDays? {d e : Date} {n : ℕ} (h : d.addDays? n = some e) : d ≤ e := by
  have := addDays?_eq_some_iff.1 h
  rw [le_def]
  omega

/-- The days of an earlier month come before. -/
lemma toDays_lt_of_monthNumber_lt {d e : Date} (h : d.monthNumber < e.monthNumber) :
    d.toDays < e.toDays := by
  have hd := d.month_mem
  have he := e.month_mem
  have := daysBefore_add_le hd.1 hd.2 he.1 he.2 h
  have := d.day_le
  have := e.day_pos
  rw [toDays, toDays]
  omega

lemma monthNumber_le_of_le {d e : Date} (h : d ≤ e) : d.monthNumber ≤ e.monthNumber := by
  by_contra hlt
  exact absurd h (not_le_of_gt (toDays_lt_of_monthNumber_lt (not_le.1 hlt)))

lemma year_le_of_le {d e : Date} (h : d ≤ e) : d.year ≤ e.year := by
  have hmonth := monthNumber_le_of_le h
  have hd := d.month_mem
  have he := e.month_mem
  unfold monthNumber at hmonth
  omega

/-- The same day of a month comes later in a later year. -/
lemma le_of_year_le {d e : Date} (hm : d.month = e.month) (hd : d.day = e.day)
    (hy : d.year ≤ e.year) : d ≤ e := by
  rcases hy.lt_or_eq with hlt | heq
  · have hmonth : d.monthNumber < e.monthNumber := by
      unfold monthNumber
      omega
    exact (toDays_lt_of_monthNumber_lt hmonth).le
  · rw [le_def, toDays, toDays, hm, hd, heq]

lemma le_of_addMonths? {d e : Date} {n : ℕ} (h : d.addMonths? n = some e) : d ≤ e := by
  obtain ⟨hn, hday, -⟩ := addMonths?_eq_some_iff.1 h
  rcases Nat.eq_zero_or_pos n with rfl | hpos
  · -- the month is the same, and so is the day
    have hmonth : d.monthNumber = e.monthNumber := by omega
    obtain ⟨hy, hm⟩ := monthNumber_eq_iff.1 hmonth
    rw [le_iff_of_monthNumber_eq hmonth, hday, ← hy, ← hm]
    exact le_min le_rfl d.day_le
  · exact (toDays_lt_of_monthNumber_lt (by omega)).le

end TaskCapture.Date
