import Mathlib
import TaskCapture.Calendar.Date

/-!
Days and day numbers stand for each other: every number from the first day's to the last day's
names exactly one day of the calendar.
-/

namespace TaskCapture

namespace Calendar

/-- Each year has at least 365 days. -/
lemma daysBeforeYear_add_le {y z : ℤ} (h : y ≤ z) :
    daysBeforeYear y + 365 * (z - y) ≤ daysBeforeYear z := by
  unfold daysBeforeYear
  omega

lemma daysBeforeMonth_mono (y : ℤ) : Monotone (daysBeforeMonth y) :=
  monotone_nat_of_le_succ fun _ => Nat.le_add_right _ _

lemma daysBeforeMonth_add_le {y : ℤ} {m k : ℕ} (hm : m < k) :
    daysBeforeMonth y m + monthLength y m ≤ daysBeforeMonth y k :=
  daysBeforeMonth_mono y hm

lemma daysBeforeMonth_one (y : ℤ) : daysBeforeMonth y 1 = 0 := by
  simp [daysBeforeMonth, monthLength]

lemma daysBeforeMonth_add_le_yearLength {y : ℤ} {m : ℕ} (hm : m ≤ 12) :
    daysBeforeMonth y m + monthLength y m ≤ yearLength y :=
  daysBeforeMonth_thirteen y ▸ daysBeforeMonth_add_le (by omega)

/-- The year is the only one whose days surround the number. -/
lemma eq_of_daysBeforeYear {y z n : ℤ} (hy : daysBeforeYear y < n)
    (hy' : n ≤ daysBeforeYear (y + 1)) (hz : daysBeforeYear z < n)
    (hz' : n ≤ daysBeforeYear (z + 1)) : y = z := by
  rcases lt_trichotomy y z with hlt | heq | hlt
  · have := daysBeforeYear_add_le (show y + 1 ≤ z by omega)
    omega
  · exact heq
  · have := daysBeforeYear_add_le (show z + 1 ≤ y by omega)
    omega

/-- A month and a day of it are settled by how many days of the year lie before. -/
lemma eq_of_daysBeforeMonth {y : ℤ} {m k d e : ℕ} (hd : 1 ≤ d) (hd' : d ≤ monthLength y m)
    (he : 1 ≤ e) (he' : e ≤ monthLength y k)
    (h : daysBeforeMonth y m + d = daysBeforeMonth y k + e) : m = k ∧ d = e := by
  rcases lt_trichotomy m k with hlt | rfl | hlt
  · have := daysBeforeMonth_add_le (y := y) hlt
    omega
  · exact ⟨rfl, by omega⟩
  · have := daysBeforeMonth_add_le (y := y) hlt
    omega

end Calendar

namespace Date

open Calendar

/-- The first day of the calendar. -/
def first : Date := ⟨minYear, 1, 1, by decide, by decide, by decide, by decide⟩

/-- The last day of the calendar. -/
def last : Date := ⟨maxYear, 12, 31, by decide, by decide, by decide, by decide⟩

lemma toDays_first : first.toDays = daysBeforeYear minYear + 1 := by decide

lemma toDays_last : last.toDays = daysBeforeYear (maxYear + 1) := by decide

lemma toDays_mem (d : Date) :
    daysBeforeYear d.year < d.toDays ∧ d.toDays ≤ daysBeforeYear (d.year + 1) := by
  have h := daysBeforeMonth_add_le_yearLength (y := d.year) d.month_mem.2
  have h1 := d.day_pos
  have h2 := d.day_le
  rw [daysBeforeYear_succ]
  unfold toDays
  omega

lemma first_le (d : Date) : first.toDays ≤ d.toDays := by
  have h := d.toDays_mem
  have hy := daysBeforeYear_add_le d.minYear_le
  have := d.minYear_le
  rw [toDays_first]
  omega

lemma le_last (d : Date) : d.toDays ≤ last.toDays := by
  have h := d.toDays_mem
  have hy := daysBeforeYear_add_le (show d.year + 1 ≤ maxYear + 1 by have := d.year_le; omega)
  have := d.year_le
  rw [toDays_last]
  omega

/-- Day numbers tell days apart. -/
lemma toDays_injective : Function.Injective toDays := by
  intro a b h
  have ha := a.toDays_mem
  have hb := b.toDays_mem
  have hy : a.year = b.year :=
    eq_of_daysBeforeYear ha.1 ha.2 (h ▸ hb.1) (h ▸ hb.2)
  obtain ⟨y, m, d, _, _, h1, h2⟩ := a
  obtain ⟨y', m', d', _, _, h1', h2'⟩ := b
  simp only at hy
  subst hy
  simp only [toDays] at h
  obtain ⟨rfl, rfl⟩ := eq_of_daysBeforeMonth h1 h2 h1' h2' (by omega)
  rfl

/-! ### From the number to the day -/

/-- The guess by the mean length of a year, put right by one, is the year. -/
lemma yearOfDay_spec (n : ℤ) :
    daysBeforeYear (yearOfDay n) < n ∧ n ≤ daysBeforeYear (yearOfDay n + 1) := by
  unfold yearOfDay
  simp only
  split_ifs with h1 h2
  · refine ⟨?_, by simpa using h1⟩
    unfold daysBeforeYear at *
    omega
  · refine ⟨h2, ?_⟩
    unfold daysBeforeYear at *
    omega
  · omega

/-- The search for a month ends in the month that the day belongs to. -/
lemma monthDay_spec {y : ℤ} {m left n : ℕ} (hm : m + left = 12) (hn : 1 ≤ n)
    (hle : daysBeforeMonth y m + n ≤ yearLength y) :
    1 ≤ (monthDay y m left n).2 ∧
      (monthDay y m left n).2 ≤ monthLength y (monthDay y m left n).1 ∧
      daysBeforeMonth y (monthDay y m left n).1 + (monthDay y m left n).2 =
        daysBeforeMonth y m + n := by
  induction left generalizing m n with
  | zero =>
    obtain rfl : m = 12 := by omega
    have h13 : daysBeforeMonth y 13 = daysBeforeMonth y 12 + monthLength y 12 := rfl
    rw [← daysBeforeMonth_thirteen, h13] at hle
    exact ⟨hn, by simpa [monthDay] using hle, rfl⟩
  | succ left ih =>
    rw [monthDay]
    split_ifs with h
    · exact ⟨hn, h, rfl⟩
    · have hs : daysBeforeMonth y (m + 1) = daysBeforeMonth y m + monthLength y m := rfl
      obtain ⟨h1, h2, h3⟩ := ih (m := m + 1) (n := n - monthLength y m) (by omega) (by omega)
        (by omega)
      exact ⟨h1, h2, by omega⟩

/-- A number leads to a year, a month and a day that have it, whether the calendar reaches there
or not. -/
lemma ofDays?_eq (n : ℤ) : ∃ y : ℤ, ∃ m d : ℕ, 1 ≤ d ∧ d ≤ monthLength y m ∧
    daysBeforeYear y + daysBeforeMonth y m + d = n ∧ ofDays? n = ofYmd? y m d := by
  obtain ⟨h1, h2⟩ := yearOfDay_spec n
  rw [daysBeforeYear_succ] at h2
  obtain ⟨h3, h4, h5⟩ := monthDay_spec (y := yearOfDay n) (show 1 + 11 = 12 from rfl)
    (n := (n - daysBeforeYear (yearOfDay n)).toNat) (by omega)
    (by rw [daysBeforeMonth_one]; omega)
  refine ⟨_, _, _, h3, h4, ?_, rfl⟩
  rw [daysBeforeMonth_one] at h5
  omega

/-- **A number leads back to the one day that has it.** -/
theorem ofDays?_eq_some_iff {n : ℤ} {d : Date} : ofDays? n = some d ↔ d.toDays = n := by
  obtain ⟨y, m, k, hk, hkl, hn, he⟩ := ofDays?_eq n
  rw [he]
  constructor
  · rw [ofYmd?_eq_some_iff]
    rintro ⟨rfl, rfl, rfl⟩
    exact hn
  · intro hd
    have hmem := d.toDays_mem
    have hk12 := (monthLength_pos_iff y m).1 (by omega)
    have hyl := daysBeforeMonth_add_le_yearLength (y := y) hk12.2
    have hsucc := daysBeforeYear_succ y
    obtain rfl : d.year = y :=
      eq_of_daysBeforeYear hmem.1 hmem.2 (by omega) (by omega)
    rw [ofYmd?_eq_some_iff]
    unfold toDays at hd
    obtain ⟨h1, h2⟩ := eq_of_daysBeforeMonth d.day_pos d.day_le hk hkl (by omega)
    exact ⟨rfl, h1, h2⟩

/-- The calendar has no gap. -/
lemma exists_toDays_eq {n : ℤ} (h : first.toDays ≤ n) (h' : n ≤ last.toDays) :
    ∃ d : Date, d.toDays = n := by
  obtain ⟨y, m, k, hk, hkl, hn, -⟩ := ofDays?_eq n
  have hk12 := (monthLength_pos_iff y m).1 (by omega)
  have hyl := daysBeforeMonth_add_le_yearLength (y := y) hk12.2
  have hsucc := daysBeforeYear_succ y
  rw [toDays_first] at h
  rw [toDays_last] at h'
  have hmin : minYear ≤ y := by
    by_contra hc
    have := daysBeforeYear_add_le (show y + 1 ≤ minYear by omega)
    omega
  have hmax : y ≤ maxYear := by
    by_contra hc
    have := daysBeforeYear_add_le (show maxYear + 1 ≤ y by omega)
    omega
  exact ⟨⟨y, m, k, hmin, hmax, hk, hkl⟩, hn⟩

lemma addDays?_eq_some_iff {d e : Date} {n : ℤ} :
    d.addDays? n = some e ↔ e.toDays = d.toDays + n :=
  ofDays?_eq_some_iff

end Date

end TaskCapture
