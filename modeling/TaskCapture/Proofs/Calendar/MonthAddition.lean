import TaskCapture.Proofs.Calendar.Months

/-!
The day so many months after a day, in the calendar or past it. Going on by months comes to that
day and keeps the order of the days and of the numbers. Two steps may stop in a short month between
and so lose days, but they never come later than one step by the sum.
-/

namespace TaskCapture

open Calendar

/-- Day `n` lies `k` months after the month of `d`, on the same day of the month or on the last day
of a month too short for it. It may lie past the calendar. -/
def Date.MonthsBefore (d : Date) (k : ℕ) (n : ℤ) : Prop :=
  ∃ y : ℤ, ∃ m : ℕ, 1 ≤ m ∧ m ≤ 12 ∧ 12 * y + m = d.monthNumber + k ∧
    n = daysBeforeYear y + daysBeforeMonth y m + min d.day (monthLength y m)

namespace Date

lemma monthsBefore_toDays_iff {d e : Date} {k : ℕ} :
    d.MonthsBefore k e.toDays ↔
      e.monthNumber = d.monthNumber + k ∧ e.day = min d.day (monthLength e.year e.month) := by
  constructor
  · rintro ⟨y, m, h1, h2, hn, he⟩
    have hk : 1 ≤ min d.day (monthLength y m) :=
      le_min d.day_pos ((monthLength_pos_iff y m).2 ⟨h1, h2⟩)
    have hl := daysBeforeMonth_add_le_yearLength (y := y) h2
    have hs := daysBeforeYear_succ y
    have hmem := e.toDays_mem
    have hle := min_le_right d.day (monthLength y m)
    obtain rfl : e.year = y := eq_of_daysBeforeYear hmem.1 hmem.2 (by omega) (by omega)
    unfold toDays at he
    obtain ⟨rfl, hd⟩ := eq_of_daysBeforeMonth e.day_pos e.day_le hk hle (by omega)
    exact ⟨hn, hd⟩
  · rintro ⟨hn, hd⟩
    exact ⟨e.year, e.month, e.month_mem.1, e.month_mem.2, hn, by rw [← hd]; rfl⟩

/-- Every number is that of a month. -/
lemma exists_month (n : ℤ) : ∃ y : ℤ, ∃ m : ℕ, 1 ≤ m ∧ m ≤ 12 ∧ 12 * y + m = n :=
  ⟨(n - 1) / 12, ((n - 1) % 12 + 1).toNat, by omega, by omega, by omega⟩

lemma exists_monthsBefore (d : Date) (k : ℕ) : ∃ n, d.MonthsBefore k n := by
  obtain ⟨y, m, h1, h2, hn⟩ := exists_month (d.monthNumber + k)
  exact ⟨_, y, m, h1, h2, hn, rfl⟩

lemma MonthsBefore.unique {d : Date} {k : ℕ} {n n' : ℤ} (h : d.MonthsBefore k n)
    (h' : d.MonthsBefore k n') : n = n' := by
  obtain ⟨y, m, h1, h2, hn, rfl⟩ := h
  obtain ⟨y', m', h1', h2', hn', rfl⟩ := h'
  obtain ⟨rfl, rfl⟩ : y = y' ∧ m = m' := by omega
  rfl

lemma MonthsBefore.lt {d : Date} {k : ℕ} {n : ℤ} (hk : 0 < k) (h : d.MonthsBefore k n) :
    d.toDays < n := by
  obtain ⟨y, m, h1, h2, hn, rfl⟩ := h
  have hd := d.month_mem
  have hday := d.day_le
  have hpos : 1 ≤ min d.day (monthLength y m) :=
    le_min d.day_pos ((monthLength_pos_iff y m).2 ⟨h1, h2⟩)
  unfold monthNumber at hn
  have := daysBefore_add_le hd.1 hd.2 h1 h2 (show 12 * d.year + d.month < 12 * y + m by omega)
  unfold toDays
  omega

variable {d e f g : Date} {a b : ℕ}

/-- The same number of months after a later day comes no earlier. Days of one month may meet on its
last day. -/
lemma MonthsBefore.mono {k : ℕ} {n m : ℤ} (hn : d.MonthsBefore k n) (hm : e.MonthsBefore k m)
    (h : d ≤ e) : n ≤ m := by
  obtain ⟨y, a, ha, ha', hya, rfl⟩ := hn
  obtain ⟨z, b, hb, hb', hzb, rfl⟩ := hm
  rcases (monthNumber_le_of_le h).lt_or_eq with hlt | heq
  · have := daysBefore_add_le ha ha' hb hb' (show 12 * y + a < 12 * z + b by omega)
    have := min_le_right d.day (monthLength y a)
    omega
  · obtain ⟨rfl, rfl⟩ : y = z ∧ a = b := by omega
    have hday : d.day ≤ e.day := (le_iff_of_monthNumber_eq heq).1 h
    have := min_le_min_right (monthLength y a) hday
    omega

/-! ### Going on by months -/

lemma monthsBefore_of_addMonths? (h : d.addMonths? a = some e) : d.MonthsBefore a e.toDays := by
  obtain ⟨hmonth, hday, -⟩ := addMonths?_eq_some_iff.1 h
  exact monthsBefore_toDays_iff.2 ⟨hmonth, hday⟩

/-- Before its last month the calendar always goes on by months. -/
lemma exists_addMonths? (h : d.monthNumber + a < last.monthNumber) :
    ∃ e, d.addMonths? a = some e := by
  have hd := d.month_mem
  have hmin := d.minYear_le
  have hlast : last.monthNumber = 12 * maxYear + 12 := rfl
  obtain ⟨y, m, h1, h2, hn⟩ := exists_month (d.monthNumber + a)
  have hmonth : d.monthNumber = 12 * d.year + d.month := rfl
  have hpos : 1 ≤ min d.day (monthLength y m) :=
    le_min d.day_pos ((monthLength_pos_iff y m).2 ⟨h1, h2⟩)
  exact ⟨⟨y, m, _, by omega, by omega, hpos, min_le_right _ _⟩,
    addMonths?_eq_some_iff.2 ⟨hn, rfl, hn ▸ h⟩⟩

/-- No number of months that leads anywhere exceeds the months of the calendar. -/
lemma le_of_addMonths?_eq_some (h : d.addMonths? a = some e) :
    a ≤ last.monthNumber - first.monthNumber := by
  have hmonth := (addMonths?_eq_some_iff.1 h).1
  have hfirst := d.first_monthNumber_le
  have hlast := e.monthNumber_le
  omega

/-- Fewer months lead to an earlier day. -/
lemma exists_addMonths?_lt (hab : a < b) (h : d.addMonths? b = some e) :
    ∃ f, d.addMonths? a = some f ∧ f < e := by
  obtain ⟨hmonth, -, hlast⟩ := addMonths?_eq_some_iff.1 h
  obtain ⟨f, hf⟩ := exists_addMonths? (d := d) (a := a) (by omega)
  have hmonth' := (addMonths?_eq_some_iff.1 hf).1
  exact ⟨f, hf, toDays_lt_of_monthNumber_lt (by omega)⟩

/-- From an earlier day on, as many months lead to no later day. -/
lemma exists_addMonths?_le (hde : d ≤ e) (h : e.addMonths? a = some f) :
    ∃ g, d.addMonths? a = some g ∧ g ≤ f := by
  obtain ⟨hmonth, -, hlast⟩ := addMonths?_eq_some_iff.1 h
  have hle := monthNumber_le_of_le hde
  obtain ⟨g, hg⟩ := exists_addMonths? (d := d) (a := a) (by omega)
  exact ⟨g, hg, (monthsBefore_of_addMonths? hg).mono (monthsBefore_of_addMonths? h) hde⟩

section

variable (he : d.addMonths? a = some e) (hf : e.addMonths? b = some f)

include he hf

lemma monthNumber_eq_of_addMonths?_add (hg : d.addMonths? (a + b) = some g) :
    f.monthNumber = g.monthNumber := by
  have hem := (addMonths?_eq_some_iff.1 he).1
  have hfm := (addMonths?_eq_some_iff.1 hf).1
  have hgm := (addMonths?_eq_some_iff.1 hg).1
  push_cast at hgm
  omega

/-- All that a stop costs are the days that its month lacks. -/
lemma day_eq_min_of_addMonths?_add (hg : d.addMonths? (a + b) = some g) :
    f.day = min g.day (monthLength e.year e.month) := by
  obtain ⟨-, hed, -⟩ := addMonths?_eq_some_iff.1 he
  obtain ⟨-, hfd, -⟩ := addMonths?_eq_some_iff.1 hf
  obtain ⟨-, hgd, -⟩ := addMonths?_eq_some_iff.1 hg
  obtain ⟨hy, hm⟩ := monthNumber_eq_iff.1 (monthNumber_eq_of_addMonths?_add he hf hg)
  calc f.day = min e.day (monthLength g.year g.month) := by rw [hfd, hy, hm]
    _ = min (min d.day (monthLength e.year e.month)) (monthLength g.year g.month) := by rw [hed]
    _ = min (min d.day (monthLength g.year g.month)) (monthLength e.year e.month) :=
      min_right_comm _ _ _
    _ = min g.day (monthLength e.year e.month) := by rw [hgd]

/-- Where two steps lead anywhere, so does one by their sum: to the same month, on no earlier
day. -/
lemma exists_addMonths?_add :
    ∃ g, d.addMonths? (a + b) = some g ∧ g.monthNumber = f.monthNumber ∧ f ≤ g ∧
      (d.day ≤ 28 → g = f) := by
  have hem := (addMonths?_eq_some_iff.1 he).1
  obtain ⟨hfm, -, hlast⟩ := addMonths?_eq_some_iff.1 hf
  obtain ⟨g, hg⟩ := exists_addMonths? (d := d) (a := a + b) (by push_cast; omega)
  have hmonth := monthNumber_eq_of_addMonths?_add he hf hg
  have hday := day_eq_min_of_addMonths?_add he hf hg
  have hle : f.day ≤ g.day := hday ▸ min_le_left _ _
  refine ⟨g, hg, hmonth.symm, (le_iff_of_monthNumber_eq hmonth).2 hle, fun h28 => ?_⟩
  -- up to the 28th no stop costs a day
  have hlen := le_monthLength (y := e.year) e.month_mem.1 e.month_mem.2
  have hgd := (addMonths?_eq_some_iff.1 hg).2.1
  have hge : g.day ≤ f.day := by omega
  exact toDays_injective (le_antisymm (le_def.1 ((le_iff_of_monthNumber_eq hmonth.symm).2 hge))
    (le_def.1 ((le_iff_of_monthNumber_eq hmonth).2 hle)))

end

/-- **Going on by months is exact, keeps order, and adds up.** The length of a month, where it is
known, is that of the Gregorian calendar, and it is known before the last month. The day that `a`
months lead to lies `a` months on, on the day of `d` or the last of a month too short for it; before
the last month there is one, and no number past the months of the calendar leads anywhere. It rises
strictly with the number, and with `d` it never falls. Going on twice comes to the month that the
sum of the numbers leads to, on no later day of it, and on the same day up to the 28th. -/
theorem addMonths?_exact_mono_add (d : Date) (a b : ℕ) :
    (∀ (y : ℤ) (m len : ℕ), monthLength? y m = some len → len = monthLength y m) ∧
      (d.monthNumber < last.monthNumber →
        monthLength? d.year d.month = some (monthLength d.year d.month)) ∧
      (∀ e, d.addMonths? a = some e →
        e.monthNumber = d.monthNumber + a ∧ e.day = min d.day (monthLength e.year e.month) ∧
          a ≤ last.monthNumber - first.monthNumber) ∧
      (d.monthNumber + a < last.monthNumber → ∃ e, d.addMonths? a = some e) ∧
      (∀ e, a < b → d.addMonths? b = some e → ∃ f, d.addMonths? a = some f ∧ f < e) ∧
      (∀ e f, d ≤ e → e.addMonths? a = some f → ∃ g, d.addMonths? a = some g ∧ g ≤ f) ∧
      ∀ e f, d.addMonths? a = some e → e.addMonths? b = some f →
        ∃ g, d.addMonths? (a + b) = some g ∧ g.monthNumber = f.monthNumber ∧ f ≤ g ∧
          (d.day ≤ 28 → g = f) := by
  refine ⟨fun _ _ _ h => (monthLength?_eq_some_iff.1 h).2, fun h => ?_, fun e he => ?_,
    exists_addMonths?, fun _ => exists_addMonths?_lt, fun _ _ => exists_addMonths?_le,
    fun _ _ => exists_addMonths?_add⟩
  · exact monthLength?_eq_some_iff.2 ⟨⟨d.minYear_le, d.month_mem.1, d.month_mem.2, h⟩, rfl⟩
  · obtain ⟨hmonth, hday, -⟩ := addMonths?_eq_some_iff.1 he
    exact ⟨hmonth, hday, le_of_addMonths?_eq_some he⟩

/-- From 31 December of year -5 two months lead to the leap day of year -4. Three more lead to
29 May, where five at once would have led to the 31st. -/
theorem addMonths?_exact_mono_add_of_leap_day :
    let d : Date := ⟨-5, 12, 31, by decide, by decide, by decide, by decide⟩
    let e : Date := ⟨-4, 2, 29, by decide, by decide, by decide, by decide⟩
    let f : Date := ⟨-4, 5, 29, by decide, by decide, by decide, by decide⟩
    let g : Date := ⟨-4, 3, 31, by decide, by decide, by decide, by decide⟩
    let h : Date := ⟨-4, 4, 29, by decide, by decide, by decide, by decide⟩
    (monthLength? (-4) 2 = some 29 ∧ 29 = monthLength (-4) 2) ∧
      (d.monthNumber + (2 : ℕ) < last.monthNumber ∧ d.addMonths? 2 = some e ∧
        e.monthNumber = d.monthNumber + (2 : ℕ) ∧
        e.day = min d.day (monthLength e.year e.month)) ∧
      (2 < 3 ∧ d.addMonths? 3 = some g ∧ ∃ e', d.addMonths? 2 = some e' ∧ e' < g) ∧
      (d ≤ e ∧ e.addMonths? 2 = some h ∧ ∃ e', d.addMonths? 2 = some e' ∧ e' ≤ h) ∧
      (e.addMonths? 3 = some f ∧ ∃ f', d.addMonths? (2 + 3) = some f' ∧
        f'.monthNumber = f.monthNumber ∧ f ≤ f') := by
  intro d e f g h
  have hlen : monthLength? (-4) 2 = some 29 := by decide +kernel
  have hlast : d.monthNumber + (2 : ℕ) < last.monthNumber := by decide
  have he : d.addMonths? 2 = some e := by decide +kernel
  have hg : d.addMonths? 3 = some g := by decide +kernel
  have hh : e.addMonths? 2 = some h := by decide +kernel
  have hf : e.addMonths? 3 = some f := by decide +kernel
  have hde : d ≤ e := by decide
  obtain ⟨hgregorian, -, hexact, -, hlt, hle, hadd⟩ := addMonths?_exact_mono_add d 2 3
  obtain ⟨hmonth, hday, -⟩ := hexact e he
  obtain ⟨f', hf', hmonth', hff', -⟩ := hadd e f he hf
  exact ⟨⟨hlen, hgregorian (-4) 2 29 hlen⟩, ⟨hlast, he, hmonth, hday⟩,
    ⟨by decide, hg, hlt g (by decide) hg⟩, ⟨hde, hh, hle e h hde hh⟩,
    hf, f', hf', hmonth', hff'⟩

end Date

end TaskCapture
