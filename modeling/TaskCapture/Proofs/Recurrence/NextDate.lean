import TaskCapture.Proofs.Calendar.MonthAddition
import TaskCapture.Recurrence.Schedule

/-!
The date after a date, compared with the day that the rule calls for. The two agree as far as the
calendar reaches, save that a monthly or yearly rule never reaches its last month.
-/

namespace TaskCapture

open Calendar

namespace Rule

/-- Day `n` is the one on which the rule falls due after `d`, whether or not the calendar reaches
that far. -/
def DueOn (r : Rule) (d : Date) (n : ℤ) : Prop :=
  match r.frequency with
  | .daily => n = d.toDays + 1
  | .weekly =>
    if r.days.getD [] = [] then n = d.toDays + 7
    else IsLeast {k : ℤ | d.toDays < k ∧ (k % 7).toNat ∈ r.days.getD []} n
  | .monthly => d.MonthsBefore 1 n
  | .yearly => d.MonthsBefore 12 n

/-- The rule goes on by whole months. -/
def ByMonths (r : Rule) : Prop := r.frequency = .monthly ∨ r.frequency = .yearly

/-- Day `n` is out of reach: it lies past the calendar, or in the last month of it for a rule that
goes on by months. -/
def OutOfReach (r : Rule) (n : ℤ) : Prop :=
  Date.last.toDays < n ∨ r.ByMonths ∧ Date.last.toDays - 31 < n

/-- What is found first in ascending order is the least of its kind. -/
lemma le_of_find?_eq_some {days : List ℕ} (hs : days.Pairwise (· < ·)) {p : ℕ → Bool} {a k : ℕ}
    (h : days.find? p = some a) (hk : k ∈ days) (hp : p k = true) : a ≤ k := by
  obtain ⟨-, as, bs, rfl, hbefore⟩ := List.find?_eq_some_iff_append.1 h
  rcases List.mem_append.1 hk with hk | hk
  · simpa [hp] using hbefore k hk
  · rcases List.mem_cons.1 hk with rfl | hk
    · exact le_rfl
    · exact (List.rel_of_pairwise_cons (List.pairwise_append.1 hs).2.1 hk).le

/-- The next of the days, counted from day `d` on, is the first one later. -/
lemma isLeast_daysAhead {days : List ℕ} (hs : days.Pairwise (· < ·)) (h6 : ∀ k ∈ days, k ≤ 6)
    (hne : days ≠ []) (d : ℤ) :
    IsLeast {n : ℤ | d < n ∧ (n % 7).toNat ∈ days}
      (d + (daysAhead (d % 7).toNat days : ℕ)) := by
  obtain ⟨w, hw⟩ : ∃ w, w = (d % 7).toNat := ⟨_, rfl⟩
  obtain ⟨first, rest, rfl⟩ := List.exists_cons_of_ne_nil hne
  have hf6 := h6 first (by simp)
  rw [← hw]
  unfold daysAhead
  simp only
  split
  · -- a selected day is still ahead in this week
    next later hl =>
    have hmem := List.mem_of_find?_eq_some hl
    have hgt : w < later := by simpa using List.find?_some hl
    have hl6 := h6 later hmem
    refine ⟨⟨by omega, ?_⟩, ?_⟩
    · rwa [show ((d + (later - w : ℕ)) % 7).toNat = later by omega]
    · rintro n ⟨hn, hsel⟩
      by_contra hc
      have := le_of_find?_eq_some hs hl hsel (decide_eq_true (by omega))
      omega
  · -- the week is over
    next hl =>
    have hle : ∀ k ∈ first :: rest, k ≤ w := by simpa using hl
    have hmin : ∀ k ∈ first :: rest, first ≤ k := fun k hk =>
      le_of_find?_eq_some hs (p := fun _ => true) rfl hk rfl
    refine ⟨⟨by omega, ?_⟩, ?_⟩
    · rw [show ((d + (7 - w + first : ℕ)) % 7).toNat = first by omega]
      simp
    · rintro n ⟨hn, hsel⟩
      have h1 := hle _ hsel
      have h2 := hmin _ hsel
      by_contra hc
      omega

lemma sortedDays_eq_nil_iff {r : Rule} : r.sortedDays = [] ↔ r.days.getD [] = [] := by
  simp only [List.eq_nil_iff_forall_not_mem, mem_sortedDays]

lemma sortedDays_le {r : Rule} (hr : ∀ k ∈ r.days.getD [], k ≤ 6) : ∀ k ∈ r.sortedDays, k ≤ 6 :=
  fun k hk => hr k (mem_sortedDays.1 hk)

lemma dueOn_weekly_iff {r : Rule} (hr : ∀ k ∈ r.days.getD [], k ≤ 6) (hw : r.frequency = .weekly)
    {d : Date} {n : ℤ} :
    r.DueOn d n ↔ n = d.toDays + (daysAhead d.weekday r.sortedDays : ℕ) := by
  simp only [DueOn, hw]
  split_ifs with hnil
  · rw [sortedDays_eq_nil_iff.2 hnil]
    rfl
  · have hl := isLeast_daysAhead r.pairwise_sortedDays (sortedDays_le hr)
      (mt sortedDays_eq_nil_iff.1 hnil) d.toDays
    simp only [mem_sortedDays] at hl
    exact ⟨fun h => h.unique hl, fun h => h ▸ hl⟩

lemma exists_dueOn {r : Rule} (hr : ∀ k ∈ r.days.getD [], k ≤ 6) (d : Date) :
    ∃ n, r.DueOn d n := by
  cases hf : r.frequency with
  | daily => exact ⟨d.toDays + 1, by simp [DueOn, hf]⟩
  | weekly => exact ⟨_, (dueOn_weekly_iff hr hf).2 rfl⟩
  | monthly =>
    obtain ⟨n, hn⟩ := d.exists_monthsBefore 1
    exact ⟨n, by simpa [DueOn, hf] using hn⟩
  | yearly =>
    obtain ⟨n, hn⟩ := d.exists_monthsBefore 12
    exact ⟨n, by simpa [DueOn, hf] using hn⟩

lemma DueOn.unique {r : Rule} (hr : ∀ k ∈ r.days.getD [], k ≤ 6) {d : Date} {n n' : ℤ}
    (h : r.DueOn d n) (h' : r.DueOn d n') : n = n' := by
  cases hf : r.frequency with
  | daily =>
    simp only [DueOn, hf] at h h'
    rw [h, h']
  | weekly => rw [(dueOn_weekly_iff hr hf).1 h, (dueOn_weekly_iff hr hf).1 h']
  | monthly =>
    simp only [DueOn, hf] at h h'
    exact h.unique h'
  | yearly =>
    simp only [DueOn, hf] at h h'
    exact h.unique h'

lemma daysAhead_pos {w : ℕ} (hw : w < 7) (days : List ℕ) : 0 < daysAhead w days := by
  unfold daysAhead
  split
  · omega
  · split
    · next later hl =>
      have : w < later := by simpa using List.find?_some hl
      omega
    · omega

/-- A rule falls due later. -/
lemma DueOn.lt {r : Rule} (hr : ∀ k ∈ r.days.getD [], k ≤ 6) {d : Date} {n : ℤ}
    (h : r.DueOn d n) : d.toDays < n := by
  cases hf : r.frequency with
  | daily =>
    simp only [DueOn, hf] at h
    omega
  | weekly =>
    have := daysAhead_pos d.weekday.isLt r.sortedDays
    rw [(dueOn_weekly_iff hr hf).1 h]
    omega
  | monthly =>
    simp only [DueOn, hf] at h
    exact h.lt one_pos
  | yearly =>
    simp only [DueOn, hf] at h
    exact h.lt (by norm_num)

lemma outOfReach_iff_of_not_byMonths {r : Rule} (h : ¬ r.ByMonths) {n : ℤ} :
    r.OutOfReach n ↔ Date.last.toDays < n := by
  simp [OutOfReach, h]

lemma outOfReach_iff_of_byMonths {r : Rule} (h : r.ByMonths) {n : ℤ} :
    r.OutOfReach n ↔ Date.last.toDays - 31 < n := by
  simp only [OutOfReach, h, true_and]
  omega

/-- The date after is the day that the rule calls for, within reach. -/
lemma nextDate?_eq_some_iff {r : Rule} (hr : ∀ k ∈ r.days.getD [], k ≤ 6) {d e : Date} :
    r.nextDate? d = some e ↔ r.DueOn d e.toDays ∧ ¬ r.OutOfReach e.toDays := by
  have hlast := e.le_last
  have hmonths := e.monthNumber_lt_last_iff
  cases hf : r.frequency with
  | daily =>
    rw [outOfReach_iff_of_not_byMonths (by simp [ByMonths, hf])]
    simp only [nextDate?, DueOn, hf, Date.succ?, Date.addDays?_eq_some_iff]
    omega
  | weekly =>
    rw [outOfReach_iff_of_not_byMonths (by simp [ByMonths, hf]), dueOn_weekly_iff hr hf]
    simp only [nextDate?, hf, Date.addDays?_eq_some_iff]
    omega
  | monthly =>
    rw [outOfReach_iff_of_byMonths (Or.inl hf)]
    simp only [nextDate?, DueOn, hf, Date.addMonths?_eq_some_iff, Date.monthsBefore_toDays_iff,
      hmonths]
    omega
  | yearly =>
    rw [outOfReach_iff_of_byMonths (Or.inr hf)]
    simp only [nextDate?, DueOn, hf, Date.addMonths?_eq_some_iff, Date.monthsBefore_toDays_iff,
      hmonths]
    omega

lemma nextDate?_eq_none_iff {r : Rule} (hr : ∀ k ∈ r.days.getD [], k ≤ 6) {d : Date} {n : ℤ}
    (hn : r.DueOn d n) : r.nextDate? d = none ↔ r.OutOfReach n := by
  constructor
  · intro h
    by_contra hc
    have hle : n ≤ Date.last.toDays := by
      by_contra hlt
      exact hc (Or.inl (by omega))
    obtain ⟨e, rfl⟩ := Date.exists_toDays_eq (by have := hn.lt hr; have := d.first_le; omega) hle
    rw [(nextDate?_eq_some_iff hr).2 ⟨hn, hc⟩] at h
    cases h
  · intro h
    cases he : r.nextDate? d with
    | none => rfl
    | some e =>
      obtain ⟨hd, hc⟩ := (nextDate?_eq_some_iff hr).1 he
      exact absurd (hn.unique hr hd ▸ h) hc

/-- **The date after a date is exactly the day that the rule calls for.** It fails to exist only
where that day is out of reach, and an instant's time of day is kept. -/
theorem next_due_day {r : Rule} (hr : ∀ k ∈ r.days.getD [], k ≤ 6) (i : Instant) :
    ∃ n, r.DueOn i.date n ∧ (∀ m, r.DueOn i.date m → m = n) ∧
      (∀ e, r.nextDate? i.date = some e → e.toDays = n) ∧
      (r.nextDate? i.date = none ↔ r.OutOfReach n) ∧
      (∀ j, r.next? i = some j → j.date.toDays = n ∧ j.time = i.time) ∧
      (r.next? i = none ↔ r.OutOfReach n) := by
  obtain ⟨n, hn⟩ := exists_dueOn hr i.date
  have hsome : ∀ e, r.nextDate? i.date = some e → e.toDays = n := fun e he =>
    ((nextDate?_eq_some_iff hr).1 he).1.unique hr hn
  refine ⟨n, hn, fun m hm => hm.unique hr hn, hsome, nextDate?_eq_none_iff hr hn, ?_, ?_⟩
  · intro j hj
    obtain ⟨e, he, rfl⟩ := Option.map_eq_some_iff.1 hj
    exact ⟨hsome e he, rfl⟩
  · rw [next?, Option.map_eq_none_iff]
    exact nextDate?_eq_none_iff hr hn

/-- Fridays and Mondays, from noon of a Wednesday on. -/
theorem next_due_day_of_friday_and_monday :
    let r : Rule := ⟨.weekly, some [5, 1, 5]⟩
    let i : Instant := ⟨⟨2025, 3, 5, by decide, by decide, by decide, by decide⟩, .noon⟩
    (∀ k ∈ r.days.getD [], k ≤ 6) ∧
      ∃ n, r.DueOn i.date n ∧ (∀ m, r.DueOn i.date m → m = n) ∧
        (∀ e, r.nextDate? i.date = some e → e.toDays = n) ∧
        (r.nextDate? i.date = none ↔ r.OutOfReach n) ∧
        (∀ j, r.next? i = some j → j.date.toDays = n ∧ j.time = i.time) ∧
        (r.next? i = none ↔ r.OutOfReach n) :=
  ⟨by decide, next_due_day (by decide) _⟩

/-- 15 December of the last year is a day of the calendar, and no monthly rule reaches it. -/
theorem nextDate?_last_november :
    let r : Rule := ⟨.monthly, none⟩
    let d : Date := ⟨262142, 11, 15, by decide, by decide, by decide, by decide⟩
    let e : Date := ⟨262142, 12, 15, by decide, by decide, by decide, by decide⟩
    r.DueOn d e.toDays ∧ e.toDays ≤ Date.last.toDays ∧ r.nextDate? d = none := by
  refine ⟨⟨262142, 12, ?_⟩, ?_, ?_⟩ <;> decide

end Rule

end TaskCapture
