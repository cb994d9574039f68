import TaskCapture.Proofs.Recurrence.Schedule
import TaskCapture.Proofs.Text.Split

/-!
What the description of a rule tells: its frequency and, for a weekly rule, the set of its days. The
order and the repetitions of the days, and the days of a rule that is not weekly, leave no trace in
it; nor do they in the dates, so rules of one description fall due at the same instants.
-/

namespace TaskCapture.Rule

variable {r s : Rule}

/-! ### The days in words -/

/-- The names of days. -/
def dayNames (ds : List ℕ) : List Text := ds.filterMap fun d => weekdayNames[d]?.map (·.toList)

/-- The day that has a name. -/
def dayOfName (w : Text) : ℕ := (weekdayNames.map (·.toList)).idxOf w

lemma exists_dayName {d : ℕ} (h : d ≤ 6) :
    ∃ w, weekdayNames[d]?.map (·.toList) = some w ∧ w.length = 3 ∧ dayOfName w = d := by
  interval_cases d <;> exact ⟨_, rfl, rfl, by decide⟩

lemma dayNames_cons {d : ℕ} {ds : List ℕ} {w : Text}
    (h : weekdayNames[d]?.map (·.toList) = some w) : dayNames (d :: ds) = w :: dayNames ds :=
  List.filterMap_cons_some h

/-- The days are read back from their names. -/
lemma map_dayOfName_dayNames {ds : List ℕ} (h : ∀ d ∈ ds, d ≤ 6) :
    (dayNames ds).map dayOfName = ds := by
  induction ds with
  | nil => rfl
  | cons d ds ih =>
    obtain ⟨w, hw, -, hd⟩ := exists_dayName (h d (by simp))
    rw [dayNames_cons hw, List.map_cons, hd, ih fun e he => h e (by simp [he])]

lemma length_of_mem_dayNames {ds : List ℕ} (h : ∀ d ∈ ds, d ≤ 6) {w : Text}
    (hw : w ∈ dayNames ds) : w.length = 3 := by
  obtain ⟨d, hd, hdw⟩ := List.mem_filterMap.1 hw
  obtain ⟨v, hv, hlen, -⟩ := exists_dayName (h d hd)
  rw [hv, Option.some.injEq] at hdw
  rw [← hdw, hlen]

/-- Ascending and each once, the days are known by which they are. -/
lemma sortedDays_eq_iff :
    r.sortedDays = s.sortedDays ↔ ∀ k, k ∈ r.days.getD [] ↔ k ∈ s.days.getD [] := by
  constructor
  · intro h k
    rw [← mem_sortedDays, h, mem_sortedDays]
  · intro h
    exact r.pairwise_sortedDays.eq_of_mem_iff s.pairwise_sortedDays fun k => by
      rw [mem_sortedDays, h, mem_sortedDays]

/-! ### Rules in words -/

lemma describe_weekly (hw : r.frequency = .weekly) :
    r.describe = "every week".toList ++ (if r.sortedDays = [] then []
      else " on ".toList ++ List.intercalate ", ".toList (dayNames r.sortedDays)) := by
  unfold describe
  simp only [hw, List.isEmpty_iff]
  split_ifs <;> rfl

/-- The seventh letter tells the frequency. -/
lemma getElem?_describe (r : Rule) : r.describe[6]? = r.frequency.keyword.toList.head? := by
  cases hf : r.frequency with
  | weekly => rw [describe_weekly hf]; rfl
  | _ => simp only [describe, hf]; rfl

lemma frequency_of_describe_eq (h : r.describe = s.describe) : r.frequency = s.frequency := by
  have hl : r.frequency.keyword.toList.head? = s.frequency.keyword.toList.head? := by
    rw [← getElem?_describe, h, getElem?_describe]
  cases hr : r.frequency <;> cases hs : s.frequency <;> simp_all [Frequency.keyword]

lemma sortedDays_of_describe_eq (hr : ∀ k ∈ r.days.getD [], k ≤ 6)
    (hs : ∀ k ∈ s.days.getD [], k ≤ 6) (hrw : r.frequency = .weekly) (hsw : s.frequency = .weekly)
    (h : r.describe = s.describe) : r.sortedDays = s.sortedDays := by
  have hne {ds : List ℕ} (hds : ∀ d ∈ ds, d ≤ 6) (hnil : ds ≠ []) : dayNames ds ≠ [] := by
    intro hc
    rw [← map_dayOfName_dayNames hds, hc] at hnil
    exact hnil rfl
  rw [describe_weekly hrw, describe_weekly hsw, List.append_cancel_left_eq] at h
  split_ifs at h with hrn hsn hsn
  · rw [hrn, hsn]
  · simp at h
  · simp at h
  · have hr := sortedDays_le hr
    have hs := sortedDays_le hs
    have hnames : dayNames r.sortedDays = dayNames s.sortedDays :=
      Text.eq_of_intercalate_eq (n := 3) (by decide) (fun w => length_of_mem_dayNames hr)
        (fun w => length_of_mem_dayNames hs) (List.append_cancel_left h) (hne hr hrn)
        (hne hs hsn)
    rw [← map_dayOfName_dayNames hr, hnames, map_dayOfName_dayNames hs]

lemma describe_congr (hf : r.frequency = s.frequency)
    (hd : r.frequency = .weekly → r.sortedDays = s.sortedDays) : r.describe = s.describe := by
  cases h : r.frequency with
  | weekly => rw [describe_weekly h, describe_weekly (hf ▸ h), hd h]
  | _ => simp only [describe, ← hf, h]

lemma next?_congr (hf : r.frequency = s.frequency)
    (hd : r.frequency = .weekly → r.sortedDays = s.sortedDays) (i : Instant) :
    r.next? i = s.next? i := by
  unfold next? nextDate?
  cases h : r.frequency with
  | weekly => simp only [← hf, h, hd h]
  | _ => simp only [← hf, h]

lemma occurrences_congr (h : ∀ i, r.next? i = s.next? i) (n : ℕ) (i : Instant) :
    r.occurrences n i = s.occurrences n i := by
  induction n generalizing i with
  | zero => rfl
  | succ n ih =>
    cases hi : r.next? i with
    | none => rw [occurrences_succ_of_none hi, occurrences_succ_of_none (h i ▸ hi)]
    | some j => rw [occurrences_succ_of_some hi, occurrences_succ_of_some (h i ▸ hi), ih]

/-- **What a description tells.** Two rules whose days all have a name are described alike just if
they have the same frequency and, if that is weekly, the same days in whatever order and number; and
rules that are described alike fall due at the same instants, one after the other. -/
theorem describe_eq_iff (hr : ∀ k ∈ r.days.getD [], k ≤ 6) (hs : ∀ k ∈ s.days.getD [], k ≤ 6) :
    (r.describe = s.describe ↔ r.frequency = s.frequency ∧
      (r.frequency = .weekly → ∀ k, k ∈ r.days.getD [] ↔ k ∈ s.days.getD [])) ∧
    (r.describe = s.describe →
      (∀ i, r.next? i = s.next? i) ∧ ∀ n i, r.occurrences n i = s.occurrences n i) := by
  have hiff : r.describe = s.describe ↔ r.frequency = s.frequency ∧
      (r.frequency = .weekly → r.sortedDays = s.sortedDays) := by
    constructor
    · intro h
      have hf := frequency_of_describe_eq h
      exact ⟨hf, fun hw => sortedDays_of_describe_eq hr hs hw (hf ▸ hw) h⟩
    · rintro ⟨hf, hd⟩
      exact describe_congr hf hd
  refine ⟨by rw [hiff, sortedDays_eq_iff], fun h => ?_⟩
  obtain ⟨hf, hd⟩ := hiff.1 h
  exact ⟨next?_congr hf hd, occurrences_congr (next?_congr hf hd)⟩

/-- Fridays and Mondays, with the Friday given twice or once. -/
theorem describe_eq_iff_of_friday_and_monday :
    let r : Rule := ⟨.weekly, some [5, 1, 5]⟩
    let s : Rule := ⟨.weekly, some [1, 5]⟩
    (∀ k ∈ r.days.getD [], k ≤ 6) ∧ (∀ k ∈ s.days.getD [], k ≤ 6) ∧
      r.describe = "every week on Mon, Fri".toList ∧ r.describe = s.describe ∧
      ∀ n i, r.occurrences n i = s.occurrences n i := by
  intro r s
  have hr : ∀ k ∈ r.days.getD [], k ≤ 6 := by decide
  have hs : ∀ k ∈ s.days.getD [], k ≤ 6 := by decide
  obtain ⟨hiff, hsame⟩ := describe_eq_iff hr hs
  have h : r.describe = s.describe := hiff.2 ⟨rfl, fun _ k => by simp [r, s]; omega⟩
  exact ⟨hr, hs, by decide, h, (hsame h).2⟩

end TaskCapture.Rule
