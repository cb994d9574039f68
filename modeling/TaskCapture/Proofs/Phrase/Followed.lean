import TaskCapture.Proofs.Phrase.Written

/-!
Words that no phrase goes on with: a date in writing, and a word with a colon in it. What begins
before such a word is read as if nothing followed.
-/

namespace TaskCapture.Phrase

open Text

/-- A word that no day goes on with: it is no year, no unit and no half of the day. -/
structure EndsDay (w : Text) : Prop where
  year : year? w = none
  unit : meaning unitWords w = none
  ne_am : w ≠ "am".toList
  ne_pm : w ≠ "pm".toList

/-- A word that no phrase goes on with, whether that is a day already or not yet. -/
structure IsForeign (w : Text) : Prop extends EndsDay w where
  amount : ∀ ws, amount? (w :: ws) = none
  monthDay : monthDay? w = none
  nextDay : ∀ today, nextDay? today w = none
  weekday : meaning weekdayWords w = none

variable {v vs : List Text} {w : Text} {d : Date}

/-! ### Words before them -/

lemma bareClock?_append_of_endsDay (hv : v ≠ []) (hvs : ∀ x ∈ vs.head?, EndsDay x) :
    bareClock? (v ++ vs) = bareClock? v := by
  obtain ⟨w, ws, rfl⟩ := List.exists_cons_of_ne_nil hv
  rw [List.cons_append, bareClock?.eq_def, bareClock?.eq_def]
  simp only
  cases ws with
  | cons x xs => rfl
  | nil =>
    cases vs with
    | nil => rfl
    | cons x xs =>
      have hx := hvs x rfl
      simp only [List.nil_append, hx.ne_am, hx.ne_pm, or_self, false_and, if_false]

/-- The word `at` alone may go on with a time. -/
lemma clock?_append_of_ne_at (hv : v ≠ []) (hat : v ≠ ["at".toList])
    (hvs : ∀ x ∈ vs.head?, EndsDay x) : clock? (v ++ vs) = clock? v := by
  obtain ⟨w, ws, rfl⟩ := List.exists_cons_of_ne_nil hv
  rw [List.cons_append, clock?, clock?]
  split_ifs with h
  · have hws : ws ≠ [] := by
      rintro rfl
      exact hat (by rw [h])
    rw [bareClock?_append_of_endsDay hws hvs]
  · rw [← List.cons_append, bareClock?_append_of_endsDay hv hvs]

lemma amount?_append_foreign (hw : IsForeign w) (ws : List Text) :
    amount? (v ++ w :: ws) = amount? v := by
  match v with
  | [] => exact hw.amount ws
  | [x] =>
    rw [List.singleton_append, amount?, amount?]
    simp [hw.unit]
  | x :: y :: v => rfl

lemma afterMonth?_append_foreign (hw : IsForeign w) (today : Date) (m : ℕ) (ws : List Text) :
    afterMonth? today m (v ++ w :: ws) = afterMonth? today m v := by
  match v with
  | [] => simp [afterMonth?, hw.monthDay]
  | [x] => simp [afterMonth?, hw.year]
  | x :: y :: v => rfl

/-- What the second word says is not said by a word that says nothing. -/
lemma head?_bind_append_of_eq_none {β : Type} {f : Text → Option β} (hf : f w = none)
    (v ws : List Text) : (v ++ w :: ws).head?.bind f = v.head?.bind f := by
  cases v with
  | nil => simp [hf]
  | cons x v => rfl

theorem day?_append_foreign (hv : v ≠ []) (hw : IsForeign w) (ref : Instant) (ws : List Text) :
    day? ref (v ++ w :: ws) = day? ref v := by
  obtain ⟨x, v, rfl⟩ := List.exists_cons_of_ne_nil hv
  rw [List.cons_append, day?, day?]
  simp only [head?_bind_append_of_eq_none (hw.nextDay ref.date),
    head?_bind_append_of_eq_none hw.weekday, amount?_append_foreign hw, plainDay?,
    afterMonth?_append_foreign hw]

/-! ### Two kinds of them -/

/-- A hyphen or a colon is in no word of the tables, and in no number without a sign. -/
lemma isForeign_of_mem {c : Char} (hw : c ∈ w) (hc : c = '-' ∨ c = ':') (hyear : year? w = none) :
    IsForeign w := by
  have hno : ∀ v ∈ ["am", "pm", "week", "month", "year"], w ≠ v.toList := by
    intro v hv
    have h : (["am", "pm", "week", "month", "year"].all fun v => !v.toList.contains c) = true := by
      rcases hc with rfl | rfl <;> decide
    exact ne_of_mem_of_contains hw (by simpa using List.all_eq_true.1 h v hv)
  simp only [List.mem_cons, List.not_mem_nil, or_false, forall_eq_or_imp, forall_eq] at hno
  obtain ⟨ham, hpm, hweek, hmonth, hyearWord⟩ := hno
  have hnumber {u : Text} (hu : c ∈ u) : readNat maxWord u = none := by
    rcases hc with rfl | rfl <;> exact readNat_eq_none (by decide) (by decide) hu
  have hunit {u : Text} (hu : c ∈ u) : meaning unitWords u = none :=
    meaning_eq_none hu (by rcases hc with rfl | rfl <;> decide)
  have hweekday : meaning weekdayWords w = none :=
    meaning_eq_none hw (by rcases hc with rfl | rfl <;> decide)
  have hdigit : isAsciiDigit c = false := by rcases hc with rfl | rfl <;> decide
  refine ⟨⟨hyear, hunit hw, ham, hpm⟩, fun ws => ?_, ?_, fun today => ?_, hweekday⟩
  · have hdrop : c ∈ w.dropWhile isAsciiDigit := by
      rw [← List.takeWhile_append_dropWhile (p := isAsciiDigit) (l := w)] at hw
      rcases List.mem_append.1 hw with h | h
      · exact absurd (List.mem_takeWhile_imp h) (by simp [hdigit])
      · exact h
    have hnone : number? w = none := by
      rw [number?, meaning_eq_none hw (by rcases hc with rfl | rfl <;> decide), hnumber hw]
      rfl
    rw [amount?, hnone]
    simp [hunit hdrop]
  · have hrest :
        c ∈ (["st", "nd", "rd", "th"].findSome? fun e => dropEnding? e.toList w).getD w := by
      cases h : ["st", "nd", "rd", "th"].findSome? fun e => dropEnding? e.toList w with
      | none => exact hw
      | some u =>
        obtain ⟨e, he, hu⟩ := List.exists_of_findSome?_eq_some h
        rw [eq_append_of_dropEnding? hu] at hw
        rcases List.mem_append.1 hw with h | h
        · exact h
        · have hall : (["st", "nd", "rd", "th"].all fun e => !e.toList.contains c) = true := by
            rcases hc with rfl | rfl <;> decide
          have := List.all_eq_true.1 hall e he
          simp [h] at this
    rw [monthDay?, hnumber hrest]
    rfl
  · rw [nextDay?, hweekday]
    simp only [hweek, hmonth, hyearWord, if_false]

lemma isForeign_dateText (d : Date) : IsForeign d.text := by
  have hlen : d.text.length ≠ 4 := by simp [Date.text]
  exact isForeign_of_mem d.hyphen_mem_text (.inl rfl) (by rw [year?, if_neg hlen])

lemma isForeign_of_colon (hw : ':' ∈ w) : IsForeign w := by
  refine isForeign_of_mem hw (.inr rfl) ?_
  rw [year?, readInt_eq_none (c := ':') (by decide) (by decide) (by decide) hw, ite_self]

/-! ### A date after other words -/

lemma clock?_append_dateText (hv : v ≠ []) (r : List Text) :
    clock? (v ++ d.text :: r) = clock? v := by
  have hends : ∀ x ∈ (d.text :: r).head?, EndsDay x := by
    rintro _ ⟨⟩
    exact (isForeign_dateText d).toEndsDay
  by_cases hat : v = ["at".toList]
  · have hd := clock?_dateText d r
    rw [clock?, if_neg (ne_of_mem_of_contains d.hyphen_mem_text (by decide))] at hd
    rw [hat, List.singleton_append, clock?, if_pos rfl, hd]
    rfl
  · exact clock?_append_of_ne_at hv hat hends

/-- A phrase that begins before a date is a phrase already without it, seen from the midnight of
some day. -/
theorem exists_reading?_of_append_dateText {ref : Instant} {r : List Text} (hv : v ≠ [])
    (h : (reading? ref (v ++ d.text :: r)).isSome) :
    ∃ ref', (reading? ref' v).isSome := by
  unfold reading? at h
  rw [clock?_append_dateText hv, day?_append_foreign hv (isForeign_dateText d)] at h
  cases hc : clock? v with
  | some cn =>
    obtain ⟨c, n⟩ := cn
    refine ⟨⟨ref.date, .midnight⟩, ?_⟩
    -- no time of day lies before midnight
    have hm : ¬ c.toSeconds < Clock.midnight.toSeconds := Nat.not_lt_zero _
    unfold reading?
    simp only [hc, if_neg hm]
    split <;> rfl
  | none =>
    refine ⟨ref, ?_⟩
    simp only [hc, Option.isSome_map] at h
    simp only [reading?, hc, Option.isSome_map]
    exact h

end TaskCapture.Phrase
