import TaskCapture.Proofs.Json.Compact
import TaskCapture.Recurrence.Stored

/-!
Stored rules are read back. What is written for a rule is a JSON text with just its frequency and
its days, and a rule that has been read has no day after Saturday.
-/

namespace TaskCapture.Rule

/-- The days are numbers of one byte, as they are stored. -/
def DaysFit (r : Rule) : Prop := ∀ d ∈ r.days.getD [], d ≤ 255

/-- Every day of the rule is a day of the week. -/
def DaysNamed (r : Rule) : Prop := ∀ d ∈ r.days.getD [], d ≤ 6

instance (r : Rule) : Decidable r.DaysNamed :=
  inferInstanceAs (Decidable (∀ d ∈ r.days.getD [], d ≤ 6))

lemma DaysNamed.daysFit {r : Rule} (h : r.DaysNamed) : r.DaysFit :=
  fun d hd => (h d hd).trans (by decide)

/-- An object with a string and perhaps a list of numbers. -/
lemma writable_toJson {r : Rule} (h : r.DaysFit) : Json.Writable Json.maxDepth r.toJson := by
  intro m hm
  rcases List.mem_cons.1 hm with rfl | hm
  · trivial
  · cases hdays : r.days with
    | none => simp [hdays] at hm
    | some ds =>
      obtain rfl : m = (daysName, .arr (ds.map fun d : ℕ => .int d)) := by simpa [hdays] using hm
      intro v hv
      obtain ⟨d, hd, rfl⟩ := List.mem_map.1 hv
      have hle : d ≤ 255 := h d (by simpa [hdays] using hd)
      exact Json.inRange_decimal (show (d : ℤ).natAbs < 2 ^ 53 by omega)

lemma mapM_byteOfJson? {ds : List ℕ} (h : ∀ d ∈ ds, d ≤ 255) :
    (ds.map fun d : ℕ => Json.int d).mapM byteOfJson? = some ds := by
  induction ds with
  | nil => rfl
  | cons d ds ih =>
    have hd : d ≤ 255 := h d (by simp)
    simp [byteOfJson?, hd, ih fun e he => h e (by simp [he])]

lemma ofJson_toJson {r : Rule} (h : r.DaysFit) :
    ofJson r.toJson = if r.DaysNamed then .ok r else .error .weekdayRange := by
  obtain ⟨f, days⟩ := r
  have hnames : daysName ≠ frequencyName := by decide
  have hfrequency := Frequency.ofKeyword?_keyword f
  cases days with
  | none => simp [ofJson, toJson, Json.member?, daysOfJson?, hnames.symm, hfrequency, DaysNamed]
  | some ds =>
    have hmap := mapM_byteOfJson? h
    rw [Option.getD_some] at hmap
    have hread : ofJson (toJson ⟨f, some ds⟩) =
        if ds.any (6 < ·) then .error .weekdayRange else .ok ⟨f, some ds⟩ := by
      simp [ofJson, toJson, Json.member?, daysOfJson?, hnames, hnames.symm, hfrequency, hmap]
    have hday : ds.any (6 < ·) = true ↔ ¬(⟨f, some ds⟩ : Rule).DaysNamed := by simp [DaysNamed]
    rw [hread, if_congr hday rfl rfl, ite_not]

lemma ofStored_stored {r : Rule} (h : r.DaysFit) :
    ofStored r.stored = if r.DaysNamed then .ok r else .error .weekdayRange := by
  rw [ofStored, stored, Json.read?_compact (writable_toJson h)]
  exact ofJson_toJson h

/-- A rule that was read has no day after Saturday. -/
lemma daysNamed_of_ofStored {t : Text} {r : Rule} (h : ofStored t = .ok r) : r.DaysNamed := by
  unfold ofStored ofJson at h
  split at h
  · cases h
  · split at h
    · split at h
      · split at h
        · split_ifs at h with hday
          cases h
          simpa [DaysNamed] using hday
        · cases h
      · cases h
    · cases h

/-- **Stored rules round-trip**: the rule under the text that is written for it is the rule itself,
with the order and the repetitions of its days, if each of them is a day of the week, and none if
one is not. So whatever text a rule was read from, what is written for it is read as the same rule
and written again as it stands. -/
theorem ofStored?_stored :
    (∀ r : Rule, r.DaysFit → ofStored? r.stored = if r.DaysNamed then some r else none) ∧
      ∀ t r, ofStored? t = some r →
        ofStored? r.stored = some r ∧ (ofStored? r.stored).map stored = some r.stored := by
  have hstored : ∀ r : Rule, r.DaysFit →
      ofStored? r.stored = if r.DaysNamed then some r else none := by
    intro r h
    rw [ofStored?, ofStored_stored h]
    split_ifs <;> rfl
  refine ⟨hstored, fun t r h => ?_⟩
  have hnamed : r.DaysNamed := by
    unfold ofStored? at h
    cases hr : ofStored t with
    | error e => simp [hr, Except.toOption] at h
    | ok s =>
      obtain rfl : s = r := by simpa [hr, Except.toOption] using h
      exact daysNamed_of_ofStored hr
  have hback : ofStored? r.stored = some r := by rw [hstored r hnamed.daysFit, if_pos hnamed]
  exact ⟨hback, by rw [hback, Option.map_some]⟩

/-- Repeated days and an empty list of them are kept, and a day after Saturday is refused; a text
with blanks, another member and the days first is read, and written anew. -/
theorem ofStored?_stored_of_friday :
    let fridays : Rule := ⟨.weekly, some [5, 1, 5]⟩
    let never : Rule := ⟨.daily, some []⟩
    let eighth : Rule := ⟨.weekly, some [1, 7]⟩
    let t := " \x7b\"daysOfWeek\": [5, 1, 5], \"x\": [1.5e3], \"frequency\": \"weekly\"\x7d".toList
    ofStored? fridays.stored = some fridays ∧ ofStored? never.stored = some never ∧
      ofStored? eighth.stored = none ∧ ofStored? t = some fridays ∧
        (ofStored? fridays.stored).map stored = some fridays.stored ∧ fridays.stored ≠ t := by
  intro fridays never eighth t
  have hfit : fridays.DaysFit ∧ never.DaysFit ∧ eighth.DaysFit := by
    refine ⟨?_, ?_, ?_⟩ <;> unfold DaysFit <;> decide
  have ht : ofStored? t = some fridays := by decide +kernel
  refine ⟨ofStored?_stored.1 fridays hfit.1, ofStored?_stored.1 never hfit.2.1,
    ofStored?_stored.1 eighth hfit.2.2, ht, (ofStored?_stored.2 t fridays ht).2, by decide +kernel⟩

end TaskCapture.Rule
