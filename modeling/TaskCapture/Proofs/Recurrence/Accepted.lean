import TaskCapture.Proofs.Json.Soundness
import TaskCapture.Proofs.Recurrence.Stored

/-!
Which texts are rules: the JSON texts of an object with a known word for its frequency and, where
days are given, a list of numbers from 0 to 6. Its other members may be anything. Of several members
with one name the last counts.
-/

namespace TaskCapture

namespace Json

/-- The last member with the name has this value. -/
def Holds (ms : List (Text × Json)) (name : Text) (v : Json) : Prop :=
  ∃ before after, ms = before ++ (name, v) :: after ∧ ∀ m ∈ after, m.1 ≠ name

/-- No member has the name. -/
def Lacks (ms : List (Text × Json)) (name : Text) : Prop := ∀ m ∈ ms, m.1 ≠ name

variable {ms : List (Text × Json)} {name : Text}

lemma member?_eq_none_iff : member? name ms = none ↔ Lacks ms name := by
  induction ms with
  | nil => simp [member?, Lacks]
  | cons m ms ih =>
    rw [member?, Option.or_eq_none_iff, ih]
    simp [Lacks, and_comm]

lemma member?_eq_some_iff {v : Json} : member? name ms = some v ↔ Holds ms name v := by
  constructor
  · intro h
    induction ms with
    | nil => cases h
    | cons m ms ih =>
      rw [member?, Option.or_eq_some_iff] at h
      rcases h with h | ⟨hnone, h⟩
      · obtain ⟨before, after, rfl, hafter⟩ := ih h
        exact ⟨m :: before, after, rfl, hafter⟩
      · split_ifs at h with hname
        cases h
        exact ⟨[], ms, by rw [← hname]; rfl, member?_eq_none_iff.1 hnone⟩
  · rintro ⟨before, after, rfl, hafter⟩
    induction before with
    | nil =>
      rw [List.nil_append, member?, member?_eq_none_iff.2 hafter]
      simp
    | cons m before ih => rw [List.cons_append, member?, ih, Option.some_or]

end Json

namespace Frequency

lemma ofKeyword?_eq_some_iff {w : Text} {f : Frequency} :
    ofKeyword? w = some f ↔ w = f.keyword.toList := by
  constructor
  · intro h
    have := List.find?_some h
    exact (beq_iff_eq.1 this).symm
  · rintro rfl
    exact ofKeyword?_keyword f

end Frequency

namespace Rule

/-- What the members of an object say of the days: without such a member, or with null, there are
none. -/
inductive DaysIn (ms : List (Text × Json)) : Option (List ℕ) → Prop
  | absent (h : Json.Lacks ms daysName) : DaysIn ms none
  | null (h : Json.Holds ms daysName .null) : DaysIn ms none
  | list {ds : List ℕ} (h : Json.Holds ms daysName (.arr (ds.map fun d : ℕ => .int d)))
      (hds : ∀ d ∈ ds, d ≤ 6) : DaysIn ms (some ds)

/-- The members of an object that writes the rule. -/
structure WrittenIn (r : Rule) (ms : List (Text × Json)) : Prop where
  frequency : Json.Holds ms frequencyName (.str r.frequency.keyword.toList)
  days : DaysIn ms r.days

lemma byteOfJson?_eq_some_iff {v : Json} {d : ℕ} :
    byteOfJson? v = some d ↔ v = .int d ∧ d ≤ 255 := by
  cases v with
  | int n =>
    rw [byteOfJson?]
    split_ifs with hn
    · rw [Option.some.injEq, Json.int.injEq]
      omega
    · simp only [Json.int.injEq, false_iff]
      omega
  | _ => simp [byteOfJson?]

lemma mapM_byteOfJson?_eq_some_iff {vs : List Json} {ds : List ℕ} :
    vs.mapM byteOfJson? = some ds ↔ vs = ds.map (fun d : ℕ => .int d) ∧ ∀ d ∈ ds, d ≤ 255 := by
  refine ⟨fun h => ?_, fun ⟨hvs, hds⟩ => hvs ▸ mapM_byteOfJson? hds⟩
  induction vs generalizing ds with
  | nil =>
    obtain rfl : ds = [] := by simpa using h.symm
    simp
  | cons v vs ih =>
    rw [List.mapM_cons] at h
    obtain ⟨d, hd, h⟩ := Option.bind_eq_some_iff.1 h
    obtain ⟨ds', hds, h⟩ := Option.bind_eq_some_iff.1 h
    cases h
    obtain ⟨rfl, hle⟩ := byteOfJson?_eq_some_iff.1 hd
    obtain ⟨rfl, hles⟩ := ih hds
    exact ⟨rfl, List.forall_mem_cons.2 ⟨hle, hles⟩⟩

/-- A list of numbers that fit into a byte is one of days if none is past Saturday. -/
lemma daysOfJson?_iff {ms : List (Text × Json)} {days : Option (List ℕ)} :
    daysOfJson? (Json.member? daysName ms) = some days ∧ (∀ d ∈ days.getD [], d ≤ 6) ↔
      DaysIn ms days := by
  constructor
  · rintro ⟨h, hdays⟩
    cases hm : Json.member? daysName ms with
    | none =>
      rw [hm] at h
      cases h
      exact .absent (Json.member?_eq_none_iff.1 hm)
    | some v =>
      have hholds := Json.member?_eq_some_iff.1 hm
      rw [hm] at h
      cases v with
      | null =>
        cases h
        exact .null hholds
      | arr vs =>
        obtain ⟨ds, hds, rfl⟩ := Option.map_eq_some_iff.1 h
        obtain ⟨rfl, -⟩ := mapM_byteOfJson?_eq_some_iff.1 hds
        exact .list hholds hdays
      | _ => cases h
  · rintro (h | h | ⟨h, hds⟩)
    · rw [Json.member?_eq_none_iff.2 h]
      simp [daysOfJson?]
    · rw [Json.member?_eq_some_iff.2 h]
      simp [daysOfJson?]
    · rw [Json.member?_eq_some_iff.2 h]
      refine ⟨?_, hds⟩
      rw [daysOfJson?, mapM_byteOfJson? fun d hd => (hds d hd).trans (by decide)]
      rfl

lemma ofJson_eq_ok_iff {v : Json} {r : Rule} :
    ofJson v = .ok r ↔ ∃ ms, v = .obj ms ∧ r.WrittenIn ms := by
  constructor
  · intro h
    unfold ofJson at h
    split at h
    · next ms =>
      refine ⟨ms, rfl, ?_⟩
      split at h
      · next name hname =>
        split at h
        · next f days hf hdays =>
          split_ifs at h with hday
          cases h
          have hnamed : ∀ d ∈ days.getD [], d ≤ 6 := by simpa using hday
          refine ⟨?_, daysOfJson?_iff.1 ⟨hdays, hnamed⟩⟩
          rw [← Frequency.ofKeyword?_eq_some_iff.1 hf]
          exact Json.member?_eq_some_iff.1 hname
        · cases h
      · cases h
    · cases h
  · rintro ⟨ms, rfl, hfrequency, hdays⟩
    obtain ⟨hdays, hnamed⟩ := daysOfJson?_iff.2 hdays
    have hday : (r.days.getD []).any (6 < ·) = false := by simpa using hnamed
    simp [ofJson, Json.member?_eq_some_iff.2 hfrequency, Frequency.ofKeyword?_keyword, hdays, hday]

end Rule

end TaskCapture
