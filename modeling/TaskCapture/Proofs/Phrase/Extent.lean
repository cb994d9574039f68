import Mathlib
import TaskCapture.Phrase.Resolver

/-!
How many words a phrase takes up: at least one, and no more than there are.
-/

namespace TaskCapture.Phrase

open Text

lemma used_of_bareClock? {ws : List Text} {c : Clock} {n : ℕ} (h : bareClock? ws = some (c, n)) :
    1 ≤ n ∧ n ≤ ws.length := by
  unfold bareClock? at h
  split at h
  · cases h
  · split at h
    · cases h
      simp
    · split at h
      · split_ifs at h
        obtain ⟨c', -, he⟩ := Option.map_eq_some_iff.1 h
        cases he
        simp
      · cases h

lemma used_of_clock? {ws : List Text} {c : Clock} {n : ℕ} (h : clock? ws = some (c, n)) :
    1 ≤ n ∧ n ≤ ws.length := by
  unfold clock? at h
  split at h
  · cases h
  · split_ifs at h
    · obtain ⟨⟨c', m⟩, hm, he⟩ := Option.map_eq_some_iff.1 h
      cases he
      have := used_of_bareClock? hm
      simp
      omega
    · exact used_of_bareClock? h

lemma used_of_amount? {ws : List Text} {n m : ℕ} {u : TimeUnit}
    (h : amount? ws = some (n, u, m)) : 1 ≤ m ∧ m ≤ ws.length := by
  unfold amount? at h
  split at h
  · cases h
  · next w ws =>
    split at h
    · next n' u' hn hu =>
      cases h
      cases ws with
      | nil => simp at hu
      | cons v vs => simp
    · simp only [Option.bind_eq_bind, Option.pure_def, Option.bind_eq_some_iff] at h
      obtain ⟨_, -, _, -, he⟩ := h
      cases he
      simp

lemma used_of_ahead? {ref : Instant} {n m : ℕ} {u : TimeUnit} {hit : DayHit}
    (h : ahead? ref n u m = some hit) : hit.used = m := by
  unfold ahead? at h
  cases u <;> simp only at h
  all_goals first
    | (obtain ⟨_, -, rfl⟩ := Option.map_eq_some_iff.1 h
       rfl)
    | (split_ifs at h
       obtain ⟨_, -, rfl⟩ := Option.map_eq_some_iff.1 h
       rfl)

lemma used_of_afterMonth? {today : Date} {m : ℕ} {ws : List Text} {hit : DayHit}
    (h : afterMonth? today m ws = some hit) : 2 ≤ hit.used ∧ hit.used ≤ ws.length + 1 := by
  unfold afterMonth? at h
  split at h
  · cases h
  · next w ws =>
    simp only [Option.bind_eq_bind, Option.bind_eq_some_iff] at h
    obtain ⟨d, -, h⟩ := h
    split at h
    · next y hy =>
      obtain ⟨_, -, rfl⟩ := Option.map_eq_some_iff.1 h
      cases ws with
      | nil => simp at hy
      | cons v vs => simp
    · obtain ⟨_, -, rfl⟩ := Option.map_eq_some_iff.1 h
      simp

lemma used_of_plainDay? {today : Date} {w : Text} {ws : List Text} {hit : DayHit}
    (h : plainDay? today w ws = some hit) : 1 ≤ hit.used ∧ hit.used ≤ ws.length + 1 := by
  unfold plainDay? at h
  simp only at h
  split at h
  · obtain ⟨_, -, rfl⟩ := Option.map_eq_some_iff.1 h
    simp
  · split at h
    · cases h
      simp
    · obtain ⟨m, -, hm⟩ := Option.bind_eq_some_iff.1 h
      have := used_of_afterMonth? hm
      omega

lemma used_of_day? {ref : Instant} {ws : List Text} {hit : DayHit} (h : day? ref ws = some hit) :
    1 ≤ hit.used ∧ hit.used ≤ ws.length := by
  cases ws with
  | nil => simp [day?] at h
  | cons w ws =>
    -- a phrase of two words has a second one
    have htwo : ∀ {β : Type} {f : Text → Option β} {b : β}, ws.head?.bind f = some b →
        1 ≤ ws.length := by
      intro β f b hb
      cases ws with
      | nil => simp at hb
      | cons v vs => simp
    rw [day?] at h
    simp only at h
    split_ifs at h
    · cases h
      simp
    · obtain ⟨_, -, rfl⟩ := Option.map_eq_some_iff.1 h
      simp
    · obtain ⟨_, hd, rfl⟩ := Option.map_eq_some_iff.1 h
      simpa using htwo hd
    · obtain ⟨_, hd, rfl⟩ := Option.map_eq_some_iff.1 h
      obtain ⟨_, hd, -⟩ := Option.bind_eq_some_iff.1 hd
      simpa using htwo hd
    · obtain ⟨⟨n, u, m⟩, hm, hh⟩ := Option.bind_eq_some_iff.1 h
      have := used_of_amount? hm
      rw [used_of_ahead? hh]
      simp
      omega
    · have := used_of_plainDay? h
      simpa using this

lemma used_of_reading? {ref : Instant} {ws : List Text} {r : Reading}
    (h : reading? ref ws = some r) : 1 ≤ r.used ∧ r.used ≤ ws.length := by
  unfold reading? at h
  split at h
  · next c n hc =>
    have hn := used_of_clock? hc
    split at h
    · next hit hd =>
      cases h
      have := used_of_day? hd
      simp at this ⊢
      omega
    · obtain ⟨_, -, rfl⟩ := Option.map_eq_some_iff.1 h
      exact hn
  · obtain ⟨hit, hd, rfl⟩ := Option.map_eq_some_iff.1 h
    have hu := used_of_day? hd
    split
    · exact hu
    · split
      · next c n hc =>
        have := used_of_clock? hc
        simp at this ⊢
        omega
      · exact hu

/-- The first phrase lies within the words, and no phrase begins before it. -/
lemma first?_eq_some_iff {ref : Instant} {ws : List Text} {k : ℕ} {r : Reading} :
    first? ref ws = some (k, r) ↔
      k < ws.length ∧ reading? ref (ws.drop k) = some r ∧
        ∀ j < k, reading? ref (ws.drop j) = none := by
  induction ws generalizing k with
  | nil => simp [first?]
  | cons w ws ih =>
    rw [first?]
    cases hw : reading? ref (w :: ws) with
    | some r' =>
      cases k with
      | zero => simp [hw]
      | succ k =>
        simp only [Option.some.injEq, Prod.mk.injEq]
        constructor
        · rintro ⟨h, -⟩
          cases h
        · rintro ⟨-, -, h⟩
          have := h 0 (by omega)
          rw [List.drop_zero, hw] at this
          cases this
    | none =>
      cases k with
      | zero => simp [hw]
      | succ k =>
        simp only [Option.map_eq_some_iff, Prod.mk.injEq, Nat.add_right_cancel_iff, Prod.exists]
        constructor
        · rintro ⟨j, r', h, rfl, rfl⟩
          obtain ⟨h1, h2, h3⟩ := ih.1 h
          refine ⟨by simpa using h1, by simpa using h2, fun i hi => ?_⟩
          cases i with
          | zero => simpa using hw
          | succ i => simpa using h3 i (by omega)
        · rintro ⟨h1, h2, h3⟩
          refine ⟨k, r, ih.2 ⟨by simpa using h1, by simpa using h2, fun j hj => ?_⟩, rfl, rfl⟩
          simpa using h3 (j + 1) (by omega)

lemma first?_eq_none_iff {ref : Instant} {ws : List Text} :
    first? ref ws = none ↔ ∀ j < ws.length, reading? ref (ws.drop j) = none := by
  induction ws with
  | nil => simp [first?]
  | cons w ws ih =>
    rw [first?]
    cases hw : reading? ref (w :: ws) with
    | some r =>
      simp only [reduceCtorEq, false_iff]
      intro h
      have := h 0 (by simp)
      rw [List.drop_zero, hw] at this
      cases this
    | none =>
      simp only [Option.map_eq_none_iff, ih]
      constructor
      · intro h j hj
        cases j with
        | zero => simpa using hw
        | succ j => simpa using h j (by simpa using hj)
      · intro h j hj
        simpa using h (j + 1) (by simpa using hj)

end TaskCapture.Phrase
