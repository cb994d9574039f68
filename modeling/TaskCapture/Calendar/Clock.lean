import TaskCapture.Calendar.Date

/-!
Times of day, to the second, and instants: a day with a time.
-/

namespace TaskCapture

structure Clock where
  hour : Nat
  minute : Nat
  second : Nat
  hour_lt : hour < 24
  minute_lt : minute < 60
  second_lt : second < 60
  deriving DecidableEq

namespace Clock

def ofHms? (h m s : Nat) : Option Clock :=
  if hlt : h < 24 ∧ m < 60 ∧ s < 60 then some ⟨h, m, s, hlt.1, hlt.2.1, hlt.2.2⟩ else none

theorem ofHms?_eq_some_iff {h m s : Nat} {c : Clock} :
    ofHms? h m s = some c ↔ c.hour = h ∧ c.minute = m ∧ c.second = s := by
  constructor
  · intro e
    unfold ofHms? at e
    split at e
    · cases e; exact ⟨rfl, rfl, rfl⟩
    · cases e
  · rintro ⟨rfl, rfl, rfl⟩
    simp [ofHms?, c.hour_lt, c.minute_lt, c.second_lt]

def midnight : Clock := ⟨0, 0, 0, by decide, by decide, by decide⟩

def noon : Clock := ⟨12, 0, 0, by decide, by decide, by decide⟩

/-- Seconds since midnight. -/
def toSeconds (c : Clock) : Nat := 3600 * c.hour + 60 * c.minute + c.second

theorem toSeconds_lt (c : Clock) : c.toSeconds < 86400 := by
  have := c.hour_lt; have := c.minute_lt; have := c.second_lt
  unfold toSeconds; omega

/-- The time `n` seconds after midnight, of whichever day. -/
def ofSeconds (n : Nat) : Clock :=
  ⟨n / 3600 % 24, n / 60 % 60, n % 60, by omega, by omega, by omega⟩

theorem ofSeconds_toSeconds (c : Clock) : ofSeconds c.toSeconds = c := by
  have := c.hour_lt; have := c.minute_lt; have := c.second_lt
  obtain ⟨h, m, s, _, _, _⟩ := c
  simp only [ofSeconds, toSeconds, Clock.mk.injEq]
  omega

end Clock

/-- A day with a time of day. The part of a second that a finer clock tells is left out: two
instants in one second are the same. -/
structure Instant where
  date : Date
  time : Clock
  deriving DecidableEq

namespace Instant

/-- Seconds since the midnight that began day 0. -/
def toSeconds (i : Instant) : Int := 86400 * i.date.toDays + i.time.toSeconds

/-- The instant `n` seconds later, if the calendar reaches that far. -/
def addSeconds? (i : Instant) (n : Nat) : Option Instant := do
  let total := i.time.toSeconds + n
  let date ← i.date.addDays? (total / 86400 : Nat)
  return ⟨date, .ofSeconds total⟩

instance : LE Instant := ⟨fun a b => a.toSeconds ≤ b.toSeconds⟩

instance : LT Instant := ⟨fun a b => a.toSeconds < b.toSeconds⟩

instance (a b : Instant) : Decidable (a ≤ b) :=
  inferInstanceAs (Decidable (a.toSeconds ≤ b.toSeconds))

instance (a b : Instant) : Decidable (a < b) :=
  inferInstanceAs (Decidable (a.toSeconds < b.toSeconds))

theorem le_def {a b : Instant} : a ≤ b ↔ a.toSeconds ≤ b.toSeconds := Iff.rfl

theorem lt_def {a b : Instant} : a < b ↔ a.toSeconds < b.toSeconds := Iff.rfl

end Instant

end TaskCapture
