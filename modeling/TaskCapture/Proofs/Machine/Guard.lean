import Mathlib
import TaskCapture.Text.Offset

/-!
Operations that a machine may refuse: a place past the end of a list, a cut inside a character, a
number too large for its type, a duration out of bounds. Each of them says here when it is refused,
where the definitions of the library count without bounds.
-/

namespace TaskCapture.Machine

open Text

/-- Why a machine stops. -/
inductive Stop where
  | place
  | cut
  | number
  | duration
  deriving DecidableEq, Repr

/-- A computation that the machine may stop. -/
abbrev Guarded (α : Type) := Except Stop α

-- not proved by `rfl`, so that `simp` records the step and no check has to evaluate `f a` for it
@[simp] lemma ok_bind {α β : Type} (a : α) (f : α → Guarded β) : (.ok a >>= f) = f a := by
  cases h : f a <;> exact h

@[simp] lemma pure_eq {α : Type} (a : α) : (pure a : Guarded α) = .ok a := rfl

/-- A number of `bits` bits without a sign. -/
def unsigned (bits : ℕ) (n : ℤ) : Guarded ℕ :=
  if 0 ≤ n ∧ n < 2 ^ bits then .ok n.toNat else .error .number

/-- A number of `bits` bits after its sign. -/
def signed (bits : ℕ) (n : ℤ) : Guarded ℤ :=
  if -2 ^ bits ≤ n ∧ n < 2 ^ bits then .ok n else .error .number

/-- The longest duration: as many milliseconds as 63 bits count, in seconds. -/
def maxDuration : ℕ := (2 ^ 63 - 1) / 1000

/-- So many times a number of seconds. -/
def duration (n seconds : ℤ) : Guarded ℤ :=
  if |n * seconds| ≤ maxDuration then .ok (n * seconds) else .error .duration

/-- The parts of a text before and after byte `n`. -/
def cut (t : Text) (n : ℕ) : Guarded (Text × Text) :=
  match splitAtByte n t with
  | some parts => .ok parts
  | none => .error .cut

/-- The bytes of a text from `start` up to but not including `stop`. -/
def slice (t : Text) (start stop : ℕ) : Guarded Text := do
  let (a, _) ← cut t stop
  let (_, x) ← cut a start
  return x

/-- The element at a place of a list. -/
def element {α : Type} (l : List α) (n : ℕ) : Guarded α :=
  match l[n]? with
  | some a => .ok a
  | none => .error .place

/-- A place in a list, or the one after its last element. -/
def place {α : Type} (l : List α) (n : ℤ) : Guarded ℕ :=
  if 0 ≤ n ∧ n ≤ l.length then .ok n.toNat else .error .place

lemma unsigned_of {bits : ℕ} {n : ℤ} (h : 0 ≤ n) (h' : n < 2 ^ bits) :
    unsigned bits n = .ok n.toNat := if_pos ⟨h, h'⟩

lemma signed_of {bits : ℕ} {n : ℤ} (h : -2 ^ bits ≤ n) (h' : n < 2 ^ bits) :
    signed bits n = .ok n := if_pos ⟨h, h'⟩

lemma duration_of {n seconds : ℤ} (h : 0 ≤ n) (hs : 0 ≤ seconds)
    (h' : n * seconds ≤ maxDuration) : duration n seconds = .ok (n * seconds) :=
  if_pos ((abs_of_nonneg (mul_nonneg h hs)).le.trans h')

-- one day more than the longest duration
example : duration 106751991168 86400 = .error .duration := by decide

lemma place_of {α : Type} {l : List α} {n : ℕ} (h : n ≤ l.length) : place l n = .ok n :=
  if_pos ⟨by omega, by omega⟩

lemma element_of {α : Type} {l : List α} {n : ℕ} {a : α} (h : l[n]? = some a) :
    element l n = .ok a := by
  rw [element, h]

lemma cut_append (s t : Text) : cut (s ++ t) (byteSize s) = .ok (s, t) := by
  rw [cut, splitAtByte_append]

lemma slice_append (a x b : Text) :
    slice (a ++ x ++ b) (byteSize a) (byteSize (a ++ x)) = .ok x := by
  simp only [slice, cut_append, ok_bind, pure_eq]

end TaskCapture.Machine
