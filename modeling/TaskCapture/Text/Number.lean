import TaskCapture.Text.CharRange

/-!
Numbers in text: reading runs of ASCII digits, with a sign where one may stand, and writing
numbers padded with zeros.
-/

namespace TaskCapture.Text

def isAsciiDigit (c : Char) : Bool := decide ('0' ≤ c) && decide (c ≤ '9')

def digitValue (c : Char) : Nat := c.toNat - '0'.toNat

/-- The value of a run of digits. -/
def digitsValue (ds : Text) : Nat := ds.foldl (fun n d => 10 * n + digitValue d) 0

/-- The number that is written by digits alone. -/
def readDigits (t : Text) : Option Nat :=
  if t.isEmpty || !t.all isAsciiDigit then none else some (digitsValue t)

/-- A number up to `max`; a plus sign may stand before it. -/
def readNat (max : Nat) (t : Text) : Option Nat :=
  (readDigits (match t with | '+' :: r => r | _ => t)).filter (· ≤ max)

/-- A number between `-max - 1` and `max`; either sign may stand before it. -/
def readInt (max : Nat) : Text → Option Int
  | '-' :: r => (readDigits r).bind fun n => if n ≤ max + 1 then some (-(n : Int)) else none
  | t => (readNat max t).map Int.ofNat

/-- The digits of `n`, none superfluous. -/
def decimal (n : Nat) : Text := Nat.toDigits 10 n

/-- The last `width` digits of `n`, with zeros where it has fewer. -/
def padded : Nat → Nat → Text
  | 0, _ => []
  | width + 1, n => padded width (n / 10) ++ [Nat.digitChar (n % 10)]

@[simp] theorem length_padded (width n : Nat) : (padded width n).length = width := by
  induction width generalizing n with
  | zero => rfl
  | succ w ih => simp [padded, ih]

/-- The digits of `n`, with zeros before them up to `width`. -/
def paddedAtLeast (width n : Nat) : Text :=
  if (decimal n).length < width then padded width n else decimal n

def hexValue? (c : Char) : Option Nat :=
  if '0' ≤ c ∧ c ≤ '9' then some (c.toNat - '0'.toNat)
  else if 'a' ≤ c ∧ c ≤ 'f' then some (c.toNat - 'a'.toNat + 10)
  else if 'A' ≤ c ∧ c ≤ 'F' then some (c.toNat - 'A'.toNat + 10)
  else none

/-- The value of exactly `count` hex digits, taken up from `acc`, and what follows them. -/
def readHex (acc : Nat) : Nat → Text → Option (Nat × Text)
  | 0, t => some (acc, t)
  | _ + 1, [] => none
  | count + 1, c :: t => (hexValue? c).bind fun d => readHex (16 * acc + d) count t

/-- The largest number of 32 bits, and the largest signed one, bound the numbers that are read. -/
def maxWord : Nat := 0xFFFFFFFF

def maxSignedWord : Nat := 0x7FFFFFFF

end TaskCapture.Text
