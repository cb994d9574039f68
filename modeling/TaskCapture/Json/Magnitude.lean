import TaskCapture.Text.Number

/-!
How large a JSON number may be. A number is held in binary floating point with 53 bits: its digits,
as far as they fit into 64 bits, times a power of ten, both factors and the product rounded. A
product of 2^1024 or more is out of range.
-/

namespace TaskCapture.Json

open Text

/-- The nearest number of at most 53 significant bits, of two equally near ones the even. -/
def round53 (n : Nat) : Nat :=
  if n.log2 ≤ 52 then n
  else
    let unit := 1 <<< (n.log2 - 52)
    let q := n / unit
    let r := 2 * (n % unit)
    if unit < r ∨ (r = unit ∧ q % 2 = 1) then (q + 1) * unit else q * unit

/-- A decimal significand with its exponent. -/
structure Scaled where
  digits : Nat
  exponent : Int

/-- Takes in digits while they fit into 64 bits; `dropped` says what one that does not fit adds to
the exponent, `taken` what one that fits does. -/
def Scaled.feed (dropped taken : Int) (s : Scaled) : Text → Scaled
  | [] => s
  | d :: ds =>
    let n := 10 * s.digits + digitValue d
    if n < 1 <<< 64 then feed dropped taken ⟨n, s.exponent + taken⟩ ds
    else ⟨s.digits, s.exponent + dropped * (ds.length + 1)⟩

/-- The number with the given digits before and after its point, times a power of ten. -/
def Scaled.ofDigits (whole fraction : Text) (exponent : Int) : Scaled :=
  let s := (((⟨0, 0⟩ : Scaled).feed 1 0 whole).feed 0 (-1) fraction)
  ⟨s.digits, s.exponent + exponent⟩

def Scaled.inRange (s : Scaled) : Bool :=
  s.digits == 0 || decide (s.exponent < 0) ||
    (decide (s.exponent ≤ 308) &&
      decide (round53 (round53 s.digits * round53 (Nat.pow 10 s.exponent.toNat)) < 1 <<< 1024))

end TaskCapture.Json
