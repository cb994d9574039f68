import TaskCapture.Calendar.Month
import TaskCapture.Text.Number
import TaskCapture.Text.Split
import TaskCapture.Toml.Value

/-!
TOML values that are written without quotes or brackets: booleans, integers in four bases, floating
point numbers, dates and times.
-/

namespace TaskCapture.Toml

open Text

/-- Digits of a kind, with single underscores between them. -/
def isDigitRun (isDigit : Char → Bool) : Text → Bool
  | [] => false
  | [c] => isDigit c
  | c :: '_' :: t => isDigit c && isDigitRun isDigit t
  | c :: t => isDigit c && isDigitRun isDigit t

/-- The same, without a superfluous zero. -/
def isWholeRun (t : Text) : Bool :=
  isDigitRun isAsciiDigit t && (t.length == 1 || t.head? != some '0')

def dropSign : Text → Bool × Text
  | '+' :: t => (false, t)
  | '-' :: t => (true, t)
  | t => (false, t)

/-- The value of digits in a base. -/
def valueIn (base : Nat) (t : Text) : Nat :=
  (t.filterMap hexValue?).foldl (fun n d => base * n + d) 0

/-- The bases that a prefix announces. -/
def bases : List (Char × Nat) := [('x', 16), ('o', 8), ('b', 2)]

def int? (t : Text) : Option Int :=
  let (neg, r) := dropSign t
  if isWholeRun r then some (if neg then -(valueIn 10 r : Int) else valueIn 10 r)
  else match t with
    | '0' :: b :: ds => (bases.lookup b).bind fun base =>
        if isDigitRun (fun c => (hexValue? c).any (· < base)) ds then some (valueIn base ds)
        else none
    | _ => none

/-- An integer must fit into 128 bits, with a sign or without. -/
def intFits (n : Int) : Bool :=
  decide (-((1 <<< 127 : Nat) : Int) ≤ n) && decide (n < ((1 <<< 128 : Nat) : Int))

/-- A power of ten after an `e`, none if there is no `e`. -/
def exponent? : Text → Option Int
  | [] => some 0
  | e :: t =>
    let (neg, ds) := dropSign t
    if (e = 'e' ∨ e = 'E') ∧ isDigitRun isAsciiDigit ds then
      some (if neg then -(valueIn 10 ds : Int) else valueIn 10 ds)
    else none

/-- A number with a fraction or an exponent, as a significand and a power of ten. -/
def float? (t : Text) : Option (Nat × Int) := do
  let (_, r) := dropSign t
  let stop := r.findIdx fun c => c == '.' || c == 'e' || c == 'E'
  let whole := r.take stop
  if stop = r.length ∨ !isWholeRun whole then none
  else match r.drop stop with
    | '.' :: r =>
      let ds := r.takeWhile fun c => isAsciiDigit c || c == '_'
      if isDigitRun isAsciiDigit ds then
        let e ← exponent? (r.drop ds.length)
        let fraction := ds.filter (· != '_')
        return (valueIn 10 (whole ++ fraction), e - fraction.length)
      else none
    | r => (exponent? r).map (valueIn 10 whole, ·)

/-- The number is not beyond the range of binary floating point. -/
def floatFits (digits : Nat) (exponent : Int) : Bool :=
  let size := (decimal digits).length + exponent
  digits == 0 || decide (size < 300) || (decide (size < 400) &&
    decide (digits * Nat.pow 10 exponent.toNat <
      (1 <<< 1024 - 1 <<< 970) * Nat.pow 10 (-exponent).toNat))

def isSpecialFloat (t : Text) : Bool :=
  let (_, r) := dropSign t
  r == "inf".toList || r == "nan".toList

/-! ### Dates and times -/

/-- A number of exactly `count` digits. -/
def fixed? (count : Nat) (t : Text) : Option (Nat × Text) :=
  let ds := t.take count
  if ds.length = count ∧ ds.all isAsciiDigit then some (digitsValue ds, t.drop count) else none

def sep? (c : Char) : Text → Option Text
  | [] => none
  | d :: t => if d = c then some t else none

/-- What follows a day of the calendar. -/
def afterDate? (t : Text) : Option Text := do
  let (y, t) ← fixed? 4 t
  let (m, t) ← fixed? 2 (← sep? '-' t)
  let (d, t) ← fixed? 2 (← sep? '-' t)
  if 1 ≤ d ∧ d ≤ Calendar.monthLength y m then some t else none

/-- What follows a time of day; the seconds and their fraction may be missing. -/
def afterTime? (t : Text) : Option Text := do
  let (h, t) ← fixed? 2 t
  let (m, t) ← fixed? 2 (← sep? ':' t)
  if 23 < h ∨ 59 < m then none
  else match t with
    | ':' :: t =>
      let (s, t) ← fixed? 2 t
      if 60 < s then none
      else match t with
        | '.' :: t =>
          let ds := t.takeWhile isAsciiDigit
          if ds.isEmpty then none else some (t.drop ds.length)
        | t => some t
    | t => some t

/-- A distance from universal time, or nothing. -/
def isOffset : Text → Bool
  | [] => true
  | ['Z'] => true
  | ['z'] => true
  | c :: t => (c == '+' || c == '-') && (do
      let (h, t) ← fixed? 2 t
      let (m, t) ← fixed? 2 (← sep? ':' t)
      return decide (h ≤ 23) && decide (m ≤ 59) && t.isEmpty).getD false

def isMoment (t : Text) : Bool :=
  match afterDate? t with
  | some [] => true
  | some (c :: r) =>
    (c == 'T' || c == 't' || c == ' ') && ((afterTime? r).map isOffset).getD false
  | none => (afterTime? t).any (·.isEmpty)

/-! ### Any of them -/

/-- The value that a bare word at `place` writes. -/
def scalar (place : Nat) (t : Text) : Except Failure Toml :=
  if t = "true".toList then .ok (.bool true)
  else if t = "false".toList then .ok (.bool false)
  else match int? t with
    | some n =>
      .ok (if intFits n then .int n else .overflow place .intOverflow)
    | none =>
      match float? t with
      | some (digits, e) =>
        .ok (if floatFits digits e then .float t
          else .overflow place .floatOverflow)
      | none =>
        if isSpecialFloat t then .ok (.float t)
        else if isMoment t then .ok (.moment t)
        else fail place .unquotedString

end TaskCapture.Toml
