import TaskCapture.Json.Magnitude
import TaskCapture.Json.Value

/-!
Reading JSON, strictly: one value with nothing but blanks around it, nested at most 127 deep. Each
reader gives back what it read and the rest of the text.
-/

namespace TaskCapture.Json

open Text

def isGap (c : Char) : Bool := c == ' ' || c == '\t' || c == '\n' || c == '\r'

def skipGap (t : Text) : Text := t.dropWhile isGap

/-- What follows `w`, which must come first. -/
def skipWord (w : Text) (t : Text) : Option Text :=
  if w.isPrefixOf t then some (t.drop w.length) else none

/-! ### Strings -/

/-- The character written by `\u`, which for one above four hex digits takes a second `\u`. -/
def readUnicode (t : Text) : Option (Char × Text) := do
  let (n, r) ← readHex 0 4 t
  if 0xD800 ≤ n ∧ n < 0xDC00 then
    let r ← skipWord ['\\', 'u'] r
    let (m, r) ← readHex 0 4 r
    if 0xDC00 ≤ m ∧ m < 0xE000 then
      return (Char.ofNat (0x10000 + 0x400 * (n - 0xD800) + (m - 0xDC00)), r)
    else none
  else if 0xDC00 ≤ n ∧ n < 0xE000 then none
  else return (Char.ofNat n, r)

/-- One character of a string. A quote ends the string and a control character may not be in it. -/
def readChar : Text → Option (Char × Text)
  | [] => none
  | '\\' :: [] => none
  | '\\' :: e :: r =>
    if e = 'u' then readUnicode r
    else if e = '/' then some ('/', r)
    else (shortEscapes.lookup e).map (·, r)
  | c :: r => if c = '"' ∨ c.toNat < 0x20 then none else some (c, r)

/-- The characters up to the closing quote, which is passed over; no more than `fuel`. -/
def readChars : Nat → Text → Option (Text × Text)
  | 0, _ => none
  | fuel + 1, t =>
    match t with
    | '"' :: r => some ([], r)
    | _ => do
      let (c, r) ← readChar t
      let (cs, r) ← readChars fuel r
      return (c :: cs, r)

/-- A string, read from after its opening quote. -/
def readString (t : Text) : Option (Text × Text) := readChars (t.length + 1) t

/-! ### Numbers -/

/-- Digits without a superfluous zero. -/
def readWhole (t : Text) : Option (Text × Text) :=
  let ds := t.takeWhile isAsciiDigit
  if ds.isEmpty || (ds.length ≠ 1 && ds.head? == some '0') then none
  else some (ds, t.drop ds.length)

/-- Digits after a point, none if there is no point. -/
def readFraction : Text → Option (Text × Text)
  | '.' :: t =>
    let ds := t.takeWhile isAsciiDigit
    if ds.isEmpty then none else some (ds, t.drop ds.length)
  | t => some ([], t)

/-- The power of ten after an `e`, if there is one. -/
def readExponent (t : Text) : Option (Option Int × Text) :=
  match t with
  | [] => some (none, t)
  | e :: r =>
    if e = 'e' ∨ e = 'E' then
      let (sign, r) : Int × Text := match r with
        | '+' :: r => (1, r)
        | '-' :: r => (-1, r)
        | r => (1, r)
      let ds := r.takeWhile isAsciiDigit
      if ds.isEmpty then none else some (some (sign * digitsValue ds), r.drop ds.length)
    else some (none, t)

/-- A number. Minus zero is no integer. -/
def readNumber (t : Text) : Option (Json × Text) := do
  let (neg, r) : Bool × Text := match t with
    | '-' :: r => (true, r)
    | r => (false, r)
  let (whole, r) ← readWhole r
  let (fraction, r) ← readFraction r
  let (exponent, r) ← readExponent r
  if !(Scaled.ofDigits whole fraction (exponent.getD 0)).inRange then none
  else
    let n := digitsValue whole
    if fraction.isEmpty && exponent.isNone && !(neg && n == 0) then
      return (.int (if neg then -n else n), r)
    else return (.real (t.take (t.length - r.length)), r)

/-! ### Values -/

/-- The elements of a list up to the closing bracket, each read by `item`; at most `fuel`. -/
def readElements (item : Text → Option (Json × Text)) : Nat → Text → Option (List Json × Text)
  | 0, _ => none
  | fuel + 1, t => do
    let (v, r) ← item (skipGap t)
    match skipGap r with
    | ']' :: r => return ([v], r)
    | ',' :: r =>
      let (vs, r) ← readElements item fuel r
      return (v :: vs, r)
    | _ => none

/-- The members of an object up to the closing brace, their values read by `item`; at most
`fuel`. -/
def readMembers (item : Text → Option (Json × Text)) :
    Nat → Text → Option (List (Text × Json) × Text)
  | 0, _ => none
  | fuel + 1, t => do
    let r ← skipWord ['"'] (skipGap t)
    let (k, r) ← readString r
    let r ← skipWord [':'] (skipGap r)
    let (v, r) ← item (skipGap r)
    match skipGap r with
    | '\x7d' :: r => return ([(k, v)], r)
    | ',' :: r =>
      let (ms, r) ← readMembers item fuel r
      return ((k, v) :: ms, r)
    | _ => none

/-- A value that nests lists and objects at most `depth` deep, from its first character on. -/
def readValue : Nat → Text → Option (Json × Text)
  | depth, t =>
    match t with
    | [] => none
    | '"' :: r => (readString r).map fun (s, r) => (.str s, r)
    | '[' :: r =>
      match depth with
      | 0 => none
      | depth + 1 =>
        match skipGap r with
        | ']' :: r => some (.arr [], r)
        | r => (readElements (readValue depth) (r.length + 1) r).map fun (vs, r) => (.arr vs, r)
    | '\x7b' :: r =>
      match depth with
      | 0 => none
      | depth + 1 =>
        match skipGap r with
        | '\x7d' :: r => some (.obj [], r)
        | r => (readMembers (readValue depth) (r.length + 1) r).map fun (ms, r) => (.obj ms, r)
    | 'n' :: r => (skipWord "ull".toList r).map (.null, ·)
    | 't' :: r => (skipWord "rue".toList r).map (.bool true, ·)
    | 'f' :: r => (skipWord "alse".toList r).map (.bool false, ·)
    | t => readNumber t

def maxDepth : Nat := 127

/-- The value that a text writes. -/
def read? (t : Text) : Option Json :=
  match readValue maxDepth (skipGap t) with
  | some (v, r) => if (skipGap r).isEmpty then some v else none
  | none => none

end TaskCapture.Json
