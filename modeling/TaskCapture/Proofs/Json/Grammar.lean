import Mathlib
import TaskCapture.Json.Reader

/-!
The grammar of JSON texts, as relations between a text and what it stands for. They say which texts
there are, the reader how one is taken apart.
-/

namespace TaskCapture.Json

open Text

/-- Blanks between two parts of a text. -/
def Gap (t : Text) : Prop := ∀ c ∈ t, isGap c = true

def Digits (t : Text) : Prop := t ≠ [] ∧ ∀ c ∈ t, isAsciiDigit c = true

/-! ### Strings -/

/-- Four hex digits that write `n`. -/
structure HexFor (t : Text) (n : ℕ) : Prop where
  length_eq : t.length = 4
  exists_digits : ∃ ds : List ℕ, t.map hexValue? = ds.map some ∧ n = ds.foldl (16 * · + ·) 0

/-- What may stand for one character of a string. A character of more than four hex digits is
written as two halves. -/
inductive CharFor : Text → Char → Prop
  | plain {c : Char} (hquote : c ≠ '"') (hslash : c ≠ '\\') (hc : 0x20 ≤ c.toNat) : CharFor [c] c
  | short {e c : Char} (h : (e, c) ∈ shortEscapes) : CharFor ['\\', e] c
  | slash : CharFor ['\\', '/'] '/'
  | hex {t : Text} {n : ℕ} (h : HexFor t n) (hn : n < 0xD800 ∨ 0xE000 ≤ n) :
      CharFor ('\\' :: 'u' :: t) (Char.ofNat n)
  | halves {s t : Text} {m n : ℕ} (hs : HexFor s m) (ht : HexFor t n)
      (hm : 0xD800 ≤ m ∧ m < 0xDC00) (hn : 0xDC00 ≤ n ∧ n < 0xE000) :
      CharFor ('\\' :: 'u' :: s ++ '\\' :: 'u' :: t)
        (Char.ofNat (0x10000 + 0x400 * (m - 0xD800) + (n - 0xDC00)))

inductive CharsFor : Text → Text → Prop
  | nil : CharsFor [] []
  | cons {s t : Text} {c : Char} {cs : Text} (hc : CharFor s c) (h : CharsFor t cs) :
      CharsFor (s ++ t) (c :: cs)

inductive StringFor : Text → Text → Prop
  | mk {t s : Text} (h : CharsFor t s) : StringFor ('"' :: t ++ ['"']) s

/-! ### Numbers -/

/-- Digits without a superfluous zero. -/
structure Whole (t : Text) : Prop where
  digits : Digits t
  eq_zero : t.head? = some '0' → t = ['0']

/-- The digits after a point, or nothing. -/
inductive Fraction : Text → Text → Prop
  | none : Fraction [] []
  | some {ds : Text} (h : Digits ds) : Fraction ('.' :: ds) ds

inductive Sign : Text → ℤ → Prop
  | none : Sign [] 1
  | plus : Sign ['+'] 1
  | minus : Sign ['-'] (-1)

/-- A power of ten, or nothing. -/
inductive Exponent : Text → Option ℤ → Prop
  | none : Exponent [] none
  | some {e : Char} {s ds : Text} {z : ℤ} (he : e = 'e' ∨ e = 'E') (hs : Sign s z)
      (h : Digits ds) : Exponent (e :: s ++ ds) (some (z * digitsValue ds))

def minus (neg : Bool) : Text := if neg then ['-'] else []

/-- The value of a number that is spelled `t`: an integer, if it has neither fraction nor exponent
and is not minus zero. -/
def numberValue (neg : Bool) (whole fraction : Text) (exponent : Option ℤ) (t : Text) : Json :=
  if fraction.isEmpty && exponent.isNone && !(neg && digitsValue whole == 0) then
    .int (if neg then -digitsValue whole else digitsValue whole)
  else .real t

inductive Number : Text → Json → Prop
  | mk {neg : Bool} {w f ds e : Text} {x : Option ℤ} (hw : Whole w) (hf : Fraction f ds)
      (he : Exponent e x) (hrange : (Scaled.ofDigits w ds (x.getD 0)).inRange = true) :
      Number (minus neg ++ w ++ f ++ e) (numberValue neg w ds x (minus neg ++ w ++ f ++ e))

/-! ### Values -/

/-- Values without parts. -/
inductive Scalar : Text → Json → Prop
  | null : Scalar "null".toList .null
  | true : Scalar "true".toList (.bool true)
  | false : Scalar "false".toList (.bool false)
  | number {t : Text} {v : Json} (h : Number t v) : Scalar t v
  | string {t s : Text} (h : StringFor t s) : Scalar t (.str s)

/-- One item or more with commas between them. -/
inductive Series {α : Type} (Item : Text → α → Prop) : Text → List α → Prop
  | one {t : Text} {a : α} (h : Item t a) : Series Item t [a]
  | cons {s t : Text} {a : α} {as : List α} (ha : Item s a) (h : Series Item t as) :
      Series Item (s ++ ',' :: t) (a :: as)

section

variable (P : Text → Json → Prop)

/-- A value with gaps around it. -/
inductive Element : Text → Json → Prop
  | mk {g t g' : Text} {v : Json} (hg : Gap g) (h : P t v) (hg' : Gap g') :
      Element (g ++ t ++ g') v

inductive Member : Text → Text × Json → Prop
  | mk {g s g' t name : Text} {v : Json} (hg : Gap g) (hs : StringFor s name) (hg' : Gap g')
      (h : Element P t v) : Member (g ++ s ++ g' ++ ':' :: t) (name, v)

/-- Lists and objects whose values are written according to `P`. -/
inductive Nested : Text → Json → Prop
  | noElements {g : Text} (hg : Gap g) : Nested ('[' :: g ++ [']']) (.arr [])
  | elements {t : Text} {vs : List Json} (h : Series (Element P) t vs) :
      Nested ('[' :: t ++ [']']) (.arr vs)
  | noMembers {g : Text} (hg : Gap g) : Nested ('\x7b' :: g ++ ['\x7d']) (.obj [])
  | members {t : Text} {ms : List (Text × Json)} (h : Series (Member P) t ms) :
      Nested ('\x7b' :: t ++ ['\x7d']) (.obj ms)

end

/-- The text stands for the value, in which lists and objects are nested at most `depth` deep. -/
def ValueFor : ℕ → Text → Json → Prop
  | 0, t, v => Scalar t v
  | depth + 1, t, v => Scalar t v ∨ Nested (ValueFor depth) t v

/-- A whole JSON text. -/
def Document (t : Text) (v : Json) : Prop := Element (ValueFor maxDepth) t v

end TaskCapture.Json
