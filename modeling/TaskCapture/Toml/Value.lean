import TaskCapture.Text.CharRange

/-!
TOML values, the members of tables, and what can be wrong with a document. A place in a document is
given by the number of characters before it.
-/

namespace TaskCapture

/-- What can be wrong at a place, where the words for it repeat nothing of the document. -/
inductive Toml.Complaint where
  | expectedLineFeed
  | invalidComment
  | expectedLineEnd
  | keyWithoutValue
  | expectedValue
  | unclosedArray
  | unclosedBraces
  | unclosedHeader
  | unclosedItemHeader
  | unexpectedText
  | missingEscape
  | invalidEscape
  | expectedHex
  | invalidCode
  | invalidString
  | unclosedString
  | unquotedString
  | invalidKey
  | keyOnLines
  | intOverflow
  | floatOverflow
  | expectedStringOrTable
  | expectedOneMember
  | expectedEmptyTable
  deriving DecidableEq, Repr

def Toml.Complaint.text : Complaint → Text
  | expectedLineFeed => "expected a line feed".toList
  | invalidComment => "invalid comment".toList
  | expectedLineEnd => "expected newline, comment or the end".toList
  | keyWithoutValue => "key with no value".toList
  | expectedValue => "expected a value".toList
  | unclosedArray => "unclosed array".toList
  | unclosedBraces => "unclosed inline table".toList
  | unclosedHeader => "unclosed table".toList
  | unclosedItemHeader => "unclosed array table".toList
  | unexpectedText => "unexpected text".toList
  | missingEscape => "missing escaped value".toList
  | invalidEscape => "invalid escape sequence".toList
  | expectedHex => "unicode hexadecimal value".toList
  | invalidCode => "invalid value".toList
  | invalidString => "invalid string".toList
  | unclosedString => "invalid string, expected the closing delimiter".toList
  | unquotedString => "string values must be quoted".toList
  | invalidKey => "invalid unquoted key".toList
  | keyOnLines => "keys cannot be multi-line strings".toList
  | intOverflow => "integer number overflowed".toList
  | floatOverflow => "floating-point number overflowed".toList
  | expectedStringOrTable => "wanted string or table".toList
  | expectedOneMember => "expected exactly 1 element".toList
  | expectedEmptyTable => "expected empty table".toList

/-- The kinds of value that a setting may want. -/
inductive Toml.Wanted where
  | string
  | boolean
  deriving DecidableEq, Repr

def Toml.Wanted.text : Wanted → Text
  | string => "a string".toList
  | boolean => "a boolean".toList

/-- How a table came about, which decides what may still be added to it. -/
inductive Toml.Origin where
  /-- It was written in braces. -/
  | braces
  /-- A header names it. -/
  | header
  /-- A header names a table inside it. -/
  | implied
  /-- A dotted key passes through it. -/
  | dotted
  deriving DecidableEq, Repr

/-- A member of a table: a key and its value, with their places. -/
structure Toml.Member (α : Type) where
  key : Text
  keyPlace : Nat
  place : Nat
  value : α

inductive Toml where
  | str (s : Text)
  | bool (b : Bool)
  | int (n : Int)
  | float (spelling : Text)
  /-- A number beyond what can be held, which is a failure only when the value is used. -/
  | overflow (place : Nat) (what : Toml.Complaint)
  | moment (spelling : Text)
  /-- A list; an open one is a list of tables, to which headers may add. -/
  | arr (isOpen : Bool) (vs : List Toml)
  /-- The members stand in ascending order of their keys. -/
  | table (origin : Toml.Origin) (ms : List (Toml.Member Toml))

namespace Toml

abbrev Members := List (Member Toml)

/-! ### Members -/

/-- The order of keys, by their code points. -/
def precedes : Text → Text → Bool
  | _, [] => false
  | [], _ :: _ => true
  | a :: s, b :: t => decide (a.toNat < b.toNat) || (a == b && precedes s t)

namespace Members

def get? (k : Text) (ms : Members) : Option (Member Toml) := ms.find? (·.key == k)

/-- The members with `m` among them, instead of one with the same key. -/
def put (m : Member Toml) : Members → Members
  | [] => [m]
  | n :: ms =>
    if n.key = m.key then m :: ms
    else if precedes m.key n.key then m :: n :: ms
    else n :: put m ms

theorem get?_put_self (m : Member Toml) (ms : Members) : (put m ms).get? m.key = some m := by
  induction ms with
  | nil => simp [put, get?]
  | cons n ms ih => grind [put, get?]

theorem get?_put_of_ne {k : Text} {m : Member Toml} (ms : Members) (h : m.key ≠ k) :
    (put m ms).get? k = ms.get? k := by
  induction ms with
  | nil => simp [put, get?, h]
  | cons n ms ih => grind [put, get?]

end Members

/-! ### Failures -/

inductive Reason where
  | complaint (what : Complaint)
  | duplicateKey
  | tooDeep
  | wrongType (found : Text) (wanted : Wanted)
  | unknownVariant (name : Text)
  deriving DecidableEq, Repr

def Reason.text : Reason → Text
  | .complaint what => what.text
  | .duplicateKey => "duplicate key".toList
  | .tooDeep => "recursion limit".toList
  | .wrongType found wanted =>
    "invalid type: ".toList ++ found ++ ", expected ".toList ++ wanted.text
  | .unknownVariant name =>
    "unknown variant ".toList ++ '\x60' :: name ++
      "\x60, expected one of \x60LOW\x60, \x60MEDIUM\x60, \x60HIGH\x60, \x60URGENT\x60".toList

structure Failure where
  /-- Where in the document the failure lies, if it lies at one place. -/
  place : Option Nat
  reason : Reason
  deriving DecidableEq, Repr

def fail {α : Type} (place : Nat) (what : Complaint) : Except Failure α :=
  .error ⟨place, .complaint what⟩

/-- The line of the document in which a place lies. A line has its line break with it, and the end
of the document belongs to the last line. -/
def lineAt (doc : Text) (place : Nat) : Text :=
  let i := min place (doc.length - 1)
  ((doc.take i).reverse.takeWhile (· ≠ '\n')).reverse ++ (doc.drop i).takeWhile (· ≠ '\n')

/-- A failure in words, with the line of the document that it concerns. -/
def Failure.text (doc : Text) (f : Failure) : Text :=
  match f.place with
  | some place => lineAt doc place ++ '\n' :: f.reason.text
  | none => f.reason.text

end Toml

end TaskCapture
