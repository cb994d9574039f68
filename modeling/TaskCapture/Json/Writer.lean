import TaskCapture.Json.Value
import TaskCapture.Text.Number

/-!
Writing JSON, on one line or laid out with two spaces for each level.
-/

namespace TaskCapture.Json

open Text

def hexDigit (n : Nat) : Char := Nat.digitChar n

/-- A character as it stands in a string; control characters without a letter of their own are
written in hex. -/
def escape (c : Char) : Text :=
  match shortEscapes.find? (·.2 == c) with
  | some (e, _) => ['\\', e]
  | none =>
    if c.toNat < 0x20 then "\\u00".toList ++ [hexDigit (c.toNat / 16), hexDigit (c.toNat % 16)]
    else [c]

def quoted (s : Text) : Text := '"' :: s.flatMap escape ++ ['"']

def intText (n : Int) : Text := if n < 0 then '-' :: decimal n.natAbs else decimal n.natAbs

/-! ### On one line -/

mutual

def compact : Json → Text
  | null => "null".toList
  | bool b => (if b then "true" else "false").toList
  | int n => intText n
  | real spelling => spelling
  | str s => quoted s
  | arr vs => '[' :: compactList vs ++ [']']
  | obj ms => '\x7b' :: compactMembers ms ++ ['\x7d']

def compactList : List Json → Text
  | [] => []
  | [v] => compact v
  | v :: vs => compact v ++ ',' :: compactList vs

def compactMembers : List (Text × Json) → Text
  | [] => []
  | [(k, v)] => quoted k ++ ':' :: compact v
  | (k, v) :: ms => quoted k ++ ':' :: compact v ++ ',' :: compactMembers ms

end

/-! ### Laid out -/

/-- The start of a line at the given level. -/
def newLine (level : Nat) : Text := '\n' :: List.replicate (2 * level) ' '

mutual

/-- A value whose first line is at `level`. -/
def pretty (level : Nat) : Json → Text
  | arr (v :: vs) => '[' :: prettyList (level + 1) (v :: vs) ++ newLine level ++ [']']
  | obj (m :: ms) => '\x7b' :: prettyMembers (level + 1) (m :: ms) ++ newLine level ++ ['\x7d']
  | null => "null".toList
  | bool b => (if b then "true" else "false").toList
  | int n => intText n
  | real spelling => spelling
  | str s => quoted s
  | arr [] => "[]".toList
  | obj [] => ['\x7b', '\x7d']

def prettyList (level : Nat) : List Json → Text
  | [] => []
  | [v] => newLine level ++ pretty level v
  | v :: vs => newLine level ++ pretty level v ++ ',' :: prettyList level vs

def prettyMembers (level : Nat) : List (Text × Json) → Text
  | [] => []
  | [(k, v)] => newLine level ++ quoted k ++ ": ".toList ++ pretty level v
  | (k, v) :: ms =>
    newLine level ++ quoted k ++ ": ".toList ++ pretty level v ++ ',' :: prettyMembers level ms

end

end TaskCapture.Json
