import TaskCapture.Text.Number
import TaskCapture.Text.Split
import TaskCapture.Toml.Outline

/-!
TOML strings. There are four forms: with escapes or without, on one line or on several. A string is
written in the first form that takes it without an escape; where there is none, with escapes.
-/

namespace TaskCapture.Toml

open Text

/-! ### Reading -/

/-- The characters that are escaped with a single letter, after that letter. -/
def letterEscapes : List (Char × Char) :=
  [('b', '\x08'), ('t', '\t'), ('n', '\n'), ('f', '\x0C'), ('r', '\r'), ('e', '\x1B'), ('"', '"'),
   ('\\', '\\')]

/-- How many hex digits follow the letter of an escape. -/
def hexEscapes : List (Char × Nat) := [('x', 2), ('u', 4), ('U', 8)]

/-- What an escape stands for and how many characters it has after its backslash. -/
def readEscape (place : Nat) : Text → Except Failure (Char × Nat)
  | [] => fail place .missingEscape
  | e :: t =>
    match letterEscapes.lookup e, hexEscapes.lookup e with
    | some c, _ => .ok (c, 1)
    | none, some count =>
      match readHex 0 count t with
      | some (n, _) =>
        if n < 0xD800 ∨ (0xDFFF < n ∧ n < 0x110000) then .ok (Char.ofNat n, count + 1)
        else fail place .invalidCode
      | none => fail place .expectedHex
    | none, none => fail place .invalidEscape

/-- The number of blanks and line breaks that a text begins with. -/
def gapLength : Text → Nat
  | [] => 0
  | '\r' :: '\n' :: t => gapLength t + 2
  | c :: t => if isSpace c || c == '\n' then gapLength t + 1 else 0

/-- The number of characters that are passed over after a backslash at the end of a line, up to the
next that is not blank. -/
def continuation? (t : Text) : Option Nat :=
  let n := (t.takeWhile isSpace).length
  match t.drop n with
  | '\n' :: _ => some (n + gapLength (t.drop n))
  | '\r' :: '\n' :: _ => some (n + gapLength (t.drop n))
  | _ => none

/-- A character stands for itself in a string, before `t`. A line break does where the string may
have several lines. -/
def isPlain (lines : Bool) (c : Char) (t : Text) : Bool :=
  !isControl c || (lines && (c == '\n' || (c == '\r' && t.head? == some '\n')))

/-- What the characters between the quotes stand for. They begin at `place`, and the first `skip` of
them belong to the escape before. -/
def unescape (escapes lines : Bool) (place skip : Nat) : Text → Except Failure Text
  | [] => .ok []
  | c :: t =>
    match skip with
    | k + 1 => unescape escapes lines (place + 1) k t
    | 0 =>
      if escapes && c == '\\' then
        match if lines then continuation? t else none with
        | some n => unescape escapes lines (place + 1) n t
        | none => do
          let (d, n) ← readEscape place t
          return d :: (← unescape escapes lines (place + 1) n t)
      else if isPlain lines c t then do
        return c :: (← unescape escapes lines (place + 1) 0 t)
      else fail place .invalidString

namespace Quoting

/-- The quotes around a string. -/
def quotes : Quoting → Text
  | bare => []
  | literal => ['\x27']
  | basic => ['"']
  | literalLines => ['\x27', '\x27', '\x27']
  | basicLines => ['"', '"', '"']

def hasEscapes (q : Quoting) : Bool := q == .basic || q == .basicLines

def hasLines (q : Quoting) : Bool := q == .literalLines || q == .basicLines

/-- The length of the line break right after the opening quotes, which is not part of the string. -/
def firstBreak (q : Quoting) (t : Text) : Nat :=
  if !q.hasLines then 0
  else match t with
    | '\n' :: _ => 1
    | '\r' :: '\n' :: _ => 2
    | _ => 0

end Quoting

/-- What a word in quotes stands for. -/
def Word.string (w : Word) : Except Failure Text :=
  let opening := w.quoting.quotes
  match dropEnding? opening (w.text.drop opening.length) with
  | none => fail (w.place + w.text.length) .unclosedString
  | some t =>
    let n := w.quoting.firstBreak t
    unescape w.quoting.hasEscapes w.quoting.hasLines (w.place + opening.length + n) 0 (t.drop n)

/-! ### Writing -/

/-- The length of the longest run of `q`. -/
def longestRun (q : Char) : Text → Nat
  | [] => 0
  | c :: t => max ((c :: t).takeWhile (· == q)).length (longestRun q t)

/-- A character that no form without escapes can hold. -/
def needsCode (c : Char) : Bool := isControl c && c != '\n'

/-- A character as an escape, if it has one. -/
def escaped? (c : Char) : Option Text :=
  if c = '\x08' then some ['\\', 'b']
  else if c = '\t' then some ['\\', 't']
  else if c = '\n' then some ['\\', 'n']
  else if c = '\x0C' then some ['\\', 'f']
  else if c = '\r' then some ['\\', 'r']
  else if c = '\\' then some ['\\', '\\']
  else if c.toNat < 0x20 ∨ c.toNat = 0x7F then
    some ("\\u00".toList ++ [Nat.digitChar (c.toNat / 16), (Nat.digitChar (c.toNat % 16)).toUpper])
  else none

/-- The characters between the quotes. Line breaks are left as they are if there may be several
lines; a quote is left as long as it makes a run of at most `free`, of which `run` stand before. -/
def escapeAll (lines : Bool) (free : Nat) (run : Nat) : Text → Text
  | [] => []
  | c :: t =>
    if c = '"' then
      if run < free then c :: escapeAll lines free (run + 1) t
      else '\\' :: '"' :: escapeAll lines free 0 t
    else if c = '\n' ∧ lines then c :: escapeAll lines free 0 t
    else (escaped? c).getD [c] ++ escapeAll lines free 0 t

/-- A string in its written form. -/
def writeString (s : Text) : Text :=
  let breaks := s.contains '\n'
  let codes := s.any needsCode
  let backslash := s.contains '\\'
  let first : Text := if breaks then ['\n'] else []
  if !codes && !backslash && !s.contains '"' && !breaks then '"' :: escapeAll false 0 0 s ++ ['"']
  else if !codes && !s.contains '\x27' && !breaks then '\x27' :: s ++ ['\x27']
  else if !codes && !backslash && longestRun '"' s ≤ 2 then
    "\"\"\"".toList ++ first ++ escapeAll true 2 0 s ++ "\"\"\"".toList
  else if !codes && longestRun '\x27' s ≤ 2 then
    "\x27\x27\x27".toList ++ first ++ s ++ "\x27\x27\x27".toList
  else if breaks then "\"\"\"".toList ++ first ++ escapeAll true 2 0 s ++ "\"\"\"".toList
  else '"' :: escapeAll false 0 0 s ++ ['"']

end TaskCapture.Toml
