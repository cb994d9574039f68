import TaskCapture.Text.CharRange

/-!
The lexemes of a TOML document: words with and without quotes, marks, and what stands between them.
Every text has lexemes; whether a word is well formed is seen where it is used. Main statement:
the lexemes put together give back the text (`flatMap_text_lexemes`).
-/

namespace TaskCapture.Toml

/-- How a word is written. -/
inductive Quoting where
  | bare
  /-- In single quotes, without escapes. -/
  | literal
  /-- In double quotes, with escapes. -/
  | basic
  /-- In three single quotes, on several lines. -/
  | literalLines
  /-- In three double quotes, on several lines. -/
  | basicLines
  deriving DecidableEq, Repr

inductive Mark where
  | dot
  | equals
  | comma
  | openList
  | closeList
  | openTable
  | closeTable
  deriving DecidableEq, Repr

def Mark.char : Mark → Char
  | dot => '.'
  | equals => '='
  | comma => ','
  | openList => '['
  | closeList => ']'
  | openTable => '\x7b'
  | closeTable => '\x7d'

def Mark.all : List Mark := [dot, equals, comma, openList, closeList, openTable, closeTable]

def Mark.ofChar? (c : Char) : Option Mark := Mark.all.find? (·.char == c)

inductive Lexeme.Kind where
  /-- The text has the quotes with it. -/
  | word (q : Quoting)
  | mark (m : Mark)
  /-- A run of spaces and tabs. -/
  | blank
  | newline
  /-- A comment goes on to the end of its line. -/
  | comment
  deriving DecidableEq, Repr

structure Lexeme where
  kind : Lexeme.Kind
  text : Text
  place : Nat
  deriving DecidableEq, Repr

def isSpace (c : Char) : Bool := c == ' ' || c == '\t'

/-- A control character other than the tab. -/
def isControl (c : Char) : Bool := (c.toNat < 0x20 && c != '\t') || c.toNat == 0x7F

/-- A character that a bare word may hold. -/
def isBare (c : Char) : Bool :=
  !isSpace c && c != '#' && c != '\r' && c != '\n' && (Mark.ofChar? c).isNone

/-! ### How far a lexeme goes -/

/-- The length of a string on one line from after its opening quote, with the closing quote if there
is one. Behind a backslash a quote is part of the string where there are escapes. -/
def lineLength (quote : Char) (escapes afterBackslash : Bool) : Text → Nat
  | [] => 0
  | c :: t =>
    if afterBackslash && (c == '\\' || c == quote) then lineLength quote escapes false t + 1
    else if c = quote then 1
    else if c = '\n' then 0
    else lineLength quote escapes (escapes && c == '\\') t + 1

/-- The length of a string on several lines from after its opening quotes. Up to two quotes right
before the closing ones are part of the string. -/
def linesLength (quote : Char) (escapes afterBackslash : Bool) : Text → Nat
  | [] => 0
  | c :: t =>
    if afterBackslash && (c == '\\' || c == quote) then linesLength quote escapes false t + 1
    else if c = quote ∧ t.take 2 = [quote, quote] then
      ((t.drop 2).take 2 |>.takeWhile (· == quote)).length + 3
    else linesLength quote escapes (escapes && c == '\\') t + 1

/-- The length of a string from after its first quote, and whether it has three of them. -/
def stringLength (quote : Char) (escapes : Bool) (t : Text) : Bool × Nat :=
  if t.take 2 = [quote, quote] then (true, linesLength quote escapes false (t.drop 2) + 2)
  else (false, lineLength quote escapes false t)

/-- The kind of the lexeme that begins with `c`, and how many characters of `t` belong to it. -/
def lexemeFrom (c : Char) (t : Text) : Lexeme.Kind × Nat :=
  if isSpace c then (.blank, (t.takeWhile isSpace).length)
  else if c = '\n' then (.newline, 0)
  else if c = '\r' then (.newline, if t.head? = some '\n' then 1 else 0)
  else if c = '#' then (.comment, (t.takeWhile fun d => d != '\r' && d != '\n').length)
  else if c = '\x27' then
    let (lines, n) := stringLength c false t
    (.word (if lines then .literalLines else .literal), n)
  else if c = '"' then
    let (lines, n) := stringLength c true t
    (.word (if lines then .basicLines else .basic), n)
  else match Mark.ofChar? c with
    | some m => (.mark m, 0)
    | none => (.word .bare, (t.takeWhile isBare).length)

/-! ### The lexemes of a text -/

/-- The lexemes of a text that begins at `place`, whose first `skip` characters belong to the lexeme
before. -/
def lexemesFrom (place skip : Nat) : Text → List Lexeme
  | [] => []
  | c :: t =>
    match skip with
    | k + 1 => lexemesFrom (place + 1) k t
    | 0 =>
      let (kind, n) := lexemeFrom c t
      ⟨kind, c :: t.take n, place⟩ :: lexemesFrom (place + 1) n t

/-- The lexemes of a document. A byte order mark may stand before it. -/
def lexemes (doc : Text) : List Lexeme :=
  match doc with
  | '\ufeff' :: t => lexemesFrom 1 0 t
  | t => lexemesFrom 0 0 t

/-- The place after the last lexeme that is a word or a mark. -/
def closingPlace (ls : List Lexeme) : Nat :=
  ls.foldl
    (fun place l => match l.kind with
      | .word _ | .mark _ => l.place + l.text.length
      | _ => place) 0

theorem lexemesFrom_skip (place skip : Nat) (t : Text) :
    lexemesFrom place skip t = lexemesFrom (place + min skip t.length) 0 (t.drop skip) := by
  induction t generalizing place skip with
  | nil => simp [lexemesFrom]
  | cons c t ih =>
    match skip with
    | 0 => simp
    | k + 1 =>
      rw [lexemesFrom, ih]
      simp [Nat.add_min_add_right, Nat.add_assoc, Nat.add_comm 1]

theorem flatMap_text_lexemesFrom (place skip : Nat) (t : Text) :
    (lexemesFrom place skip t).flatMap Lexeme.text = t.drop skip := by
  induction t generalizing place skip with
  | nil => simp [lexemesFrom]
  | cons c t ih =>
    match skip with
    | 0 => simp [lexemesFrom, ih]
    | k + 1 => simp [lexemesFrom, ih]

theorem flatMap_text_lexemes {doc : Text} (h : doc.head? ≠ some '\ufeff') :
    (lexemes doc).flatMap Lexeme.text = doc := by
  unfold lexemes
  split
  · simp at h
  · exact flatMap_text_lexemesFrom 0 0 doc

end TaskCapture.Toml
