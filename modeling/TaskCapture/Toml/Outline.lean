import TaskCapture.Toml.Lexeme
import TaskCapture.Toml.Value

/-!
The outline of a TOML document: which words stand as keys and values under which headers, before any
word is looked at. A statement stands on a line of its own; lists and tables in braces may run over
several lines, and nest at most 80 deep.
-/

namespace TaskCapture.Toml

structure Word where
  quoting : Quoting
  /-- The text with its quotes. -/
  text : Text
  place : Nat
  deriving DecidableEq, Repr

/-- The word that stands for a missing one; neither a key nor a value can be read from it. -/
def Word.missing (place : Nat) : Word := ⟨.bare, [], place⟩

/-- A key of one or more parts with dots between them. -/
structure DottedKey where
  path : List Word
  last : Word
  deriving DecidableEq, Repr

/-- A value whose words have not been read. -/
inductive Draft where
  | word (w : Word)
  | list (place : Nat) (items : List Draft)
  | table (place : Nat) (entries : List (DottedKey × Draft))

def Draft.place : Draft → Nat
  | word w => w.place
  | list place _ => place
  | table place _ => place

abbrev Entry := DottedKey × Draft

structure Header where
  place : Nat
  /-- The header opens one more table of a list. -/
  isItem : Bool
  key : DottedKey
  deriving DecidableEq, Repr

structure Section where
  header : Header
  entries : List Entry

/-- The entries before the first header, and the sections. -/
structure Outline where
  entries : List Entry
  sections : List Section

namespace Outline

/-- What is left of a document: its lexemes from some point on. -/
abbrev Rest := List Lexeme

-- The place where the document counts as ended, for failures there.
variable (stop : Nat)

/-- The place of the next lexeme. -/
def next : Rest → Nat
  | [] => stop
  | l :: _ => l.place

def dropBlanks (ls : Rest) : Rest := ls.dropWhile (·.kind == .blank)

/-- What follows blanks, line breaks and comments. -/
def skipGap : Rest → Except Failure Rest
  | [] => .ok []
  | l :: ls =>
    match l.kind with
    | .blank => skipGap ls
    | .newline => if l.text = ['\r'] then fail l.place .expectedLineFeed else skipGap ls
    | .comment => if l.text.any isControl then fail l.place .invalidComment else skipGap ls
    | _ => .ok (l :: ls)

/-- The end of a line, before which a comment may stand. The gap that follows is left. -/
def expectLineEnd (ls : Rest) : Except Failure Rest :=
  match dropBlanks ls with
  | [] => .ok []
  | l :: ls =>
    if l.kind = .newline ∨ l.kind = .comment then .ok (l :: ls)
    else fail l.place .expectedLineEnd

/-! ### Keys -/

/-- A dotted key, of which a part may have been read already, and whether its last part is there. A
part that is not there counts as missing where something else stands. -/
def readKey (part : Option Word) : Rest → (DottedKey × Bool) × Rest
  | [] => ((⟨[], part.getD (.missing stop)⟩, part.isSome), [])
  | l :: ls =>
    match l.kind, part with
    | .blank, _ => readKey part ls
    | .word q, none => readKey (some ⟨q, l.text, l.place⟩) ls
    | .mark .dot, _ =>
      let ((k, isWhole), r) := readKey none ls
      ((⟨part.getD (.missing l.place) :: k.path, k.last⟩, isWhole), r)
    | _, _ => ((⟨[], part.getD (.missing l.place)⟩, part.isSome), l :: ls)

def expectEquals : Rest → Except Failure Rest
  | [] => fail stop .keyWithoutValue
  | l :: ls => if l.kind = .mark .equals then .ok ls else fail l.place .keyWithoutValue

/-! ### Values -/

/-- The rest of a bare word that stands as a value. It may have dots in it, and blanks where a bare
word follows. -/
def readBare : Rest → Text × Rest
  | [] => ([], [])
  | [l] =>
    if l.kind = .word .bare ∨ l.kind = .mark .dot then (l.text, []) else ([], [l])
  | l :: m :: ls =>
    if l.kind = .word .bare ∨ l.kind = .mark .dot then
      let (w, r) := readBare (m :: ls)
      (l.text ++ w, r)
    else if l.kind = .blank ∧ m.kind = .word .bare then
      let (w, r) := readBare ls
      (l.text ++ m.text ++ w, r)
    else ([], l :: m :: ls)

/-- The items of a list up to its closing bracket; the last may have a comma after it. -/
def readItems (readItem : Rest → Except Failure (Draft × Rest)) :
    Nat → Rest → Except Failure (List Draft × Rest)
  | 0, ls => fail (next stop ls) .unclosedArray
  | fuel + 1, ls => do
    match ← skipGap ls with
    | ⟨.mark .closeList, _, _⟩ :: ls => return ([], ls)
    | ls =>
      let (v, ls) ← readItem ls
      match ← skipGap ls with
      | ⟨.mark .closeList, _, _⟩ :: ls => return ([v], ls)
      | ⟨.mark .comma, _, _⟩ :: ls =>
        let (vs, ls) ← readItems readItem fuel ls
        return (v :: vs, ls)
      | ls => fail (next stop ls) .unclosedArray

/-- The entries of a table up to its closing brace; the last may have a comma after it. -/
def readEntries (readItem : Rest → Except Failure (Draft × Rest)) :
    Nat → Rest → Except Failure (List Entry × Rest)
  | 0, ls => fail (next stop ls) .unclosedBraces
  | fuel + 1, ls => do
    match ← skipGap ls with
    | ⟨.mark .closeTable, _, _⟩ :: ls => return ([], ls)
    | ls =>
      let ((k, _), ls) := readKey stop none ls
      let ls ← expectEquals stop (← skipGap ls)
      let (v, ls) ← readItem (← skipGap ls)
      match ← skipGap ls with
      | ⟨.mark .closeTable, _, _⟩ :: ls => return ([(k, v)], ls)
      | ⟨.mark .comma, _, _⟩ :: ls =>
        let (es, ls) ← readEntries readItem fuel ls
        return ((k, v) :: es, ls)
      | ls => fail (next stop ls) .unclosedBraces

/-- A value from its first lexeme on; `inner?` reads the values inside a list or table, of which
there may be none. -/
def readValueWith (inner? : Option (Rest → Except Failure (Draft × Rest))) :
    Rest → Except Failure (Draft × Rest)
  | [] => fail stop .expectedValue
  | l :: ls =>
    match l.kind, inner? with
    | .word .bare, _ | .mark .dot, _ =>
      let (w, r) := readBare (l :: ls)
      .ok (.word ⟨.bare, w, l.place⟩, r)
    | .word q, _ => .ok (.word ⟨q, l.text, l.place⟩, ls)
    | .mark .openList, some inner => do
      let (vs, r) ← readItems stop inner (ls.length + 1) ls
      return (.list l.place vs, r)
    | .mark .openTable, some inner => do
      let (es, r) ← readEntries stop inner (ls.length + 1) ls
      return (.table l.place es, r)
    | .mark .openList, none | .mark .openTable, none => .error ⟨some l.place, .tooDeep⟩
    | _, _ => fail l.place .expectedValue

/-- A value that nests lists and tables at most `depth` deep. -/
def readValue : (depth : Nat) → Rest → Except Failure (Draft × Rest)
  | 0 => readValueWith stop none
  | depth + 1 => readValueWith stop (some (readValue depth))

def maxDepth : Nat := 80

/-- The value after an equals sign. At the end of the line or before a comma it counts as
missing. -/
def readAssigned (ls : Rest) : Except Failure (Draft × Rest) :=
  match dropBlanks ls with
  | [] => .ok (.word (.missing stop), [])
  | l :: ls =>
    if l.kind = .newline ∨ l.kind = .comment ∨ l.kind = .mark .comma then
      .ok (.word (.missing l.place), l :: ls)
    else readValue stop maxDepth (l :: ls)

/-! ### Statements -/

/-- A key with its value on a line. -/
def readEntry (ls : Rest) : Except Failure (Entry × Rest) := do
  let ((k, _), ls) := readKey stop none ls
  let (v, ls) ← readAssigned stop (← expectEquals stop ls)
  return ((k, v), ← expectLineEnd ls)

/-- A header from after its opening brackets on. Where its key is not whole and no closing bracket
follows, the rest of the line is passed over. -/
def readHeader (place : Nat) (isItem : Bool) (ls : Rest) : Except Failure (Header × Rest) := do
  let ((k, isWhole), ls) := readKey stop none ls
  match isItem, ls with
  | false, ⟨.mark .closeList, _, _⟩ :: ls => return (⟨place, isItem, k⟩, ← expectLineEnd ls)
  | true, ⟨.mark .closeList, _, _⟩ :: ⟨.mark .closeList, _, _⟩ :: ls =>
    return (⟨place, isItem, k⟩, ← expectLineEnd ls)
  | true, ⟨.mark .closeList, _, _⟩ :: ls => fail (next stop ls) .unclosedItemHeader
  | _, ls =>
    if isWhole then fail (next stop ls) .unclosedHeader
    else return (⟨place, isItem, k⟩, ls.dropWhile fun l => l.kind != .newline && l.kind != .comment)

/-- The rest of a document, of at most `fuel` statements. -/
def readStatements : Nat → Rest → Except Failure Outline
  | 0, ls => fail (next stop ls) .unexpectedText
  | fuel + 1, ls => do
    match ← skipGap ls with
    | [] => return ⟨[], []⟩
    | l :: ls =>
      match l.kind, ls with
      | .mark .openList, ⟨.mark .openList, _, _⟩ :: ls =>
        let (h, ls) ← readHeader stop l.place true ls
        let o ← readStatements fuel ls
        return ⟨[], ⟨h, o.entries⟩ :: o.sections⟩
      | .mark .openList, ls =>
        let (h, ls) ← readHeader stop l.place false ls
        let o ← readStatements fuel ls
        return ⟨[], ⟨h, o.entries⟩ :: o.sections⟩
      | _, ls =>
        let (e, ls) ← readEntry stop (l :: ls)
        let o ← readStatements fuel ls
        return ⟨e :: o.entries, o.sections⟩

/-- The outline of a document. -/
def ofText (doc : Text) : Except Failure Outline :=
  let ls := lexemes doc
  readStatements (closingPlace ls) (ls.length + 1) ls

end Outline

end TaskCapture.Toml
