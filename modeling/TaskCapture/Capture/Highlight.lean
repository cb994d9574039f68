import TaskCapture.Capture.Marker
import TaskCapture.Capture.Tag
import TaskCapture.Phrase.Resolver

/-!
Highlighting a line: the bytes of each marker, and of the date that is found when the markers are
covered with spaces. The text between them makes tokens of its own.
-/

namespace TaskCapture

open Text

inductive TokenKind where
  | text
  | priority
  | category
  | context
  | dueDate
  deriving DecidableEq, Repr

structure Token where
  kind : TokenKind
  span : Span
  deriving DecidableEq, Repr

namespace Highlight

/-- The marks, with those of the spans that lie across none of them. -/
def addFree (kind : TokenKind) (marks : List Token) (spans : List Span) : List Token :=
  spans.foldl (fun ms s => if ms.any (·.span.overlaps s) then ms else ms ++ [⟨kind, s⟩]) marks

/-- The priority marker, then the categories, then the contexts. -/
def markers (t : Text) : List Token :=
  let ps : List Token := (Priority.find? t).toList.map fun c => ⟨.priority, c.span⟩
  let cs := addFree .category ps (Tag.spans .category 0 (Tag.pieces .category t))
  addFree .context cs (Tag.spans .context 0 (Tag.pieces .context t))

/-- The text from byte `n` on, each byte that is marked written as a space. -/
def cover (marks : List Token) (n : Nat) : Text → Text
  | [] => []
  | c :: t =>
    (if marks.any fun m => m.span.start ≤ n ∧ n < m.span.stop then List.replicate c.utf8Size ' '
      else [c]) ++ cover marks (n + c.utf8Size) t

/-- The date, if it can be marked in the text. -/
def dateMark? (resolve : Resolver) (ref : Instant) (t : Text) (marks : List Token) : Option Token :=
  (resolve (cover marks 0 t) ref).bind fun m =>
    if m.span.stop ≤ byteSize t ∧ isBoundary t m.span.start ∧ isBoundary t m.span.stop ∧
        !marks.any (·.span.overlaps m.span) then some ⟨.dueDate, m.span⟩
    else none

/-- Marks are kept by where they start; one goes after those that start with it. -/
def insertMark (m : Token) : List Token → List Token
  | [] => [m]
  | k :: ks => if k.span.start ≤ m.span.start then k :: insertMark m ks else m :: k :: ks

def sortMarks (marks : List Token) : List Token := marks.foldl (fun ms m => insertMark m ms) []

/-- The marks in turn, with a token of text wherever one starts past the byte reached so far. -/
def fill (size : Nat) (reached : Nat) : List Token → List Token
  | [] => if reached < size then [⟨.text, ⟨reached, size⟩⟩] else []
  | m :: ms =>
    (if reached < m.span.start then [⟨.text, ⟨reached, m.span.start⟩⟩] else []) ++
      m :: fill size m.span.stop ms

end Highlight

open Highlight in
/-- The tokens of a line. -/
def highlight (resolve : Resolver) (ref : Instant) (t : Text) : List Token :=
  let marks := markers t
  fill (byteSize t) 0 (sortMarks (marks ++ (dateMark? resolve ref t marks).toList))

end TaskCapture
