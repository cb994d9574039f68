import TaskCapture.Capture.Priority
import TaskCapture.Text.WordChar
import TaskCapture.Text.Words

/-!
Priority markers in running text. There are four kinds, and the first kind that occurs anywhere
wins, at its leftmost place: an exclamation mark with a level word, `p1` to `p4` as a word, a run of
three or more exclamation marks, two of them.
-/

namespace TaskCapture

open Text

/-- A text cut in three: what was found and what stands around it. -/
structure Cut (α : Type) where
  value : α
  before : Text
  marker : Text
  after : Text

namespace Cut

variable {α : Type}

def span (c : Cut α) : Span := ⟨byteSize c.before, byteSize c.before + byteSize c.marker⟩

/-- A character before everything. -/
def push (a : Char) (c : Cut α) : Cut α := { c with before := a :: c.before }

end Cut

/-- What a kind of marker makes of a place in a text: given whether a word character stands before
it, the value and the length of a marker that starts there. -/
abbrev Pattern (α : Type) := Bool → Text → Option (α × Nat)

/-- The leftmost marker of a kind. -/
def Pattern.find? {α : Type} (p : Pattern α) (afterWord : Bool) : Text → Option (Cut α)
  | [] => none
  | c :: t =>
    match p afterWord (c :: t) with
    | some (a, n) => some ⟨a, [], (c :: t).take n, (c :: t).drop n⟩
    | none => (find? p (isWord c) t).map (·.push c)

theorem Pattern.eq_of_find? {α : Type} {p : Pattern α} {b : Bool} {t : Text} {c : Cut α}
    (h : p.find? b t = some c) : t = c.before ++ c.marker ++ c.after := by
  induction t generalizing b c with
  | nil => simp [find?] at h
  | cons a t ih =>
    rw [find?] at h
    split at h
    · cases h; simp
    · obtain ⟨c', hc, rfl⟩ := Option.map_eq_some_iff.1 h
      simp [Cut.push, ← ih hc]

/-- The text begins with `w` in any mixture of capitals and small letters of ASCII. -/
def beginsWith (w t : Text) : Bool := (t.take w.length).map Char.toLower == w

namespace Priority

/-- An exclamation mark and a level word that no word character follows. -/
def levelWord : Pattern Priority := fun _ t =>
  match t with
  | '!' :: r => all.findSome? fun p =>
      let n := p.keyword.length
      if beginsWith p.keyword.toList r && !startsWord (r.drop n) then some (p, n + 1) else none
  | _ => none

/-- The letter `p` and a level, as a word of their own. -/
def shorthand : Pattern Priority := fun afterWord t =>
  match t with
  | c :: d :: r =>
    if (c = 'p' ∨ c = 'P') ∧ '1' ≤ d ∧ d ≤ '4' ∧ afterWord = false ∧ startsWord r = false then
      (ofLevel? (d.toNat - '0'.toNat)).map (·, 2)
    else none
  | _ => none

/-- The whole of a run of three or more exclamation marks. -/
def longRun : Pattern Priority := fun _ t =>
  let n := (t.takeWhile (· == '!')).length
  if 3 ≤ n then some (urgent, n) else none

/-- Two exclamation marks. Where no run is longer, they stand alone. -/
def pair : Pattern Priority := fun _ t =>
  match t with
  | '!' :: '!' :: _ => some (high, 2)
  | _ => none

def patterns : List (Pattern Priority) := [levelWord, shorthand, longRun, pair]

/-- The marker that decides the priority of a text. -/
def find? (t : Text) : Option (Cut Priority) := patterns.findSome? fun p => p.find? false t

/-- The priority of a text, and the text without its marker. A space takes the place of the marker
and blanks are collapsed; where there is no marker the text stays as it is. -/
def extract (t : Text) : Option Priority × Text :=
  match find? t with
  | some c => (some c.value, collapse (c.before ++ ' ' :: c.after))
  | none => (none, t)

theorem eq_of_find? {t : Text} {c : Cut Priority} (h : find? t = some c) :
    t = c.before ++ c.marker ++ c.after := by
  obtain ⟨p, _, hp⟩ := List.exists_of_findSome?_eq_some h
  exact Pattern.eq_of_find? hp

theorem extract_of_find?_none {t : Text} (h : find? t = none) : extract t = (none, t) := by
  simp [extract, h]

end Priority

end TaskCapture
