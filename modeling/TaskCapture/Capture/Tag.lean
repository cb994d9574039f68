import TaskCapture.Text.Lowercase
import TaskCapture.Text.WordChar
import TaskCapture.Text.Words

/-!
Tags: a sigil and the run of word characters and hyphens right after it. `#` marks a category and
`@` a context; a sigil with no such run is an ordinary character.
-/

namespace TaskCapture

open Text

inductive TagKind where
  | category
  | context
  deriving DecidableEq, Repr

def TagKind.sigil : TagKind → Char
  | .category => '#'
  | .context => '@'

namespace Tag

def isTagChar (c : Char) : Bool := isWord c || c == '-'

/-- A text taken apart at its tags. -/
inductive Piece where
  | plain (c : Char)
  | tag (name : Text)
  deriving DecidableEq, Repr

/-- The text of a piece. -/
def Piece.text (k : TagKind) : Piece → Text
  | plain c => [c]
  | tag name => k.sigil :: name

/-- The name of a tag starts at the head of `t`: its longest run of tag characters. -/
def nameOf (t : Text) : Text := t.takeWhile isTagChar

def pieces (k : TagKind) : Text → List Piece
  | [] => []
  | c :: t =>
    if c = k.sigil ∧ nameOf t ≠ [] then .tag (nameOf t) :: (pieces k t).drop (nameOf t).length
    else .plain c :: pieces k t

def names (ps : List Piece) : List Text :=
  ps.filterMap fun | .tag name => some name | .plain _ => none

/-- What is left when the tags are taken out. -/
def rest (ps : List Piece) : Text :=
  ps.filterMap fun | .plain c => some c | .tag _ => none

/-- Where the tags lie in a text whose first byte is byte `n`. -/
def spans (k : TagKind) (n : Nat) : List Piece → List Span
  | [] => []
  | .plain c :: ps => spans k (n + c.utf8Size) ps
  | .tag name :: ps =>
    let stop := n + byteSize (Piece.text k (.tag name))
    ⟨n, stop⟩ :: spans k stop ps

/-- A text holds a tag of the kind. -/
def occurs (k : TagKind) (t : Text) : Bool := !(names (pieces k t)).isEmpty

/-- The tags of a text in small letters, in order and with repetitions, and the text without them.
Blanks are collapsed where a tag was taken out; a text without tags stays as it is. -/
def extract (k : TagKind) (t : Text) : List Text × Text :=
  let ps := pieces k t
  if (names ps).isEmpty then ([], t) else ((names ps).map lower, collapse (rest ps))

@[simp] theorem pieces_nil (k : TagKind) : pieces k [] = [] := rfl

theorem isTagChar_sigil (k : TagKind) : isTagChar k.sigil = false := by cases k <;> decide

theorem pieces_cons_of_ne {k : TagKind} {c : Char} (h : c ≠ k.sigil) (t : Text) :
    pieces k (c :: t) = .plain c :: pieces k t := by simp [pieces, h]

/-- Tag characters without a sigil before them are plain. -/
theorem pieces_append_of_tagChars {k : TagKind} {w : Text} (h : ∀ c ∈ w, isTagChar c = true)
    (t : Text) : pieces k (w ++ t) = w.map .plain ++ pieces k t := by
  induction w with
  | nil => rfl
  | cons c w ih =>
    have hc : c ≠ k.sigil := by
      rintro rfl
      simpa [isTagChar_sigil] using h _ (List.mem_cons_self ..)
    rw [List.cons_append, pieces_cons_of_ne hc, ih fun d hd => h d (List.mem_cons_of_mem _ hd)]
    rfl

theorem nameOf_append_dropWhile (t : Text) : nameOf t ++ t.dropWhile isTagChar = t :=
  List.takeWhile_append_dropWhile

theorem isTagChar_of_mem_nameOf {t : Text} {c : Char} (h : c ∈ nameOf t) : isTagChar c = true :=
  List.all_eq_true.1 List.all_takeWhile c h

/-- At a sigil with a name the text is taken up again after the name. -/
theorem pieces_sigil {k : TagKind} {t : Text} (h : nameOf t ≠ []) :
    pieces k (k.sigil :: t) = .tag (nameOf t) :: pieces k (t.dropWhile isTagChar) := by
  have hp := pieces_append_of_tagChars (k := k) (w := nameOf t)
    (fun c hc => isTagChar_of_mem_nameOf hc) (t.dropWhile isTagChar)
  rw [nameOf_append_dropWhile] at hp
  simp [pieces, h, hp, List.drop_left']

theorem pieces_sigil_of_nil {k : TagKind} {t : Text} (h : nameOf t = []) :
    pieces k (k.sigil :: t) = .plain k.sigil :: pieces k t := by simp [pieces, h]

/-- The pieces make up the text. -/
theorem flatMap_text_pieces (k : TagKind) (t : Text) : (pieces k t).flatMap (Piece.text k) = t := by
  match t with
  | [] => rfl
  | c :: t =>
    have ih := flatMap_text_pieces k t
    by_cases hc : c = k.sigil
    · subst hc
      by_cases hn : nameOf t = []
      · simp [pieces_sigil_of_nil hn, Piece.text, ih]
      · have hlen : (t.dropWhile isTagChar).length ≤ t.length :=
          (List.dropWhile_sublist isTagChar).length_le
        have ih' := flatMap_text_pieces k (t.dropWhile isTagChar)
        simp [pieces_sigil hn, Piece.text, ih', nameOf_append_dropWhile]
    · simp [pieces_cons_of_ne hc, Piece.text, ih]
termination_by t.length

end Tag

end TaskCapture
