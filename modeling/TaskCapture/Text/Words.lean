import TaskCapture.Text.Blank
import TaskCapture.Text.Offset

/-!
The words of a text are its longest runs without blanks. `collapse` writes them with one space
between; `placed` keeps where each one started.
-/

namespace TaskCapture.Text

/-- The text goes on with a character that is not blank. -/
def startsSolid : Text → Bool
  | [] => false
  | c :: _ => !isBlank c

def words : Text → List Text
  | [] => []
  | c :: t =>
    if isBlank c then words t
    else if startsSolid t then (words t).modifyHead (c :: ·)
    else [c] :: words t

/-- The words of `t` on one line, one space apart. -/
def collapse (t : Text) : Text := List.intercalate [' '] (words t)

@[simp] theorem words_nil : words [] = [] := rfl

theorem words_cons_blank {c : Char} (h : isBlank c = true) (t : Text) :
    words (c :: t) = words t := by
  simp [words, h]

theorem words_ne_nil {t : Text} (h : startsSolid t = true) : words t ≠ [] := by
  cases t with
  | nil => simp [startsSolid] at h
  | cons c t =>
    have hc : isBlank c = false := by simpa [startsSolid] using h
    rw [words]
    simp only [hc, Bool.false_eq_true, ↓reduceIte]
    split
    · rename_i ht
      have := words_ne_nil ht
      cases hw : words t with
      | nil => exact absurd hw this
      | cons w ws => simp
    · simp

/-- A word and the byte at which it starts. -/
structure Placed where
  start : Nat
  text : Text
  deriving DecidableEq, Repr

def Placed.stop (p : Placed) : Nat := p.start + byteSize p.text

/-- The words of a text whose first byte is byte `n`. -/
def placed (n : Nat) : Text → List Placed
  | [] => []
  | c :: t =>
    if isBlank c then placed (n + c.utf8Size) t
    else if startsSolid t then (placed (n + c.utf8Size) t).modifyHead fun p => ⟨n, c :: p.text⟩
    else ⟨n, [c]⟩ :: placed (n + c.utf8Size) t

theorem map_text_placed (n : Nat) (t : Text) : (placed n t).map (·.text) = words t := by
  induction t generalizing n with
  | nil => rfl
  | cons c t ih =>
    rw [placed, words]
    split
    · exact ih _
    · split
      · rw [← ih (n + c.utf8Size)]
        cases placed (n + c.utf8Size) t <;> rfl
      · simp [ih]

end TaskCapture.Text
