import TaskCapture.Text.CharRange

/-!
White space. Blanks separate words everywhere; the zero-width space and the byte order mark are
not blank.
-/

namespace TaskCapture.Text

def blankRanges : List (Nat × Nat) :=
  [(0x9, 0xD), (0x20, 0x20), (0x85, 0x85), (0xA0, 0xA0), (0x1680, 0x1680), (0x2000, 0x200A),
   (0x2028, 0x2029), (0x202F, 0x202F), (0x205F, 0x205F), (0x3000, 0x3000)]

def isBlank (c : Char) : Bool := inRanges c.toNat blankRanges

theorem isBlank_space : isBlank ' ' = true := by decide

theorem isBlank_of_isWhitespace {c : Char} (h : c.isWhitespace = true) : isBlank c = true := by
  simp only [Char.isWhitespace, Bool.or_eq_true, decide_eq_true_eq] at h
  rcases h with ((rfl | rfl) | rfl) | rfl <;> decide

def skipBlanks (t : Text) : Text := t.dropWhile isBlank

/-- The text without the blanks at its two ends. -/
def trim (t : Text) : Text := (skipBlanks (skipBlanks t).reverse).reverse

end TaskCapture.Text
