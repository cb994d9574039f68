import TaskCapture.Text.CaseTable

/-!
Small letters. A capital sigma is final, and becomes `ς`, when a cased letter stands before it and
none after it; characters that a case rule looks past do not count on either side.
-/

namespace TaskCapture.Text

def isCased (c : Char) : Bool :=
  if c.toNat < 128 then c.isAlpha else inRanges c.toNat casedRanges

/-- Of ASCII, the quote, full stop, colon, circumflex and grave accent. -/
def isCaseIgnorable (c : Char) : Bool :=
  if c.toNat < 128 then [0x27, 0x2E, 0x3A, 0x5E, 0x60].contains c.toNat
  else inRanges c.toNat caseIgnorableRanges

/-- The small letter of one character, the sigma taken as not final. -/
def lowerChar (c : Char) : Text :=
  if c.toNat < 128 then [c.toLower]
  else if c.toNat = 0x130 then ['i', '\u0307']
  else match lowerRanges.find? (·.holds c.toNat) with
    | some r => [Char.ofNat (c.toNat + r.shift).toNat]
    | none => [c]

/-- Past what is ignored, a cased character comes next. -/
def casedNext : Text → Bool
  | [] => false
  | c :: t => if isCaseIgnorable c then casedNext t else isCased c

/-- `cased` tells whether the last character before, past what is ignored, is cased. -/
def lowerFrom (cased : Bool) : Text → Text
  | [] => []
  | c :: t =>
    (if c.toNat = 0x3A3 then (if cased && !casedNext t then ['ς'] else ['σ']) else lowerChar c) ++
      lowerFrom (if isCaseIgnorable c then cased else isCased c) t

def lower (t : Text) : Text := lowerFrom false t

@[simp] theorem lower_nil : lower [] = [] := rfl

theorem lowerChar_of_lt {c : Char} (h : c.toNat < 128) : lowerChar c = [c.toLower] := by
  simp [lowerChar, h]

/-- On ASCII, small letters are taken one by one. -/
theorem lowerFrom_of_ascii (b : Bool) {t : Text} (h : ∀ c ∈ t, c.toNat < 128) :
    lowerFrom b t = t.map Char.toLower := by
  induction t generalizing b with
  | nil => rfl
  | cons c t ih =>
    have hc := h c (by simp)
    have hs : c.toNat ≠ 0x3A3 := by omega
    simp [lowerFrom, hs, lowerChar_of_lt hc, ih _ fun d hd => h d (by simp [hd])]

theorem lower_of_ascii {t : Text} (h : ∀ c ∈ t, c.toNat < 128) : lower t = t.map Char.toLower :=
  lowerFrom_of_ascii false h

end TaskCapture.Text
