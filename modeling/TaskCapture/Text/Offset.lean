import TaskCapture.Text.CharRange

/-!
Positions in a text are counted in bytes of UTF-8. A position is a boundary when no character
straddles it; only there can a text be cut.
-/

namespace TaskCapture

/-- The bytes from `start` up to but not including `stop`. -/
structure Span where
  start : Nat
  stop : Nat
  deriving DecidableEq, Repr

/-- Two spans share a byte; a span that is empty or runs backwards may still lie across another. -/
def Span.overlaps (a b : Span) : Bool := decide (a.start < b.stop) && decide (b.start < a.stop)

namespace Text

def byteSize : Text → Nat
  | [] => 0
  | c :: t => c.utf8Size + byteSize t

@[simp] theorem byteSize_nil : byteSize [] = 0 := rfl
@[simp] theorem byteSize_cons (c : Char) (t : Text) :
    byteSize (c :: t) = c.utf8Size + byteSize t := rfl

@[simp] theorem byteSize_append (s t : Text) : byteSize (s ++ t) = byteSize s + byteSize t := by
  induction s with
  | nil => simp
  | cons c s ih => simp [ih, Nat.add_assoc]

/-- The parts before and after byte `n`, if `n` is a boundary. -/
def splitAtByte : Nat → Text → Option (Text × Text)
  | 0, t => some ([], t)
  | _ + 1, [] => none
  | n + 1, c :: t =>
    if c.utf8Size ≤ n + 1 then
      (splitAtByte (n + 1 - c.utf8Size) t).map fun (a, b) => (c :: a, b)
    else none

def isBoundary (t : Text) (n : Nat) : Bool := (splitAtByte n t).isSome

theorem splitAtByte_append (s t : Text) : splitAtByte (byteSize s) (s ++ t) = some (s, t) := by
  induction s with
  | nil => cases t <;> rfl
  | cons c s ih =>
    have hc := c.utf8Size_pos
    obtain ⟨n, hn⟩ : ∃ n, byteSize (c :: s) = n + 1 :=
      ⟨c.utf8Size + byteSize s - 1, by simp; omega⟩
    have hs : n + 1 - c.utf8Size = byteSize s := by simp at hn; omega
    have hle : c.utf8Size ≤ n + 1 := by simp at hn; omega
    rw [hn, List.cons_append, splitAtByte, if_pos hle, hs, ih]
    rfl

/-- A cut loses nothing and falls where it was asked for. -/
theorem eq_append_of_splitAtByte {n : Nat} {t a b : Text} (h : splitAtByte n t = some (a, b)) :
    t = a ++ b ∧ byteSize a = n := by
  induction t generalizing n a b with
  | nil =>
    cases n with
    | zero => simp_all [splitAtByte]
    | succ n => simp [splitAtByte] at h
  | cons c t ih =>
    cases n with
    | zero => simp_all [splitAtByte]
    | succ n =>
      rw [splitAtByte] at h
      split at h
      · rename_i hle
        obtain ⟨⟨a', b'⟩, hab, he⟩ := Option.map_eq_some_iff.1 h
        simp only [Prod.mk.injEq] at he
        obtain ⟨rfl, rfl⟩ := he
        obtain ⟨rfl, hb⟩ := ih hab
        exact ⟨rfl, by simp; omega⟩
      · simp at h

theorem splitAtByte_eq_some_iff {n : Nat} {t a b : Text} :
    splitAtByte n t = some (a, b) ↔ t = a ++ b ∧ byteSize a = n :=
  ⟨eq_append_of_splitAtByte, fun ⟨ht, hn⟩ => ht ▸ hn ▸ splitAtByte_append a b⟩

end Text

end TaskCapture
