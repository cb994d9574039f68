import TaskCapture.Phrase.Day

/-!
Finding a date in running text. A resolver gives the bytes that a date takes up and the instant that
it means; the English one takes the first word at which a phrase begins.
-/

namespace TaskCapture

open Text

/-- A date in a text: where it stands, what it means, and whether it says a time. -/
structure DateMatch where
  span : Span
  instant : Instant
  hasTime : Bool
  deriving DecidableEq

/-- What finds a date in a text, seen from a reference instant. -/
abbrev Resolver := Text → Instant → Option DateMatch

namespace Phrase

/-- What the first words of a list mean, and how many of them. -/
structure Reading where
  instant : Instant
  hasTime : Bool
  used : Nat

/-- A date and a time in either order, or one of them. A time alone means the next instant with that
time of day, a date alone its midnight. -/
def reading? (ref : Instant) (ws : List Text) : Option Reading :=
  match clock? ws with
  | some (c, n) =>
    match day? ref (ws.drop n) with
    | some hit => some ⟨⟨hit.date, c⟩, true, n + hit.used⟩
    | none =>
      (if c.toSeconds < ref.time.toSeconds then ref.date.succ? else some ref.date).map
        fun d => ⟨⟨d, c⟩, true, n⟩
  | none => (day? ref ws).map fun hit =>
    match hit.time with
    | some c => ⟨⟨hit.date, c⟩, true, hit.used⟩
    | none =>
      match clock? (ws.drop hit.used) with
      | some (c, n) => ⟨⟨hit.date, c⟩, true, hit.used + n⟩
      | none => ⟨⟨hit.date, .midnight⟩, false, hit.used⟩

/-- The first place where a phrase begins: how many words stand before it, and what it means. -/
def first? (ref : Instant) : List Text → Option (Nat × Reading)
  | [] => none
  | w :: ws =>
    match reading? ref (w :: ws) with
    | some r => some (0, r)
    | none => (first? ref ws).map fun (k, r) => (k + 1, r)

end Phrase

namespace Resolver

/-- English date phrases. -/
def english : Resolver := fun t ref => do
  let ps := placed 0 t
  let (k, r) ← Phrase.first? ref (ps.map fun p => Phrase.norm p.text)
  let head ← ps[k]?
  let last ← ps[k + r.used - 1]?
  return ⟨⟨head.start, last.stop⟩, r.instant, r.hasTime⟩

/-- Always the same match, whatever the text. -/
def always (m : DateMatch) : Resolver := fun _ _ => some m

/-- How many bytes stand before the first occurrence of `w`. -/
def offsetOf? (w : Text) : Text → Option Nat
  | [] => if w.isEmpty then some 0 else none
  | c :: t => if w.isPrefixOf (c :: t) then some 0 else (offsetOf? w t).map (· + c.utf8Size)

/-- The first occurrence of `w` means the instant. -/
def literal (w : Text) (instant : Instant) (hasTime : Bool) : Resolver := fun t _ =>
  (offsetOf? w t).map fun n => ⟨⟨n, n + byteSize w⟩, instant, hasTime⟩

end Resolver

end TaskCapture
