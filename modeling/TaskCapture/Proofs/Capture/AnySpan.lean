import TaskCapture.Proofs.Capture.DateWords

/-!
Dates that any resolver finds. Nothing is known of the span of such a match. Where it is a range of
the text it is cut out, and where one of its ends is no place in the text the match is given up. A
span that runs backwards between two places is neither: it leaves the text between them twice.
-/

namespace TaskCapture

open Text

namespace Span

/-- The span is a range of the text: it does not start after its end, it ends in the text, and no
character straddles its ends. -/
structure Within (s : Span) (t : Text) : Prop where
  le : s.start ≤ s.stop
  le_size : s.stop ≤ byteSize t
  start : isBoundary t s.start = true
  stop : isBoundary t s.stop = true

/-- The span runs backwards between two places where the text can be cut. -/
structure Backward (s : Span) (t : Text) : Prop where
  lt : s.stop < s.start
  start : isBoundary t s.start = true
  stop : isBoundary t s.stop = true

lemma within_or_backward {s : Span} {t : Text} (hstart : isBoundary t s.start = true)
    (hstop : isBoundary t s.stop = true) : s.Within t ∨ s.Backward t := by
  rcases le_or_gt s.start s.stop with hle | hlt
  · exact .inl ⟨hle, le_byteSize_of_isBoundary hstop, hstart, hstop⟩
  · exact .inr ⟨hlt, hstart, hstop⟩

lemma Backward.not_within {s : Span} {t : Text} (h : s.Backward t) : ¬ s.Within t := fun hw => by
  have hle := hw.le
  have hlt := h.lt
  omega

end Span

namespace DateMatch

/-- What is taken out for the match, `left` being left of the text. -/
def taken (m : DateMatch) (left : Text) : DateTaken where
  date := some m.instant.date
  time := if m.hasTime then some m.instant.time.text else none
  rest := collapse left

/-- Nothing is taken out, and the text stays as it is. -/
def givenUp (m : DateMatch) (t : Text) : DateTaken where
  rest := t
  ignored := some m.span

/-- The span of the match is used for what it is. Where it is no range of the text, nothing is taken
out. Where it is one, its characters are taken out and all others stay, each of them once and in
their order, with the blanks collapsed. -/
def CutsOut (m : DateMatch) (t : Text) (d : DateTaken) : Prop :=
  (¬ m.span.Within t → d = m.givenUp t) ∧
    ∀ a x b, t = a ++ x ++ b → m.span = ⟨byteSize a, byteSize (a ++ x)⟩ →
      d = m.taken (a ++ b) ∧ visible d.rest = visible a ++ visible b

end DateMatch

variable {resolve : Resolver} {ref : Instant} {t : Text} {m : DateMatch}

/-- The two sides of a span are looked at one by one. -/
lemma around?_eq_none_iff {s : Span} :
    around? t s = none ↔ ¬ (isBoundary t s.start = true ∧ isBoundary t s.stop = true) := by
  unfold around? isBoundary
  cases splitAtByte s.start t <;> cases splitAtByte s.stop t <;> simp

section

variable (hm : resolve t ref = some m)

include hm

/-- A match is given up exactly if one of its ends is no place in the text. -/
lemma takeDate_eq_givenUp_iff : takeDate resolve ref t = m.givenUp t ↔
    ¬ (isBoundary t m.span.start = true ∧ isBoundary t m.span.stop = true) := by
  rw [← around?_eq_none_iff]
  constructor
  · intro h
    cases hcut : around? t m.span with
    | none => rfl
    | some cut =>
      have hdate := congrArg DateTaken.date h
      simp [takeDate, hm, hcut, DateMatch.givenUp] at hdate
  · intro hcut
    simp only [takeDate, hm, hcut]
    rfl

/-- The text before the start of a span and after its end is left, whichever comes first. -/
lemma takeDate_eq_taken {a b a' b' : Text} (ha : t = a ++ a') (hb : t = b' ++ b)
    (hs : m.span = ⟨byteSize a, byteSize b'⟩) : takeDate resolve ref t = m.taken (a ++ b) := by
  have hcut : around? t m.span = some (a, b) := by
    rw [hs, around?_of_cuts ha hb]
  simp only [takeDate, hm, hcut]
  rfl

/-- **A span is used for what it is unless it runs backwards.** One that runs backwards between two
places of the text is used as well, and the text between them is then left twice. -/
theorem takeDate_cutsOut_iff :
    (m.CutsOut t (takeDate resolve ref t) ↔ ¬ m.span.Backward t) ∧
      ∀ a x b, t = a ++ x ++ b → m.span = ⟨byteSize (a ++ x), byteSize a⟩ →
        takeDate resolve ref t = m.taken (a ++ x ++ x ++ b) := by
  refine ⟨⟨fun h hback => ?_, fun hforward => ⟨fun hout => ?_, fun a x b ht hs => ?_⟩⟩,
    fun a x b ht hs => ?_⟩
  · exact (takeDate_eq_givenUp_iff hm).1 (h.1 hback.not_within) ⟨hback.start, hback.stop⟩
  · rw [takeDate_eq_givenUp_iff hm]
    rintro ⟨hstart, hstop⟩
    exact (Span.within_or_backward hstart hstop).elim hout hforward
  · have htaken := takeDate_eq_taken hm (by rw [ht, List.append_assoc]) ht hs
    refine ⟨htaken, ?_⟩
    rw [htaken, DateMatch.taken, visible_collapse, visible_append]
  · have htaken := takeDate_eq_taken hm ht (by rw [ht, List.append_assoc]) hs
    rwa [← List.append_assoc] at htaken

end

/-- A word that means a date, and a span that starts within a letter. -/
theorem takeDate_cutsOut_iff_of_someday :
    let ref : Instant := ⟨⟨2025, 3, 5, by decide, by decide, by decide, by decide⟩, .noon⟩
    let t := "Éclair someday, yes".toList
    let m : DateMatch := ⟨⟨8, 15⟩, ref, false⟩
    let cutting : DateMatch := ⟨⟨1, 7⟩, ref, true⟩
    Resolver.literal "someday".toList ref false t ref = some m ∧ ¬ m.span.Backward t ∧
      takeDate (Resolver.literal "someday".toList ref false) ref t =
        m.taken ("Éclair ".toList ++ ", yes".toList) ∧
      ¬ cutting.span.Within t ∧ takeDate (Resolver.always cutting) ref t = cutting.givenUp t := by
  intro ref t m cutting
  have hm : Resolver.literal "someday".toList ref false t ref = some m := by decide
  have hforward : ¬ m.span.Backward t := fun h => absurd h.lt (by decide)
  have hcut := (takeDate_cutsOut_iff hm).1.2 hforward
  have hout : ¬ cutting.span.Within t := fun h => absurd h.start (by decide)
  have hcutting : ¬ cutting.span.Backward t := fun h => absurd h.lt (by decide)
  have halways : Resolver.always cutting t ref = some cutting := rfl
  have hgiven := (takeDate_cutsOut_iff halways).1.2 hcutting
  exact ⟨hm, hforward,
    (hcut.2 "Éclair ".toList "someday".toList ", yes".toList (by decide) (by decide)).1, hout,
    hgiven.1 hout⟩

/-- A span that starts after its end is no range of the text, and yet it is used: the letters
between its ends are doubled. -/
theorem takeDate_of_backward_span :
    let ref : Instant := ⟨⟨2025, 3, 5, by decide, by decide, by decide, by decide⟩, .noon⟩
    let t := "Pack bags".toList
    let m : DateMatch := ⟨⟨5, 2⟩, ref, false⟩
    ¬ m.span.Within t ∧ takeDate (Resolver.always m) ref t =
      { date := some ref.date, rest := "Pack ck bags".toList } := by
  intro ref t m
  exact ⟨fun h => absurd h.le (by decide), by decide +kernel⟩

end TaskCapture
