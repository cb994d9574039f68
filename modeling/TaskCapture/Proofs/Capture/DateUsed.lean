import TaskCapture.Proofs.Capture.DateToken
import TaskCapture.Proofs.Capture.TagTokens
import TaskCapture.Proofs.Machine.WholeWords
import TaskCapture.Proofs.Phrase.EitherOrder

/-!
The date that is highlighted is the date that is used. It is found in the line with its markers
covered, in the text of its token, and in the words that are left when the markers are taken out.
All three give the same day and time.
-/

namespace TaskCapture

open Text

variable {ref : Instant} {t : Text}

namespace Resolver

/-- **A match is found again in its own text**, all of which it then takes up. -/
theorem english_slice {m : DateMatch} (h : english t ref = some m) :
    english (m.span.slice t) ref =
      some ⟨⟨0, byteSize (m.span.slice t)⟩, m.instant, m.hasTime⟩ := by
  obtain ⟨a', x', b', htake⟩ := exists_takesWords_of_english h
  obtain ⟨a, x, b, r, rfl, rfl, hr, hused⟩ := exists_cut_of_english h
  have hx : x' = x := by
    have hslice := Span.slice_append a' x' b'
    rw [← htake.text_eq, ← htake.span_eq, Span.slice_append] at hslice
    exact hslice.symm
  rw [Span.slice_append]
  exact english_of_whole (hx ▸ htake.trimmed) hr hused

/-- What a match means is what its words are taken for. -/
lemma outOf_of_english {m : DateMatch} (h : english t ref = some m) :
    ∃ ws, Phrase.outOf ref (words t) = (some m.instant.date,
      if m.hasTime then some m.instant.time.text else none, ws) := by
  unfold Phrase.outOf
  cases hw : Phrase.inWords? ref (words t) with
  | none =>
    rw [english_of_none hw] at h
    cases h
  | some kr =>
    obtain ⟨_, _, -, -, he⟩ := english_of_some hw
    rw [h] at he
    cases he
    exact ⟨_, rfl⟩

end Resolver

namespace Highlight

/-- A span that no mark shares a byte with holds the same text when the marks are covered. -/
lemma slice_cover {marks : List Token} {s : Span} (hs : s.Fits t)
    (h : ∀ m ∈ marks, m.span.overlaps s = false) : s.slice (cover marks 0 t) = s.slice t := by
  obtain ⟨a, x, b, rfl, -, rfl⟩ := hs
  have hx : cover marks (byteSize a) x = x := by
    refine cover_of_not_covers ?_
    rintro p hp hp' ⟨m, hm, hmp⟩
    have := Span.overlaps_eq_false_iff.1 (h m hm)
    simp only at this
    omega
  have hcover := Span.slice_append (cover marks 0 a) x (cover marks (0 + byteSize (a ++ x)) b)
  have htext := Span.slice_append a x b
  rw [byteSize_append] at hcover htext
  rw [byteSize_cover] at hcover
  rw [htext, cover_append, cover_append, Nat.zero_add (byteSize a), hx, hcover]

/-- **The date of the token is the due date.** Where tags stand apart from other text and from the
priority marker, the text of a date token is a date by itself. It is the date of the line with its
markers covered, and the task has its day and, if a time is said, its hour and minute. -/
theorem dueDate_of_token (htags : ∀ k, Tag.StandApart k t) (hmarker : MarkerApart t) {m : Token}
    (hm : m ∈ highlight Resolver.english ref t) (hkind : m.kind = .dueDate) :
    ∃ d, Resolver.english (cover (markers t) 0 t) ref = some d ∧ d.span = m.span ∧
      Resolver.english (m.span.slice t) ref =
        some ⟨⟨0, byteSize (m.span.slice t)⟩, d.instant, d.hasTime⟩ ∧
      (interpret Resolver.english ref t).dueDate = some d.instant.date ∧
      (interpret Resolver.english ref t).dueTime =
        if d.hasTime then some d.instant.time.text else none := by
  have hmark : dateMark? Resolver.english ref t (markers t) = some m :=
    ((mem_highlight_iff (by simp [hkind])).1 hm).resolve_left fun h =>
      (kind_ne_of_mem_markers h).2 hkind
  obtain ⟨d, hd, rfl, hstart, hstop, hapart⟩ := dateMark?_eq_some_iff.1 hmark
  have hfits : d.span.Fits t :=
    Span.fits_iff.2 ⟨Resolver.forward_english _ _ _ hd, hstart, hstop⟩
  have hslice := Resolver.english_slice hd
  rw [slice_cover hfits hapart] at hslice
  -- no marker lies in the name of a tag at all
  have hname : MarkerOpensName t := fun c hc k s hs hover => by
    rw [hmarker c hc k s hs] at hover
    cases hover
  obtain ⟨ws, hout⟩ := Resolver.outOf_of_english hd
  rw [words_cover_markers htags hname] at hout
  refine ⟨d, hd, rfl, hslice, ?_, ?_⟩
  · rw [interpret_eq_gistOf]
    exact congrArg Prod.fst hout
  · rw [interpret_eq_gistOf]
    exact congrArg (·.2.1) hout

/-- A date between markers of each kind. -/
theorem dueDate_of_token_of_bins :
    let ref : Instant := ⟨⟨2025, 3, 5, by decide, by decide, by decide, by decide⟩, .noon⟩
    let next : Date := ⟨2025, 3, 6, by decide, by decide, by decide, by decide⟩
    let early : Clock := ⟨9, 30, 0, by decide, by decide, by decide⟩
    let t := "Take out #müll tomorrow, at 9:30am p1 @home".toList
    let m : Token := ⟨.dueDate, ⟨16, 35⟩⟩
    (∀ k, Tag.StandApart k t) ∧ MarkerApart t ∧ m ∈ highlight Resolver.english ref t ∧
      m.span.slice t = "tomorrow, at 9:30am".toList ∧
      Resolver.english (m.span.slice t) ref = some ⟨⟨0, 19⟩, ⟨next, early⟩, true⟩ ∧
      (interpret Resolver.english ref t).dueDate = some next ∧
      (interpret Resolver.english ref t).dueTime = some "09:30".toList := by
  intro ref next early t m
  have htags : ∀ k, Tag.StandApart k t := by decide +kernel
  have hmarker : MarkerApart t := by decide +kernel
  have hm : m ∈ highlight Resolver.english ref t := by decide +kernel
  have hown : Resolver.english (m.span.slice t) ref = some ⟨⟨0, 19⟩, ⟨next, early⟩, true⟩ := by
    decide +kernel
  obtain ⟨d, -, -, hslice, hdate, htime⟩ := dueDate_of_token htags hmarker hm rfl
  rw [hown, Option.some.injEq, DateMatch.mk.injEq] at hslice
  obtain ⟨-, hinstant, hsays⟩ := hslice
  rw [← hinstant] at hdate htime
  rw [← hsays] at htime
  refine ⟨htags, hmarker, hm, by decide +kernel, hown, hdate, htime.trans ?_⟩
  decide

end Highlight

end TaskCapture
