import TaskCapture.Proofs.Capture.Recapture
import TaskCapture.Proofs.Capture.Shorthand

/-!
Interpreting the line of a task that was itself read from a line. Such a task always has fields that
can stand in a line; its title may still hold what the first reading left there, a second marker or
a second date.
-/

namespace TaskCapture

open Text

namespace Tag

lemma IsName.lower {n : Text} (h : IsName n) : IsName (Text.lower n) := by
  refine ⟨lowerFrom_ne_nil h.1, fun d hd => ?_⟩
  obtain ⟨c, hc, hcd⟩ := exists_of_mem_lowerFrom hd
  have := h.2 c hc
  simp only [isTagChar, Bool.or_eq_true, beq_iff_eq] at this ⊢
  rcases this with hw | hy
  · exact .inl (hcd.isWord_eq ▸ hw)
  · exact .inr (hcd.hyphen hy)

lemma isName_of_mem_map_lower {k : TagKind} {ws : List Text} {n : Text}
    (h : n ∈ (namesIn k ws).map Text.lower) : IsName n ∧ Text.lower n = n := by
  obtain ⟨m, hm, rfl⟩ := List.mem_map.1 h
  obtain ⟨w, -, hw⟩ := List.mem_flatMap.1 hm
  exact ⟨(isName_of_mem_names hw).lower, lower_lower m⟩

/-- The names of tags in words without short markers hold none. -/
lemma find?_shorthand_of_mem_map_lower {k : TagKind} {ws : List Text}
    (hs : ∀ w ∈ ws, Priority.shorthand.find? false w = none) {n : Text}
    (h : n ∈ (namesIn k ws).map Text.lower) : Priority.shorthand.find? false n = none := by
  obtain ⟨m, hm, rfl⟩ := List.mem_map.1 h
  obtain ⟨w, hw, hmem⟩ := List.mem_flatMap.1 hm
  exact Priority.find?_shorthand_lowerFrom (find?_shorthand_of_mem_names (hs w hw) hmem)

lemma find?_shorthand_of_mem_without {k : TagKind} {ws : List Text}
    (hs : ∀ w ∈ ws, Priority.shorthand.find? false w = none) {v : Text} (h : v ∈ without k ws) :
    Priority.shorthand.find? false v = none := by
  obtain ⟨w, hw, hv⟩ := List.mem_flatMap.1 h
  have hrest : Priority.shorthand.find? false (rest (pieces k w)) = none :=
    find?_shorthand_rest (hs w hw)
  have hnone := Pattern.takeOut_words Priority.local_shorthand (rest (pieces k w))
  rw [hrest, Option.map_none, Pattern.takeOut_eq_none_iff] at hnone
  exact hnone v hv

end Tag

lemma Phrase.isTime_of_outOf {ref : Instant} {ws : List Text} {s : Text}
    (h : s ∈ (outOf ref ws).2.1) : (outOf ref ws).1.isSome ∧ ∃ c : Clock, s = c.text := by
  unfold outOf at h ⊢
  split at h
  · cases h
  · next k r hr =>
    simp only [Option.mem_def] at h
    split_ifs at h
    cases h
    exact ⟨rfl, _, rfl⟩

/-- Without a marker the words hold no short one either. -/
lemma Priority.find?_shorthand_of_unmarked {w : Text} (h : Unmarked none w) :
    shorthand.find? false w = none := by
  have hall := List.findSome?_eq_none_iff.1 (show find? w = none from h)
  exact hall shorthand (by simp [patterns])

/-- **What a line is read as can stand in a line again.** -/
theorem wellFormed_interpret (ref : Instant) {input : Text} (h : words input ≠ []) :
    (interpret Resolver.english ref input).WellFormed := by
  rw [interpret_eq_gistOf]
  have hname : ∀ n ∈ (gistOf ref (words input)).categories ++ (gistOf ref (words input)).contexts,
      Tag.IsName n ∧ lower n = n := by
    intro n hn
    rcases List.mem_append.1 hn with hn | hn
    · exact Tag.isName_of_mem_map_lower hn
    · exact Tag.isName_of_mem_map_lower hn
  refine ⟨?_, fun n hn => (hname n hn).1, fun n hn => (hname n hn).2, ?_, ?_⟩
  · split_ifs with hr
    · rwa [words_trim]
    · rwa [words_intercalate fun w hw => solid_of_mem_rest_gistOf hw]
  · exact fun s hs => Phrase.isTime_of_outOf hs
  · intro hp n hn
    have hun : ∀ w ∈ words input, Priority.Unmarked none w := Priority.fst_outOf_eq_none_iff.1 hp
    have hs : ∀ w ∈ words input, Priority.shorthand.find? false w = none :=
      fun w hw => Priority.find?_shorthand_of_unmarked (hun w hw)
    have hout := Priority.outOf_of_unmarked hun
    simp only [gistOf, hout] at hn
    rcases List.mem_append.1 hn with hn | hn
    · exact Tag.find?_shorthand_of_mem_map_lower hs hn
    · exact Tag.find?_shorthand_of_mem_map_lower
        (fun w hw => Tag.find?_shorthand_of_mem_without hs hw) hn

/-- **When a second reading agrees with the first.** A line with a character that is not blank is
read as a task; the line that describes the task is read as the same task exactly if its title is
recapturable. -/
theorem interpret_line_interpret_iff (ref : Instant) {input : Text}
    (h : ∃ c ∈ input, isBlank c = false) :
    let t := interpret Resolver.english ref input
    interpret Resolver.english ref t.line = { t with rawInput := t.line } ↔ t.Recapturable ref := by
  have hwords : words input ≠ [] := by
    obtain ⟨c, hc, hb⟩ := h
    exact words_ne_nil_of_mem hc hb
  exact (wellFormed_interpret ref hwords).interpret_line_eq_iff_recapturable ref

/-- A marker, a date with a time and a tag, all of which come back. -/
theorem interpret_line_interpret_iff_call :
    let ref : Instant := ⟨⟨2025, 3, 5, by decide, by decide, by decide, by decide⟩, .noon⟩
    let input := "Call Mom !high tomorrow at 2pm #Family".toList
    let t := interpret Resolver.english ref input
    (∃ c ∈ input, isBlank c = false) ∧
      interpret Resolver.english ref t.line = { t with rawInput := t.line } ∧
        t.Recapturable ref := by
  intro ref input t
  have hb : ∃ c ∈ input, isBlank c = false := ⟨'C', by decide, by decide⟩
  have h : interpret Resolver.english ref t.line = { t with rawInput := t.line } := by
    decide +kernel
  exact ⟨hb, h, (interpret_line_interpret_iff ref hb).1 h⟩

/-- The second of two markers stays in the title. There it stands before the marker of the line, and
the next reading finds it first. -/
theorem interpret_line_of_two_markers :
    let ref : Instant := ⟨⟨2025, 3, 5, by decide, by decide, by decide, by decide⟩, .noon⟩
    let input := "Fix it !high !low".toList
    let t := interpret Resolver.english ref input
    let t' := interpret Resolver.english ref t.line
    (∃ c ∈ input, isBlank c = false) ∧
      t.title = "Fix it !low".toList ∧ t.priority = some .high ∧
      t'.title = "Fix it !high".toList ∧ t'.priority = some .low :=
  ⟨⟨'F', by decide, by decide⟩, by decide +kernel⟩

end TaskCapture
