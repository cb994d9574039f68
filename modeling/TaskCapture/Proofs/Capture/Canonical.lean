import TaskCapture.Proofs.Capture.Recapture
import TaskCapture.Proofs.Capture.Shorthand
import TaskCapture.Proofs.Phrase.Followed

/-!
Tasks that come back from their line as they are, whatever the instant at which it is read: the
title says nothing but itself, and the fields are such as a line can say.
-/

namespace TaskCapture

open Text

namespace Task

/-- A task in the form that a line gives back. The title is collapsed and holds no marker, no tag
and, seen from whatever instant, no date; tags are names in small letters; a time comes with a date
and is an hour and a minute of the day. Without a priority no tag may hold a short marker. -/
structure Canonical (t : Task) : Prop where
  title_ne_nil : t.title ≠ []
  collapse_title : collapse t.title = t.title
  find?_title : Priority.find? t.title = none
  occurs_title : ∀ k, Tag.occurs k t.title = false
  english_title : ∀ ref, Resolver.english t.title ref = none
  tag_ne_nil : ∀ n ∈ t.categories ++ t.contexts, n ≠ []
  tag_char : ∀ n ∈ t.categories ++ t.contexts, ∀ c ∈ n, Tag.isTagChar c = true
  tag_lower : ∀ n ∈ t.categories ++ t.contexts, lower n = n
  time : ∀ s ∈ t.dueTime, t.dueDate.isSome ∧
    ∃ hour minute, hour < 24 ∧ minute < 60 ∧ s = padded 2 hour ++ ':' :: padded 2 minute
  tag_level : t.priority.isSome ∨
    ∀ n ∈ t.categories ++ t.contexts, ¬ Priority.HoldsLevel n

section

variable {t : Task} (ht : t.Canonical)

include ht

lemma Canonical.wellFormed : t.WellFormed where
  title := by
    rw [Ne, ← collapse_eq_nil_iff, ht.collapse_title]
    exact ht.title_ne_nil
  isName n hn := ⟨ht.tag_ne_nil n hn, ht.tag_char n hn⟩
  lower_eq := ht.tag_lower
  time s hs := by
    obtain ⟨hd, hour, minute, hh, hm, rfl⟩ := ht.time s hs
    exact ⟨hd, ⟨hour, minute, 0, hh, hm, by decide⟩, rfl⟩
  shorthand hp n hn := by
    rcases ht.tag_level with h | h
    · rw [hp] at h
      cases h
    · exact Priority.find?_shorthand_of_not_holdsLevel (h n hn)

/-- A phrase that begins in the title and runs on into the due date would be one without it. -/
lemma Canonical.silent (ref : Instant) :
    Phrase.Silent ref (words t.title) t.due := by
  have hquiet : ∀ ref, Phrase.Silent ref (words t.title) [] := fun ref =>
    Phrase.inWords?_eq_none_iff.1 (Resolver.english_eq_none_iff.1 (ht.english_title ref))
  intro v hv hs
  unfold due
  cases hd : t.dueDate with
  | none => exact hquiet ref v hv hs
  | some d =>
    by_contra hr
    rw [dueWords, List.map_append, List.map_cons, Phrase.norm_dateText, ← Ne,
      Option.ne_none_iff_isSome] at hr
    obtain ⟨ref', h⟩ := Phrase.exists_reading?_of_append_dateText (by simpa using hv) hr
    have hnone := hquiet ref' v hv hs
    rw [List.append_nil] at hnone
    rw [hnone] at h
    cases h

/-- The words of the title are all its own. -/
lemma Canonical.parts (ref : Instant) : t.Parts ref (words t.title) [] 0 where
  words_eq := by simp
  rep_suffix := ⟨0, .inl List.suffix_rfl⟩
  unmarked w hw := by
    have hfind : ∀ w ∈ words t.title, Priority.find? w = none := by
      rw [← Priority.takeOut_eq_none_iff, Priority.takeOut_words, ht.find?_title]
      rfl
    cases t.priority with
    | none => exact hfind w hw
    | some p =>
      exact List.findSome?_eq_none_iff.1 (hfind w hw) Priority.levelWord
        (by simp [Priority.patterns])
  untagged w hw k := Tag.namesIn_eq_nil_iff.1 (Tag.occurs_eq_false_iff.1 (ht.occurs_title k)) w hw
  silent := by simpa using ht.silent ref

/-- **A canonical task comes back from its line**, with every field as it was. -/
theorem interpret_line_of_canonical (ref : Instant) :
    interpret Resolver.english ref t.line = { t with rawInput := t.line } :=
  (ht.wellFormed.interpret_line_eq_iff_recapturable ref).2
    ⟨ht.collapse_title, _, _, _, ht.parts ref⟩

end

/-- A title that ends in the name of a month and a lone sigil, and a day before year 0. -/
theorem interpret_line_of_canonical_march :
    let t : Task := ⟨"Plan trip in March #".toList,
      some ⟨-44, 3, 15, by decide, by decide, by decide, by decide⟩, some "09:05".toList, none,
      ["home".toList], ["rome-2".toList], []⟩
    t.Canonical ∧ ∀ ref, interpret Resolver.english ref t.line = { t with rawInput := t.line } := by
  intro t
  have hchars : ((t.categories ++ t.contexts).all fun n =>
      n.all fun c => Tag.isTagChar c && c != 'p' && c != 'P') = true := by decide
  have hchar : ∀ n ∈ t.categories ++ t.contexts, ∀ c ∈ n,
      Tag.isTagChar c = true ∧ c ≠ 'p' ∧ c ≠ 'P' := fun n hn c hc => by
    simpa [and_assoc] using List.all_eq_true.1 (List.all_eq_true.1 hchars n hn) c hc
  have ht : t.Canonical :=
    { title_ne_nil := by decide
      collapse_title := by decide
      find?_title := by rfl
      occurs_title := fun k => by cases k <;> decide
      english_title := fun ref => by rfl
      tag_ne_nil := by decide
      tag_char := fun n hn c hc => (hchar n hn c hc).1
      tag_lower := by decide
      time := by
        rintro s ⟨⟩
        exact ⟨rfl, 9, 5, by decide, by decide, by decide⟩
      tag_level := .inr fun n hn h => by
        obtain ⟨s, c, d, r, rfl, hp, -⟩ := h
        obtain ⟨-, h1, h2⟩ := hchar _ hn c (by simp)
        exact hp.elim h1 h2 }
  exact ⟨ht, fun ref => interpret_line_of_canonical ht ref⟩

end Task

end TaskCapture
