import TaskCapture.Capture.Interpret
import TaskCapture.Proofs.Phrase.Extent
import TaskCapture.Proofs.Text.Placed
import TaskCapture.Proofs.Text.Repeats

/-!
Dates word by word. A phrase begins and ends with a word, so the date of a text is found by looking
at its words, and taking it out leaves the other words as they are.
-/

namespace TaskCapture

open Text

namespace Phrase

/-- The first phrase in a list of words, and what it means. -/
def inWords? (ref : Instant) (ws : List Text) : Option (ℕ × Reading) := first? ref (ws.map norm)

/-- The date and the time of a list of words, and the words that are left without them. -/
def outOf (ref : Instant) (ws : List Text) : Option Date × Option Text × List Text :=
  match inWords? ref ws with
  | none => (none, none, ws)
  | some (k, r) =>
    (some r.instant.date, if r.hasTime then some r.instant.time.text else none,
      ws.take k ++ ws.drop (k + r.used))

/-- A phrase takes up words of the list. -/
lemma extent_of_inWords? {ref : Instant} {ws : List Text} {k : ℕ} {r : Reading}
    (h : inWords? ref ws = some (k, r)) : 1 ≤ r.used ∧ k + r.used ≤ ws.length := by
  obtain ⟨hk, hr, -⟩ := first?_eq_some_iff.1 h
  have := used_of_reading? hr
  simp at hk this
  omega

end Phrase

namespace Resolver

lemma map_norm_placed (t : Text) :
    (placed 0 t).map (fun p => Phrase.norm p.text) = (words t).map Phrase.norm := by
  rw [← map_text_placed 0 t, List.map_map]
  rfl

lemma english_of_none {ref : Instant} {t : Text} (h : Phrase.inWords? ref (words t) = none) :
    english t ref = none := by
  unfold english
  simp only [map_norm_placed]
  rw [show Phrase.first? ref ((words t).map Phrase.norm) = none from h]
  rfl

/-- The match runs from the first word of the phrase to its last. -/
lemma english_of_some {ref : Instant} {t : Text} {k : ℕ} {r : Phrase.Reading}
    (h : Phrase.inWords? ref (words t) = some (k, r)) :
    ∃ head last, (placed 0 t)[k]? = some head ∧ (placed 0 t)[k + r.used - 1]? = some last ∧
      english t ref = some ⟨⟨head.start, last.stop⟩, r.instant, r.hasTime⟩ := by
  have hext := Phrase.extent_of_inWords? h
  have hlen : (placed 0 t).length = (words t).length := by
    rw [← map_text_placed 0 t, List.length_map]
  have hk : k < (placed 0 t).length := by omega
  have hl : k + r.used - 1 < (placed 0 t).length := by omega
  refine ⟨_, _, List.getElem?_eq_getElem hk, List.getElem?_eq_getElem hl, ?_⟩
  unfold english
  simp only [map_norm_placed]
  rw [show Phrase.first? ref ((words t).map Phrase.norm) = some (k, r) from h]
  simp [List.getElem?_eq_getElem hk, List.getElem?_eq_getElem hl]

lemma english_eq_none_iff {ref : Instant} {t : Text} :
    english t ref = none ↔ Phrase.inWords? ref (words t) = none := by
  refine ⟨fun h => ?_, english_of_none⟩
  cases hw : Phrase.inWords? ref (words t) with
  | none => rfl
  | some kr =>
    obtain ⟨_, _, -, -, he⟩ := english_of_some hw
    rw [h] at he
    cases he

end Resolver

/-- The text before one cut and the text after another. -/
lemma around?_of_cuts {t a a' b b' : Text} (ha : t = a ++ a') (hb : t = b' ++ b) :
    around? t ⟨byteSize a, byteSize b'⟩ = some (a, b) := by
  have hstart : splitAtByte (byteSize a) t = some (a, a') := ha ▸ splitAtByte_append a a'
  have hstop : splitAtByte (byteSize b') t = some (b', b) := hb ▸ splitAtByte_append b' b
  simp only [around?, hstart, hstop, Option.bind_eq_bind, Option.bind_some, Option.pure_def]

/-- **The date of a text is that of its words.** -/
theorem takeDate_words (ref : Instant) (t : Text) :
    ((takeDate Resolver.english ref t).date, (takeDate Resolver.english ref t).time,
      words (takeDate Resolver.english ref t).rest) = Phrase.outOf ref (words t) := by
  unfold Phrase.outOf
  cases h : Phrase.inWords? ref (words t) with
  | none => simp [takeDate, Resolver.english_of_none h]
  | some kr =>
    obtain ⟨k, r⟩ := kr
    obtain ⟨head, last, hh, hl, he⟩ := Resolver.english_of_some h
    obtain ⟨a, b, hab, hs, ha, hwa, -⟩ := exists_around_placed hh
    obtain ⟨a', b', hab', hs', -, -, hwb'⟩ := exists_around_placed hl
    have haround : around? t ⟨head.start, last.stop⟩ = some (a, b') := by
      rw [Placed.stop, hs, hs', Nat.zero_add, Nat.zero_add, ← byteSize_append]
      exact around?_of_cuts (hab.trans (List.append_assoc _ _ _)) hab'
    have hext := Phrase.extent_of_inWords? h
    have hdrop : k + r.used - 1 + 1 = k + r.used := by omega
    simp only [takeDate, he, haround]
    rw [words_collapse, ha, hwa, hwb', hdrop]

namespace Phrase

/-! ### The first phrase -/

/-- No phrase begins in the words `us` when `ws` follows them. -/
def Silent (ref : Instant) (us ws : List Text) : Prop :=
  ∀ v, v ≠ [] → v <:+ us → reading? ref ((v ++ ws).map norm) = none

lemma silent_append_iff {ref : Instant} {us vs ws : List Text} :
    Silent ref (us ++ vs) ws ↔ Silent ref us (vs ++ ws) ∧ Silent ref vs ws := by
  constructor
  · intro h
    refine ⟨fun v hv hs => ?_, fun v hv hs => h v hv (hs.trans (List.suffix_append us vs))⟩
    obtain ⟨x, rfl⟩ := hs
    rw [← List.append_assoc]
    exact h (v ++ vs) (by simp [hv]) ⟨x, by simp⟩
  · rintro ⟨hu, hv⟩ v hne hs
    obtain ⟨x, hx⟩ := hs
    rcases le_or_gt x.length us.length with hl | hl
    · obtain ⟨m, rfl, rfl⟩ := exists_of_append_eq_append hx hl
      cases m with
      | nil => exact hv vs hne List.suffix_rfl
      | cons a m =>
        rw [List.append_assoc]
        exact hu (a :: m) (by simp) (List.suffix_append x _)
    · obtain ⟨m, -, rfl⟩ := exists_of_append_eq_append hx.symm hl.le
      exact hv v hne (List.suffix_append m v)

lemma inWords?_eq_none_iff {ref : Instant} {ws : List Text} :
    inWords? ref ws = none ↔ Silent ref ws [] := by
  unfold inWords?
  rw [first?_eq_none_iff]
  constructor
  · intro h v hv hs
    obtain ⟨x, rfl⟩ := hs
    have := h x.length (by simpa [List.length_pos_iff] using hv)
    rw [← List.map_drop, List.drop_left] at this
    rw [List.append_nil]
    exact this
  · intro h j hj
    have hlen : j < ws.length := by simpa using hj
    have := h (ws.drop j) (by simpa using hlen) (List.drop_suffix j ws)
    rwa [List.append_nil, List.map_drop] at this

lemma inWords?_eq_some_iff {ref : Instant} {ws : List Text} {k : ℕ} {r : Reading} :
    inWords? ref ws = some (k, r) ↔ k < ws.length ∧
      reading? ref ((ws.drop k).map norm) = some r ∧ Silent ref (ws.take k) (ws.drop k) := by
  unfold inWords?
  rw [first?_eq_some_iff, List.length_map, ← List.map_drop]
  refine and_congr_right fun hk => and_congr_right fun _ => ?_
  constructor
  · intro h v hv hs
    obtain ⟨x, hx⟩ := hs
    have hlen := congrArg List.length hx
    have hpos := List.length_pos_iff.2 hv
    simp only [List.length_append, List.length_take] at hlen
    have := h x.length (by omega)
    rwa [← List.map_drop, ← List.take_append_drop k ws, ← hx, List.append_assoc, List.drop_left]
      at this
  · intro h j hj
    have := h ((ws.take k).drop j) (by simp; omega) (List.drop_suffix j _)
    rwa [← List.drop_append_of_le_length (by simp; omega), List.take_append_drop, List.map_drop]
      at this

/-- **A phrase cuts the words in three.** What is left is what stands on either side of it. -/
theorem exists_block_of_outOf {ref : Instant} {ws vs : List Text} {d : Option Date}
    {s : Option Text} (h : outOf ref ws = (d, s, vs)) :
    ∃ pre block post, ws = pre ++ block ++ post ∧ vs = pre ++ post ∧
      (d = none → block = [] ∧ post = []) ∧ Silent ref pre (block ++ post) := by
  unfold outOf at h
  cases hw : inWords? ref ws with
  | none =>
    rw [hw] at h
    obtain ⟨rfl, rfl, rfl⟩ : d = none ∧ s = none ∧ vs = ws := by simpa [eq_comm] using h
    exact ⟨vs, [], [], by simp, by simp, by simp, inWords?_eq_none_iff.1 hw⟩
  | some kr =>
    obtain ⟨k, r⟩ := kr
    rw [hw] at h
    simp only [Prod.mk.injEq] at h
    obtain ⟨rfl, -, rfl⟩ := h
    obtain ⟨-, -, hs⟩ := inWords?_eq_some_iff.1 hw
    have hcut : (ws.drop k).take r.used ++ ws.drop (k + r.used) = ws.drop k := by
      rw [← List.drop_drop, List.take_append_drop]
    refine ⟨ws.take k, (ws.drop k).take r.used, ws.drop (k + r.used), ?_, rfl, by simp, ?_⟩
    · rw [List.append_assoc, hcut, List.take_append_drop]
    · rwa [hcut]

/-- A phrase that is the first one is taken out. -/
lemma outOf_of_block {ref : Instant} {pre block post : List Text} {r : Reading}
    (hs : Silent ref pre (block ++ post)) (hr : reading? ref ((block ++ post).map norm) = some r)
    (hu : r.used = block.length) :
    outOf ref (pre ++ block ++ post) =
      (some r.instant.date, if r.hasTime then some r.instant.time.text else none,
        pre ++ post) := by
  have hpos := (used_of_reading? hr).1
  have hw : inWords? ref (pre ++ block ++ post) = some (pre.length, r) := by
    rw [inWords?_eq_some_iff, List.append_assoc, List.drop_left, List.take_left]
    refine ⟨?_, hr, hs⟩
    simp only [List.length_append]
    omega
  unfold outOf
  rw [hw]
  simp only [List.append_assoc, List.take_left]
  rw [← List.append_assoc, hu, ← List.length_append, List.drop_left]

end Phrase

end TaskCapture
