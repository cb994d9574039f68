import TaskCapture.Proofs.Capture.Leftmost
import TaskCapture.Proofs.Text.Placed

/-!
Which marker decides the priority of a text. For each kind it is said what is written as a marker
and what it means; of the first kind that occurs anywhere in the text the leftmost marker decides.
It gives way to a space, and all other words stay.
-/

namespace TaskCapture

open Text

/-! ### What is written as a marker -/

/-- The kinds of markers. -/
inductive MarkerKind where
  | levelWord
  | shorthand
  | longRun
  | pair
  deriving DecidableEq, Repr

/-- The marker is a run of `n` exclamation marks, with no other beside it. -/
structure Cut.IsRun (n : ℕ) (c : Cut Priority) : Prop where
  marker : c.marker = List.replicate n '!'
  before : '!' ∉ c.before.getLast?
  after : '!' ∉ c.after.head?

namespace MarkerKind

/-- The text is cut at a marker of the kind: an exclamation mark and a level word in letters of
either case, which no word character follows; the letter `p` and the digit of a level, between no
word characters; all of a run of three or more exclamation marks; a run of just two. -/
def Marks : MarkerKind → Cut Priority → Prop
  | levelWord, c => ∃ w, c.marker = '!' :: w ∧ w.map Char.toLower = c.value.keyword.toList ∧
      startsWord c.after = false
  | shorthand, c => ∃ l d, c.marker = [l, d] ∧ (l = 'p' ∨ l = 'P') ∧
      (d, c.value) ∈ Priority.levelDigits ∧ (∀ a ∈ c.before.getLast?, isWord a = false) ∧
      startsWord c.after = false
  | longRun, c => c.value = .urgent ∧ ∃ n, 3 ≤ n ∧ c.IsRun n
  | pair, c => c.value = .high ∧ c.IsRun 2

/-- The kinds that come first. -/
def sooner : MarkerKind → List MarkerKind
  | levelWord => []
  | shorthand => [levelWord]
  | longRun => [levelWord, shorthand]
  | pair => [levelWord, shorthand, longRun]

/-- Of the kinds that have a property one comes first. -/
lemma exists_first {Q : MarkerKind → Prop} {k : MarkerKind} (h : Q k) :
    ∃ k, Q k ∧ ∀ j ∈ k.sooner, ¬ Q j := by
  by_cases hword : Q levelWord
  · exact ⟨levelWord, hword, by simp [sooner]⟩
  by_cases hshort : Q shorthand
  · exact ⟨shorthand, hshort, by simp [sooner, hword]⟩
  by_cases hrun : Q longRun
  · exact ⟨longRun, hrun, by simp [sooner, hword, hshort]⟩
  refine ⟨pair, ?_, by simp [sooner, hword, hshort, hrun]⟩
  cases k with
  | levelWord => exact absurd h hword
  | shorthand => exact absurd h hshort
  | longRun => exact absurd h hrun
  | pair => exact h

variable {j k : MarkerKind} {c d : Cut Priority}

/-- What is a marker in a text is one alone. -/
lemma Marks.alone (h : k.Marks c) : k.Marks ⟨c.value, [], c.marker, []⟩ := by
  cases k with
  | levelWord =>
    obtain ⟨w, hmarker, hw, -⟩ := h
    exact ⟨w, hmarker, hw, rfl⟩
  | shorthand =>
    obtain ⟨l, d, hmarker, hl, hd, -, -⟩ := h
    exact ⟨l, d, hmarker, hl, hd, by simp, rfl⟩
  | longRun =>
    obtain ⟨hvalue, n, hn, hrun⟩ := h
    exact ⟨hvalue, n, hn, hrun.marker, by simp, by simp⟩
  | pair => exact ⟨h.1, h.2.marker, by simp, by simp⟩

/-- Every marker but a short one has an exclamation mark. -/
lemma Marks.mark_mem (h : k.Marks c) (hk : k ≠ shorthand) : '!' ∈ c.marker := by
  cases k with
  | levelWord =>
    obtain ⟨w, hmarker, -⟩ := h
    simp [hmarker]
  | shorthand => exact absurd rfl hk
  | longRun =>
    obtain ⟨-, n, hn, hrun⟩ := h
    rw [hrun.marker, List.mem_replicate]
    exact ⟨by omega, rfl⟩
  | pair => simp [h.2.marker]

/-- Level words and short markers have a letter. -/
lemma Marks.exists_ne_mark (h : k.Marks c) (hk : k = levelWord ∨ k = shorthand) :
    ∃ a ∈ c.marker, a ≠ '!' := by
  rcases hk with rfl | rfl
  · obtain ⟨w, hmarker, hw, -⟩ := h
    obtain ⟨a, w, rfl⟩ := List.exists_cons_of_ne_nil (l := w) (by
      rintro rfl
      exact c.value.solid_keyword.1 hw.symm)
    refine ⟨a, by simp [hmarker], ?_⟩
    rintro rfl
    have hhead := congrArg List.head? hw
    rw [List.map_cons, List.head?_cons] at hhead
    revert hhead
    cases c.value <;> decide
  · obtain ⟨l, d, hmarker, hl, -⟩ := h
    refine ⟨l, by simp [hmarker], ?_⟩
    rcases hl with rfl | rfl <;> decide

/-- A marker holds none of a kind that comes first. -/
lemma Marks.not_marks_of_sooner (h : k.Marks c) (hj : j ∈ k.sooner) (hd : d.text = c.marker) :
    ¬ j.Marks d := by
  intro hmarks
  have hmem : ∀ a ∈ d.marker, a ∈ c.marker := fun a ha => by simp [← hd, Cut.text, ha]
  have hrun : ∀ {n}, c.marker = List.replicate n '!' → ¬ (j = levelWord ∨ j = shorthand) := by
    intro n hn hletter
    obtain ⟨a, ha, hne⟩ := hmarks.exists_ne_mark hletter
    exact hne (List.eq_of_mem_replicate (hn ▸ hmem a ha))
  cases k with
  | levelWord => cases hj
  | shorthand =>
    obtain ⟨l, e, hmarker, hl, he, -⟩ := h
    have hmark := hmem '!' (hmarks.mark_mem (by rintro rfl; simp [sooner] at hj))
    rw [hmarker, List.mem_pair] at hmark
    rcases hmark with rfl | rfl
    · exact absurd hl (by decide)
    · exact absurd (Priority.mem_levelDigits_iff.1 he).1 (by decide)
  | longRun =>
    obtain ⟨-, n, -, hn⟩ := h
    exact hrun hn.marker (by simpa [sooner] using hj)
  | pair =>
    obtain rfl | hletter : j = longRun ∨ j = levelWord ∨ j = shorthand := by
      simp only [sooner, List.mem_cons, List.not_mem_nil, or_false] at hj
      tauto
    · obtain ⟨-, n, hn, hlong⟩ := hmarks
      have hlen := congrArg List.length hd
      simp [Cut.text, hlong.marker, h.2.marker] at hlen
      omega
    · exact hrun h.2.marker hletter

/-- The cut at the marker that decides: the leftmost of its kind, in a text without any marker of
the kinds that come first. -/
structure Decides (t : Text) (k : MarkerKind) (c : Cut Priority) : Prop where
  leftmost : Cut.Leftmost k.Marks t c
  none_sooner : ∀ j ∈ k.sooner, ∀ d, d.text = t → ¬ j.Marks d

/-! ### The scans -/

/-- How a kind is looked for. -/
def pattern : MarkerKind → Pattern Priority
  | levelWord => Priority.levelWord
  | shorthand => Priority.shorthand
  | longRun => Priority.longRun
  | pair => Priority.pair

variable {t : Text}

lemma measured_pattern (k : MarkerKind) : k.pattern.Measured :=
  Priority.measured_of_mem_patterns (by cases k <;> simp [pattern, Priority.patterns])

lemma at_levelWord_iff : (pattern levelWord).At false c ↔ Marks levelWord c := by
  rw [Pattern.At, pattern, Priority.levelWord_eq_some_iff]
  constructor
  · rintro ⟨w, r, hs, hw, hr, hn⟩
    obtain ⟨hmarker, rfl⟩ := List.append_inj hs hn
    exact ⟨w, hmarker, hw, hr⟩
  · rintro ⟨w, hmarker, hw, hr⟩
    exact ⟨w, c.after, by rw [hmarker], hw, hr, by rw [hmarker, List.length_cons]⟩

lemma at_shorthand_iff : (pattern shorthand).At false c ↔ Marks shorthand c := by
  rw [Pattern.At, pattern, Priority.shorthand_eq_some_iff, endsWord_eq_false_iff]
  constructor
  · rintro ⟨l, d, r, hs, hl, hd, hbefore, hr, hn⟩
    obtain ⟨hmarker, rfl⟩ := List.append_inj (hs.trans (List.append_cons [l] d r)) hn
    exact ⟨l, d, hmarker, hl, hd, hbefore, hr⟩
  · rintro ⟨l, d, hmarker, hl, hd, hbefore, hr⟩
    exact ⟨l, d, c.after, by rw [hmarker]; rfl, hl, hd, hbefore, hr, by rw [hmarker]; rfl⟩

lemma at_longRun_iff : (pattern longRun).At false c ↔
    c.value = .urgent ∧ (∃ n, 3 ≤ n ∧ c.marker = List.replicate n '!') ∧ '!' ∉ c.after.head? := by
  rw [Pattern.At, pattern, Priority.longRun_eq_some_iff]
  constructor
  · rintro ⟨hvalue, hn, r, hs, hr⟩
    obtain ⟨hmarker, rfl⟩ := List.append_inj hs (List.length_replicate).symm
    exact ⟨hvalue, ⟨_, hn, hmarker⟩, hr⟩
  · rintro ⟨hvalue, ⟨n, hn, hmarker⟩, hr⟩
    rw [hmarker, List.length_replicate]
    exact ⟨hvalue, hn, c.after, rfl, hr⟩

lemma at_pair_iff : (pattern pair).At false c ↔
    c.value = .high ∧ c.marker = List.replicate 2 '!' := by
  rw [Pattern.At, pattern, Priority.pair_eq_some_iff]
  constructor
  · rintro ⟨hvalue, hn, r, hs⟩
    exact ⟨hvalue, (List.append_inj (hs.trans (List.append_cons ['!'] '!' r)) hn).1⟩
  · rintro ⟨hvalue, hmarker⟩
    rw [hmarker]
    exact ⟨hvalue, rfl, c.after, rfl⟩

/-- The scan for a kind stops at every marker of it. -/
lemma Marks.at (h : k.Marks c) : k.pattern.At false c := by
  cases k with
  | levelWord => exact at_levelWord_iff.2 h
  | shorthand => exact at_shorthand_iff.2 h
  | longRun =>
    obtain ⟨hvalue, n, hn, hrun⟩ := h
    exact at_longRun_iff.2 ⟨hvalue, ⟨n, hn, hrun.marker⟩, hrun.after⟩
  | pair => exact at_pair_iff.2 ⟨h.1, h.2.marker⟩

/-- Before the leftmost marker of a kind that would also be found one exclamation mark further left
there is none. -/
lemma not_mem_getLast?_before {p : Pattern Priority} (h : Cut.Leftmost (p.At false) t c)
    (hleft : ∀ a, ∃ m r, m ++ r = '!' :: (c.marker ++ c.after) ∧ p.At false ⟨c.value, a, m, r⟩) :
    '!' ∉ c.before.getLast? := by
  intro hlast
  obtain ⟨a, ha⟩ := List.getLast?_eq_some_iff.1 hlast
  obtain ⟨m, r, hmr, hat⟩ := hleft a
  have htext : Cut.text ⟨c.value, a, m, r⟩ = t := by
    calc a ++ m ++ r = a ++ ['!'] ++ (c.marker ++ c.after) := by simp [hmr]
      _ = c.text := by rw [← ha, Cut.text, List.append_assoc]
      _ = t := h.text_eq
  have hle := h.le _ htext hat
  simp [ha] at hle

/-- The leftmost three exclamation marks begin their run. -/
lemma marks_longRun_of_leftmost (h : Cut.Leftmost ((pattern longRun).At false) t c) :
    Marks longRun c := by
  obtain ⟨hvalue, ⟨n, hn, hmarker⟩, hafter⟩ := at_longRun_iff.1 h.holds
  refine ⟨hvalue, n, hn, hmarker, not_mem_getLast?_before h fun a => ?_, hafter⟩
  have hlonger : '!' :: c.marker = List.replicate (n + 1) '!' := by
    rw [hmarker, List.replicate_succ]
  exact ⟨'!' :: c.marker, c.after, rfl,
    at_longRun_iff.2 ⟨hvalue, ⟨n + 1, by omega, hlonger⟩, hafter⟩⟩

/-- In a text without a longer run, the leftmost two exclamation marks stand alone. -/
lemma marks_pair_of_leftmost (h : Cut.Leftmost ((pattern pair).At false) t c)
    (hnone : ∀ d, d.text = t → ¬ Marks longRun d) : Marks pair c := by
  obtain ⟨hvalue, hmarker⟩ := at_pair_iff.1 h.holds
  have hbefore : '!' ∉ c.before.getLast? := not_mem_getLast?_before h fun a =>
    ⟨['!', '!'], '!' :: c.after, by rw [hmarker]; rfl, at_pair_iff.2 ⟨hvalue, rfl⟩⟩
  refine ⟨hvalue, hmarker, hbefore, fun hlong => ?_⟩
  -- a third exclamation mark would make a longer run
  obtain ⟨r, hr⟩ : ∃ r, c.after = '!' :: r := by
    cases hc : c.after with
    | nil => simp [hc] at hlong
    | cons d r => exact ⟨r, by simpa [hc] using hlong⟩
  obtain ⟨n, s, hs, hstop⟩ := Priority.exists_run r
  refine hnone ⟨.urgent, c.before, List.replicate (n + 3) '!', s⟩ ?_
    ⟨rfl, n + 3, by omega, rfl, hbefore, hstop⟩
  calc c.before ++ List.replicate (n + 3) '!' ++ s
      = c.before ++ List.replicate 2 '!' ++ '!' :: (List.replicate n '!' ++ s) := by
        simp [List.replicate_succ]
    _ = c.text := by rw [← hs, ← hr, ← hmarker, Cut.text]
    _ = t := h.text_eq

/-- **A scan finds the leftmost marker of its kind**; two exclamation marks are looked for in texts
without longer runs. -/
theorem find?_pattern_eq_some_iff (hnone : k = pair → ∀ d, d.text = t → ¬ Marks longRun d) :
    k.pattern.find? false t = some c ↔ Cut.Leftmost k.Marks t c := by
  rw [Pattern.find?_eq_some_iff (measured_pattern k)]
  refine Pattern.leftmost_iff (fun d => Marks.at) fun d hd => ?_
  cases k with
  | levelWord => exact at_levelWord_iff.1 hd.holds
  | shorthand => exact at_shorthand_iff.1 hd.holds
  | longRun => exact marks_longRun_of_leftmost hd
  | pair => exact marks_pair_of_leftmost hd (hnone rfl)

lemma find?_pattern_eq_none_iff (hnone : k = pair → ∀ d, d.text = t → ¬ Marks longRun d) :
    k.pattern.find? false t = none ↔ ∀ d, d.text = t → ¬ k.Marks d :=
  Cut.eq_none_iff_of_leftmost fun _ => find?_pattern_eq_some_iff hnone

/-- The kinds that come first are looked for without regard to others. -/
lemma forall_sooner_iff : (∀ j ∈ k.sooner, j.pattern.find? false t = none) ↔
    ∀ j ∈ k.sooner, ∀ d, d.text = t → ¬ j.Marks d := by
  refine forall₂_congr fun j hj => find?_pattern_eq_none_iff fun hpair => ?_
  subst hpair
  cases k <;> simp [sooner] at hj

/-- Which marker decides can be computed. -/
theorem decides_iff_find? : Decides t k c ↔
    k.pattern.find? false t = some c ∧ ∀ j ∈ k.sooner, j.pattern.find? false t = none := by
  rw [forall_sooner_iff]
  have hpair : (∀ j ∈ k.sooner, ∀ d, d.text = t → ¬ j.Marks d) →
      k = pair → ∀ d, d.text = t → ¬ Marks longRun d := by
    rintro hsooner rfl
    exact hsooner longRun (by simp [sooner])
  constructor
  · rintro ⟨hleft, hsooner⟩
    exact ⟨(find?_pattern_eq_some_iff (hpair hsooner)).2 hleft, hsooner⟩
  · rintro ⟨hk, hsooner⟩
    exact ⟨(find?_pattern_eq_some_iff (hpair hsooner)).1 hk, hsooner⟩

end MarkerKind

namespace Priority

open MarkerKind

variable {t : Text} {c : Cut Priority}

/-- A scan decides if the scans that come first find nothing. -/
lemma find?_of_pattern {k : MarkerKind} (hk : k.pattern.find? false t = some c)
    (hsooner : ∀ j ∈ k.sooner, j.pattern.find? false t = none) : find? t = some c := by
  unfold find? patterns
  cases k with
  | levelWord => simp_all [pattern, sooner]
  | shorthand => simp_all [pattern, sooner]
  | longRun => simp_all [pattern, sooner]
  | pair => simp_all [pattern, sooner]

/-- The marker of a text is that of the first kind whose scan finds one. -/
lemma find?_eq_some_iff_pattern : find? t = some c ↔
    ∃ k : MarkerKind, k.pattern.find? false t = some c ∧
      ∀ j ∈ k.sooner, j.pattern.find? false t = none := by
  refine ⟨fun h => ?_, fun ⟨k, hk, hsooner⟩ => find?_of_pattern hk hsooner⟩
  obtain ⟨p, hp, hc⟩ := List.exists_of_findSome?_eq_some h
  obtain ⟨i, rfl⟩ : ∃ i : MarkerKind, i.pattern = p := by
    simp only [patterns, List.mem_cons, List.not_mem_nil, or_false] at hp
    rcases hp with rfl | rfl | rfl | rfl
    exacts [⟨.levelWord, rfl⟩, ⟨.shorthand, rfl⟩, ⟨.longRun, rfl⟩, ⟨.pair, rfl⟩]
  have hsome : i.pattern.find? false t ≠ none := by simp [hc]
  obtain ⟨k, hk, hsooner⟩ := exists_first (Q := fun k => k.pattern.find? false t ≠ none) hsome
  simp only [ne_eq, not_not] at hsooner
  obtain ⟨d, hd⟩ := Option.ne_none_iff_exists'.1 hk
  obtain rfl : c = d := Option.some.inj (h.symm.trans (find?_of_pattern hd hsooner))
  exact ⟨k, hd, hsooner⟩

/-- **What decides the priority** is the leftmost marker of the first kind that occurs. -/
theorem find?_eq_some_iff : find? t = some c ↔ ∃ k, Decides t k c := by
  simp only [decides_iff_find?]
  exact find?_eq_some_iff_pattern

/-- Where anything is a marker, something decides. -/
lemma exists_decides {k : MarkerKind} (h : k.Marks c) : ∃ k d, Decides c.text k d := by
  have hmarked : ∃ d : Cut Priority, d.text = c.text ∧ k.Marks d := ⟨c, rfl, h⟩
  obtain ⟨j, ⟨d, hd, hmarks⟩, hsooner⟩ :=
    exists_first (Q := fun k => ∃ d : Cut Priority, d.text = c.text ∧ k.Marks d) hmarked
  obtain ⟨e, he⟩ := Cut.exists_leftmost hmarks
  rw [hd] at he
  exact ⟨j, e, he, fun i hi f hf hmarks => hsooner i hi ⟨f, hf, hmarks⟩⟩

/-- **A marker alone is read as what it was read as in the line.** -/
theorem find?_marker (h : find? t = some c) :
    find? c.marker = some ⟨c.value, [], c.marker, []⟩ := by
  obtain ⟨k, hk⟩ := find?_eq_some_iff.1 h
  have hmarks := hk.leftmost.holds
  refine find?_eq_some_iff.2 ⟨k, ⟨by simp [Cut.text], hmarks.alone, fun d _ _ => Nat.zero_le _⟩, ?_⟩
  exact fun j hj d hd => hmarks.not_marks_of_sooner hj hd

/-- The word that holds the marker loses it, and what stood before and after it in the word is left
as words; all other words stay, in their order. -/
lemma exists_words_extract (h : find? t = some c) :
    ∃ us a b vs, words t = us ++ (a ++ c.marker ++ b) :: vs ∧
      words c.before = us ++ words a ∧ words c.after = words b ++ vs := by
  obtain ⟨ps, q, qs, a, b, hplaced, hq, -, hbefore, hafter⟩ :=
    exists_placed_append (solid_marker h) 0 c.before c.after
  refine ⟨ps.map (·.text), a, b, qs.map (·.text), ?_, hbefore, hafter⟩
  calc words t = (placed 0 (c.before ++ c.marker ++ c.after)).map (·.text) := by
        rw [map_text_placed, ← eq_of_find? h]
    _ = _ := by rw [hplaced, List.map_append, List.map_cons, hq]

end Priority

end TaskCapture
