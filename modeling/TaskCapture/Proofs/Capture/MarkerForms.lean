import TaskCapture.Proofs.Text.Words
import TaskCapture.Capture.Marker

/-!
The forms of priority markers. For each kind it is said of which texts the scan takes a marker at
the head, what the marker means and how long it is.
-/

namespace TaskCapture

open Text

/-- Every marker of the kind takes up characters of the text. -/
structure Pattern.Measured {α : Type} (p : Pattern α) : Prop where
  ne_zero {b : Bool} {s : Text} {v : α} {n : ℕ} (h : p b s = some (v, n)) : n ≠ 0
  le_length {b : Bool} {s : Text} {v : α} {n : ℕ} (h : p b s = some (v, n)) : n ≤ s.length

lemma length_le_of_beginsWith {w s : Text} (h : beginsWith w s = true) : w.length ≤ s.length := by
  have := congrArg List.length (beq_iff_eq.1 h)
  simp at this
  omega

namespace Priority

lemma solid_keyword (p : Priority) : Solid p.keyword.toList := by
  have h : p.keyword.toList.all (!isBlank ·) = true := by cases p <;> decide
  exact ⟨by cases p <;> decide, fun d hd => by simpa using List.all_eq_true.1 h d hd⟩

lemma eq_of_head?_keyword {p q : Priority} (h : p.keyword.toList.head? = q.keyword.toList.head?) :
    p = q := by
  revert h
  cases p <;> cases q <;> decide

/-- A text that begins with a level word begins with no other. -/
lemma beginsWith_keyword {w r : Text} {p : Priority} (hw : w.map Char.toLower = p.keyword.toList)
    (q : Priority) : beginsWith q.keyword.toList (w ++ r) = decide (q = p) := by
  have hlen : p.keyword.toList.length = w.length := by rw [← hw, List.length_map]
  by_cases hq : q = p
  · rw [hq, decide_eq_true rfl, beginsWith, hlen, List.take_left, hw, beq_self_eq_true]
  · rw [decide_eq_false hq, beginsWith, beq_eq_false_iff_ne]
    intro hbegins
    apply hq
    apply eq_of_head?_keyword
    have hne : w ≠ [] := by
      rintro rfl
      exact p.solid_keyword.1 hw.symm
    have hlong : q.keyword.toList.length ≠ 0 := by
      simpa using List.length_pos_iff.2 q.solid_keyword.1 |>.ne'
    calc q.keyword.toList.head? = (w ++ r).head?.map Char.toLower := by
          rw [← hbegins, List.head?_map, List.head?_take, if_neg hlong]
      _ = w.head?.map Char.toLower := by rw [List.head?_append_of_ne_nil _ hne]
      _ = p.keyword.toList.head? := by rw [← hw, List.head?_map]

lemma levelWord_eq_some_iff {b : Bool} {s : Text} {p : Priority} {n : ℕ} :
    levelWord b s = some (p, n) ↔ ∃ w r, s = '!' :: w ++ r ∧
      w.map Char.toLower = p.keyword.toList ∧ startsWord r = false ∧ n = w.length + 1 := by
  constructor
  · intro h
    unfold levelWord at h
    split at h
    · next r =>
      obtain ⟨q, -, hq⟩ := List.exists_of_findSome?_eq_some h
      simp only at hq
      split_ifs at hq with hcond
      cases hq
      obtain ⟨hbegins, hstop⟩ := Bool.and_eq_true_iff.1 hcond
      have hlen := length_le_of_beginsWith hbegins
      rw [beginsWith, beq_iff_eq] at hbegins
      rw [String.length_toList] at hbegins hlen
      rw [Bool.not_eq_true'] at hstop
      refine ⟨r.take p.keyword.length, r.drop p.keyword.length, ?_, hbegins, hstop, ?_⟩
      · rw [List.cons_append, List.take_append_drop]
      · rw [List.length_take, min_eq_left hlen]
    · cases h
  · rintro ⟨w, r, rfl, hw, hr, rfl⟩
    have hlen : p.keyword.length = w.length := by
      rw [← String.length_toList, ← hw, List.length_map]
    simp only [levelWord, List.cons_append, beginsWith_keyword hw]
    cases p <;> simp [all, hr, hlen]

/-- The digits of the levels. -/
def levelDigits : List (Char × Priority) := [('1', urgent), ('2', high), ('3', medium), ('4', low)]

lemma mem_levelDigits_iff {d : Char} {p : Priority} : (d, p) ∈ levelDigits ↔
    '1' ≤ d ∧ d ≤ '4' ∧ ofLevel? (d.toNat - '0'.toNat) = some p := by
  constructor
  · intro h
    have hall : ∀ e ∈ levelDigits, '1' ≤ e.1 ∧ e.1 ≤ '4' ∧
        ofLevel? (e.1.toNat - '0'.toNat) = some e.2 := by decide
    exact hall _ h
  · rintro ⟨h1, h4, hp⟩
    have hlow : 49 ≤ d.toNat := h1
    have hhigh : d.toNat ≤ 52 := h4
    have hall : ∀ n < 53, 49 ≤ n → ∀ q ∈ ofLevel? ((Char.ofNat n).toNat - '0'.toNat),
        (Char.ofNat n, q) ∈ levelDigits := by decide
    have hd := hall d.toNat (by omega) hlow p
    rw [Char.ofNat_toNat] at hd
    exact hd hp

lemma shorthand_eq_some_iff {b : Bool} {s : Text} {p : Priority} {n : ℕ} :
    shorthand b s = some (p, n) ↔ ∃ l d r, s = l :: d :: r ∧ (l = 'p' ∨ l = 'P') ∧
      (d, p) ∈ levelDigits ∧ b = false ∧ startsWord r = false ∧ n = 2 := by
  constructor
  · intro h
    unfold shorthand at h
    split at h
    · next l d r =>
      split_ifs at h with hcond
      obtain ⟨q, hq, he⟩ := Option.map_eq_some_iff.1 h
      cases he
      obtain ⟨hl, h1, h4, hb, hr⟩ := hcond
      exact ⟨l, d, r, rfl, hl, mem_levelDigits_iff.2 ⟨h1, h4, hq⟩, hb, hr, rfl⟩
    · cases h
  · rintro ⟨l, d, r, rfl, hl, hd, rfl, hr, rfl⟩
    obtain ⟨h1, h4, hp⟩ := mem_levelDigits_iff.1 hd
    have hcond : (l = 'p' ∨ l = 'P') ∧ '1' ≤ d ∧ d ≤ '4' ∧ false = false ∧ startsWord r = false :=
      ⟨hl, h1, h4, rfl, hr⟩
    exact (if_pos hcond).trans (by rw [hp, Option.map_some])

/-- A run of exclamation marks goes on to the first other character. -/
lemma takeWhile_marks {n : ℕ} {r : Text} (hr : '!' ∉ r.head?) :
    (List.replicate n '!' ++ r).takeWhile (· == '!') = List.replicate n '!' := by
  have hall : ∀ c ∈ List.replicate n '!', (c == '!') = true := fun c hc =>
    beq_iff_eq.2 (List.eq_of_mem_replicate hc)
  have hstop : r.takeWhile (· == '!') = [] := by
    cases r with
    | nil => rfl
    | cons c r => exact List.takeWhile_cons_of_neg (by simpa using hr)
  rw [List.takeWhile_append_of_pos hall, hstop, List.append_nil]

lemma exists_run (s : Text) : ∃ n r, s = List.replicate n '!' ++ r ∧ '!' ∉ r.head? := by
  refine ⟨(s.takeWhile (· == '!')).length, s.dropWhile (· == '!'), ?_, fun h => ?_⟩
  · have hrun : s.takeWhile (· == '!') = List.replicate (s.takeWhile (· == '!')).length '!' :=
      List.eq_replicate_length.2 fun c hc => by simpa using List.mem_takeWhile_imp hc
    rw [← hrun, List.takeWhile_append_dropWhile]
  · have hhead := List.head?_dropWhile_not (· == '!') s
    rw [Option.mem_def.1 h] at hhead
    simp at hhead

lemma longRun_eq_some_iff {b : Bool} {s : Text} {p : Priority} {n : ℕ} :
    longRun b s = some (p, n) ↔
      p = urgent ∧ 3 ≤ n ∧ ∃ r, s = List.replicate n '!' ++ r ∧ '!' ∉ r.head? := by
  constructor
  · intro h
    obtain ⟨m, r, rfl, hr⟩ := exists_run s
    simp only [longRun, takeWhile_marks hr, List.length_replicate] at h
    split_ifs at h with hm
    cases h
    exact ⟨rfl, hm, r, rfl, hr⟩
  · rintro ⟨rfl, hn, r, rfl, hr⟩
    simp only [longRun, takeWhile_marks hr, List.length_replicate, if_pos hn]

lemma pair_eq_some_iff {b : Bool} {s : Text} {p : Priority} {n : ℕ} :
    pair b s = some (p, n) ↔ p = high ∧ n = 2 ∧ ∃ r, s = '!' :: '!' :: r := by
  constructor
  · intro h
    unfold pair at h
    split at h
    · next r =>
      cases h
      exact ⟨rfl, rfl, r, rfl⟩
    · cases h
  · rintro ⟨rfl, rfl, r, rfl⟩
    rfl

/-! ### The length of a marker -/

lemma measured_levelWord : levelWord.Measured where
  ne_zero h := by
    obtain ⟨w, r, -, -, -, rfl⟩ := levelWord_eq_some_iff.1 h
    simp
  le_length h := by
    obtain ⟨w, r, rfl, -, -, rfl⟩ := levelWord_eq_some_iff.1 h
    simp

lemma measured_shorthand : shorthand.Measured where
  ne_zero h := by
    obtain ⟨l, d, r, -, -, -, -, -, rfl⟩ := shorthand_eq_some_iff.1 h
    simp
  le_length h := by
    obtain ⟨l, d, r, rfl, -, -, -, -, rfl⟩ := shorthand_eq_some_iff.1 h
    simp

lemma measured_longRun : longRun.Measured where
  ne_zero h := by
    obtain ⟨-, hn, -⟩ := longRun_eq_some_iff.1 h
    omega
  le_length h := by
    obtain ⟨-, -, r, rfl, -⟩ := longRun_eq_some_iff.1 h
    simp

lemma measured_pair : pair.Measured where
  ne_zero h := by
    obtain ⟨-, rfl, -⟩ := pair_eq_some_iff.1 h
    simp
  le_length h := by
    obtain ⟨-, rfl, r, rfl⟩ := pair_eq_some_iff.1 h
    simp

/-- No kind of marker is empty, and none reaches beyond the text. -/
lemma measured_of_mem_patterns {p : Pattern Priority} (hp : p ∈ patterns) : p.Measured := by
  simp only [patterns, List.mem_cons, List.not_mem_nil, or_false] at hp
  rcases hp with rfl | rfl | rfl | rfl
  · exact measured_levelWord
  · exact measured_shorthand
  · exact measured_longRun
  · exact measured_pair

end Priority

end TaskCapture
