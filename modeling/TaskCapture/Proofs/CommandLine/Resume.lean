import TaskCapture.CommandLine.Run
import TaskCapture.Proofs.Phrase.Written
import TaskCapture.Proofs.Recurrence.Progress

/-!
A list of dates can be taken up again from its last line: the line is read back as the instant that
it was written for, and what comes after that instant is what the longer list goes on with.
-/

namespace TaskCapture

open Text Calendar

/-! ### Written instants -/

namespace Instant

/-- A line of a list of dates: the day with its time, or the day alone. -/
def stamp (dateOnly : Bool) (i : Instant) : Text := if dateOnly then i.date.text else i.text

/-- What can be given as a start: a full minute, or the midnight of a day that is given alone. -/
structure Given (dateOnly : Bool) (i : Instant) : Prop where
  second : i.time.second = 0
  midnight : dateOnly = true → i.time = .midnight

lemma second_of_read? {w : Text} {i : Instant} (h : Instant.read? w = some i) :
    i.time.second = 0 := by
  have hm : ∀ {t r : Text} {c : Clock}, readHm t = some (c, r) → c.second = 0 := by
    intro t r c h
    obtain ⟨⟨n, t₁⟩, -, h⟩ := Option.bind_eq_some_iff.1 h
    obtain ⟨t₂, -, h⟩ := Option.bind_eq_some_iff.1 h
    obtain ⟨⟨m, t₃⟩, -, h⟩ := Option.bind_eq_some_iff.1 h
    obtain ⟨c', hc, h⟩ := Option.bind_eq_some_iff.1 h
    cases h
    exact (Clock.ofHms?_eq_some_iff.1 hc).2.2
  have hw : ∀ {t : Text} {c : Clock}, whole (readHm t) = some c → c.second = 0 := by
    intro t c h
    unfold whole at h
    split at h
    · next hr =>
      cases h
      exact hm hr
    · cases h
  unfold Instant.read? at h
  split at h
  · cases h
  · next d r hd =>
    rcases Option.or_eq_some_iff.1 h with h | ⟨-, h⟩
    · obtain ⟨r', -, h⟩ := Option.bind_eq_some_iff.1 h
      obtain ⟨c, hc, rfl⟩ := Option.map_eq_some_iff.1 h
      exact hw hc
    · obtain ⟨c, hc, rfl⟩ := Option.map_eq_some_iff.1 h
      exact hw hc

lemma given_of_readInstant {w : Text} {i : Instant} {dateOnly : Bool}
    (h : readInstant w = .ok (i, dateOnly)) : i.Given dateOnly := by
  unfold readInstant readOrDate? at h
  split at h
  · next r hr =>
    cases h
    split at hr
    · next j hj =>
      cases hr
      exact ⟨second_of_read? hj, nofun⟩
    · obtain ⟨d, -, he⟩ := Option.map_eq_some_iff.1 hr
      cases he
      exact ⟨rfl, fun _ => rfl⟩
  · cases h

/-- The line of an instant is read back, with the day alone or not. -/
lemma Given.readInstant_stamp {dateOnly : Bool} {i : Instant} (h : i.Given dateOnly) :
    readInstant (i.stamp dateOnly) = .ok (i, dateOnly) := by
  cases dateOnly with
  | false => simp [readInstant, readOrDate?, stamp, read?_text h.second]
  | true =>
    obtain ⟨d, c⟩ := i
    obtain rfl : c = .midnight := h.midnight rfl
    simp [readInstant, readOrDate?, stamp, read?_dateText, Date.read?_text]

lemma newline_not_mem_stamp (dateOnly : Bool) (i : Instant) : '\n' ∉ i.stamp dateOnly := by
  have hstamp : isStampChar '\n' = false := by decide
  intro h
  have hcases : '\n' ∈ i.date.text ∨ '\n' ∈ i.time.text := by
    cases dateOnly with
    | true => exact .inl h
    | false => simpa [stamp, text] using h
  rcases hcases with h | h
  · exact absurd (Date.isStampChar_of_mem_text h) (by simp [hstamp])
  · exact absurd (Clock.isStampChar_of_mem_text h) (by simp [hstamp])

lemma stamp_ne_nil (dateOnly : Bool) (i : Instant) : i.stamp dateOnly ≠ [] := by
  cases dateOnly with
  | true => exact List.ne_nil_of_mem i.date.hyphen_mem_text
  | false => simp [stamp, text]

end Instant

/-! ### Runs of dates -/

namespace Rule

variable {r : Rule}

/-- A full run goes on from its last instant. -/
lemma occurrences_add {n : ℕ} {i : Instant} (h : (r.occurrences n i).length = n) (m : ℕ) :
    r.occurrences (n + m) i =
      r.occurrences n i ++ r.occurrences m ((r.occurrences n i).getLastD i) := by
  induction n generalizing i with
  | zero => simp
  | succ n ih =>
    cases hj : r.next? i with
    | none => simp [occurrences_succ_of_none hj] at h
    | some j =>
      rw [occurrences_succ_of_some hj, List.length_cons, Nat.succ.injEq] at h
      rw [Nat.succ_add, occurrences_succ_of_some hj, occurrences_succ_of_some hj, ih h,
        List.getLastD_cons, List.cons_append]

lemma given_of_mem_occurrences {n : ℕ} {i j : Instant} {dateOnly : Bool} (h : i.Given dateOnly)
    (hj : j ∈ r.occurrences n i) : j.Given dateOnly := by
  have ht := time_of_mem_occurrences hj
  exact ⟨ht ▸ h.second, fun hd => ht ▸ h.midnight hd⟩

end Rule

/-! ### Lists of dates -/

namespace Command

/-- The lines of a text that was printed; a text without characters has none. -/
def linesOf (t : Text) : List Text := if t = [] then [] else t.splitOn '\n'

lemma linesOf_intercalate {ls : List Text} (hline : ∀ l ∈ ls, '\n' ∉ l ∧ l ≠ []) :
    linesOf (List.intercalate ['\n'] ls) = ls := by
  cases ls with
  | nil => rfl
  | cons l ls =>
    have hne : List.intercalate ['\n'] (l :: ls) ≠ [] := by
      obtain ⟨c, l', hl⟩ := List.exists_cons_of_ne_nil (hline l (by simp)).2
      cases ls <;> simp [hl, List.intercalate, List.intersperse]
    rw [linesOf, if_neg hne]
    exact List.splitOn_intercalate _ (fun l hl => (hline l hl).1) (List.cons_ne_nil _ _)

variable {now : Instant} {c : Config} {start : Instant} {dateOnly : Bool} {rule : Text} {r : Rule}

/-- Under a rule the list has a line for each date. -/
lemma linesOf_run_next (h : Rule.ofStored? rule = some r) (n : ℕ) :
    linesOf (run now c (.next start dateOnly rule n)) =
      (r.occurrences n start).map (Instant.stamp dateOnly) := by
  rw [run, output, h]
  refine linesOf_intercalate fun l hl => ?_
  obtain ⟨i, -, rfl⟩ := List.mem_map.1 hl
  exact ⟨i.newline_not_mem_stamp dateOnly, i.stamp_ne_nil dateOnly⟩

/-- **A list of dates is taken up again from its last line.** Where a list under a rule has all of
its `n` lines, its last line is read as the `n`-th instant at which the rule falls due after the
start, a day alone just if the start was one, and the lines of a longer list are these `n` lines and
then those of the list that starts from what the last line was read as. -/
theorem exists_resume {w : Text} (hrule : Rule.ofStored? rule = some r)
    (hstart : readInstant w = .ok (start, dateOnly)) {n : ℕ} (hn : 1 ≤ n)
    (hlines : (linesOf (run now c (.next start dateOnly rule n))).length = n) :
    ∃ l i, (linesOf (run now c (.next start dateOnly rule n))).getLast? = some l ∧
      (r.schedule start)[n - 1]? = some i ∧ readInstant l = .ok (i, dateOnly) ∧
      ∀ m, linesOf (run now c (.next start dateOnly rule (n + m))) =
        linesOf (run now c (.next start dateOnly rule n)) ++
          linesOf (run now c (.next i dateOnly rule m)) := by
  have hgiven := Instant.given_of_readInstant hstart
  rw [linesOf_run_next hrule, List.length_map] at hlines
  simp only [linesOf_run_next hrule]
  obtain ⟨i, hi⟩ : ∃ i, (r.occurrences n start).getLast? = some i := by
    cases h : (r.occurrences n start).getLast? with
    | some i => exact ⟨i, rfl⟩
    | none =>
      rw [List.getLast?_eq_none_iff.1 h, List.length_nil] at hlines
      omega
  refine ⟨i.stamp dateOnly, i, by rw [List.getLast?_map, hi, Option.map_some], ?_,
    (Rule.given_of_mem_occurrences hgiven (List.mem_of_getLast? hi)).readInstant_stamp, fun m => ?_⟩
  · rw [List.getLast?_eq_getElem?, hlines, Rule.occurrences_eq_take, List.getElem?_take] at hi
    simpa [show n - 1 < n by omega] using hi
  · rw [Rule.occurrences_add hlines, List.getLastD_eq_getLast?, hi, Option.getD_some,
      List.map_append]

/-- The day after the last of the year 9999 is written with a sign, and read back. -/
theorem exists_resume_of_december :
    let rule := "\x7b\"frequency\":\"daily\"\x7d".toList
    let start : Instant := ⟨⟨9999, 12, 30, by decide, by decide, by decide, by decide⟩,
      ⟨8, 5, 0, by decide, by decide, by decide⟩⟩
    let lines := fun i n => linesOf (run start {} (.next i false rule n))
    Rule.ofStored? rule = some ⟨.daily, none⟩ ∧
      readInstant "9999-12-30T08:05".toList = .ok (start, false) ∧ (lines start 2).length = 2 ∧
      (lines start 2).getLast? = some "+10000-01-01 08:05".toList ∧
      ∃ l i, (lines start 2).getLast? = some l ∧
        ((⟨.daily, none⟩ : Rule).schedule start)[1]? = some i ∧ readInstant l = .ok (i, false) ∧
        ∀ m, lines start (2 + m) = lines start 2 ++ lines i m := by
  intro rule start lines
  have hrule : Rule.ofStored? rule = some ⟨.daily, none⟩ := by decide +kernel
  have hstart : readInstant "9999-12-30T08:05".toList = .ok (start, false) := by decide +kernel
  have hlines : lines start 2 = ["9999-12-31 08:05".toList, "+10000-01-01 08:05".toList] := by
    refine (linesOf_run_next hrule 2).trans ?_
    decide +kernel
  have hlen : (lines start 2).length = 2 := by rw [hlines]; rfl
  exact ⟨hrule, hstart, hlen, by rw [hlines]; rfl, exists_resume hrule hstart (by decide) hlen⟩

end Command

end TaskCapture
