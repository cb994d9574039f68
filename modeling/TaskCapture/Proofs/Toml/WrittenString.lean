import Mathlib.Tactic.IntervalCases
import TaskCapture.Proofs.Text.Split
import TaskCapture.Toml.Strings

/-!
A string in its written form, read back. Whichever of the four forms is taken, what stands between
the quotes spells the string, has no quotes that would close it early, and is one lexeme.
-/

namespace TaskCapture.Toml

open Text

/-! ### Spelling -/

/-- The quote that a form is written with. -/
def Quoting.mark (q : Quoting) : Char := if q.hasEscapes then '"' else '\x27'

/-- The number of quotes in a row that may stand in a string of the form. -/
def Quoting.free (q : Quoting) : ℕ := if q.hasLines then 2 else 0

/-- An escape and the character that it stands for. -/
inductive EscapeOf : Text → Char → Prop where
  | letter {e c : Char} (h : (e, c) ∈ letterEscapes) : EscapeOf ['\\', e] c
  | code {c : Char} (h : c.toNat < 0x80) : EscapeOf
    ['\\', 'u', '0', '0', Nat.digitChar (c.toNat / 16), (Nat.digitChar (c.toNat % 16)).toUpper] c

/-- What stands between the quotes of a form, after `run` quotes in a row, and the string that it
spells. -/
inductive Spells (q : Quoting) : ℕ → Text → Text → Prop where
  | nil {run : ℕ} : Spells q run [] []
  | quote {run : ℕ} {w s : Text} (h : run < q.free) (hw : Spells q (run + 1) w s) :
    Spells q run (q.mark :: w) (q.mark :: s)
  | plain {run : ℕ} {c : Char} {w s : Text} (hq : c ≠ q.mark) (hb : q.hasEscapes = true → c ≠ '\\')
    (hc : isControl c = false ∨ q.hasLines = true ∧ c = '\n') (hw : Spells q 0 w s) :
    Spells q run (c :: w) (c :: s)
  | escape {run : ℕ} {e : Text} {c : Char} {w s : Text} (hq : q.hasEscapes = true)
    (he : EscapeOf e c) (hw : Spells q 0 w s) : Spells q run (e ++ w) (c :: s)

/-- A string in a form. A line break may stand after the opening quotes, and then does not count. -/
inductive Written (s : Text) : Quoting → Text → Prop where
  | here {q : Quoting} {w : Text} (hq : q ≠ .bare) (hw : Spells q 0 w s)
    (hn : q.hasLines = true → '\n' ∉ s) : Written s q (q.quotes ++ (w ++ q.quotes))
  | below {q : Quoting} {w : Text} (hq : q.hasLines = true) (hw : Spells q 0 w s) :
    Written s q (q.quotes ++ '\n' :: (w ++ q.quotes))

variable {q : Quoting} {run : ℕ} {e w s t : Text} {c : Char}

lemma Quoting.mark_of_hasEscapes (h : q.hasEscapes = true) : q.mark = '"' := by
  rw [mark, if_pos h]

lemma Quoting.ne_bare_of_hasLines (hq : q.hasLines = true) : q ≠ .bare := by
  rintro rfl
  cases hq

/-! ### Escapes -/

lemma hexValue?_digitChar {n : ℕ} (h : n < 16) :
    hexValue? (Nat.digitChar n) = some n ∧ hexValue? (Nat.digitChar n).toUpper = some n := by
  interval_cases n <;> decide

/-- An escape in its parts: a backslash, a character that opens no gap, and digits. -/
lemma EscapeOf.exists_eq (h : EscapeOf e c) : ∃ x ds, e = '\\' :: x :: ds ∧ isSpace x = false ∧
    x ≠ '\n' ∧ x ≠ '\r' ∧ ∀ d ∈ ds, d ≠ '"' ∧ d ≠ '\\' ∧ d ≠ '\n' := by
  cases h with
  | @letter e c h =>
    have hall : (letterEscapes.all fun p => !isSpace p.1 && p.1 != '\n' && p.1 != '\r') = true := by
      decide
    have hx := List.all_eq_true.1 hall _ h
    simp only [Bool.and_eq_true, Bool.not_eq_true', bne_iff_ne] at hx
    exact ⟨e, [], rfl, hx.1.1, hx.1.2, hx.2, by simp⟩
  | code h =>
    refine ⟨'u', _, rfl, by decide, by decide, by decide, ?_⟩
    -- a hex digit is none of these
    have hdigit : ∀ d, (hexValue? d).isSome = true → d ≠ '"' ∧ d ≠ '\\' ∧ d ≠ '\n' := by
      intro d hd
      refine ⟨?_, ?_, ?_⟩
      all_goals
        rintro rfl
        exact absurd hd (by decide)
    have hhigh := hexValue?_digitChar (show c.toNat / 16 < 16 by omega)
    have hlow := hexValue?_digitChar (show c.toNat % 16 < 16 by omega)
    intro d hd
    simp only [List.mem_cons, List.not_mem_nil, or_false] at hd
    rcases hd with rfl | rfl | rfl | rfl
    · decide
    · decide
    · exact hdigit _ (by rw [hhigh.1]; rfl)
    · exact hdigit _ (by rw [hlow.2]; rfl)

lemma EscapeOf.readEscape (h : EscapeOf ('\\' :: e) c) (place : ℕ) (t : Text) :
    readEscape place (e ++ t) = .ok (c, e.length) := by
  cases h with
  | @letter e c h =>
    have hall : (letterEscapes.all fun p => letterEscapes.lookup p.1 == some p.2) = true := by
      decide
    have hx : letterEscapes.lookup e = some c := by
      simpa using List.all_eq_true.1 hall _ h
    rw [List.cons_append, Toml.readEscape]
    simp only [hx]
    rfl
  | code h =>
    have hhigh := (hexValue?_digitChar (show c.toNat / 16 < 16 by omega)).1
    have hlow := (hexValue?_digitChar (show c.toNat % 16 < 16 by omega)).2
    have hn : 16 * (c.toNat / 16) + c.toNat % 16 = c.toNat := Nat.div_add_mod _ _
    have hread : readHex 0 4 ('0' :: '0' :: Nat.digitChar (c.toNat / 16) ::
        (Nat.digitChar (c.toNat % 16)).toUpper :: t) = some (c.toNat, t) := by
      simp [readHex, hhigh, hlow, hn, show hexValue? '0' = some 0 by decide]
    simp only [List.cons_append, List.nil_append, Toml.readEscape,
      show letterEscapes.lookup 'u' = none by decide, show hexEscapes.lookup 'u' = some 4 by decide]
    rw [hread]
    simp only [Char.ofNat_toNat]
    rw [if_pos (.inl (by omega))]
    rfl

lemma unescape_skip (escapes lines : Bool) (place skip : ℕ) (t : Text) :
    unescape escapes lines place skip t =
      unescape escapes lines (place + min skip t.length) 0 (t.drop skip) := by
  induction t generalizing place skip with
  | nil => simp [unescape]
  | cons c t ih =>
    cases skip with
    | zero => simp
    | succ k =>
      rw [unescape, ih]
      simp [Nat.add_min_add_right, Nat.add_assoc, Nat.add_comm 1]

lemma unescape_plain {escapes lines : Bool} (hb : escapes = true → c ≠ '\\')
    (hc : isControl c = false ∨ lines = true ∧ c = '\n') (place : ℕ) (t : Text) :
    unescape escapes lines place 0 (c :: t) =
      (unescape escapes lines (place + 1) 0 t).map (c :: ·) := by
  have hplain : isPlain lines c t = true := by
    rcases hc with hc | ⟨rfl, rfl⟩
    · simp [isPlain, hc]
    · rfl
  have hslash : (escapes && c == '\\') = false := by
    simpa using hb
  rw [unescape]
  simp only [hslash, hplain, Bool.false_eq_true, if_false, if_true]
  cases unescape escapes lines (place + 1) 0 t <;> rfl

lemma EscapeOf.unescape (h : EscapeOf e c) (lines : Bool) (place : ℕ) (t : Text) :
    ∃ place', Toml.unescape true lines place 0 (e ++ t) =
      (Toml.unescape true lines place' 0 t).map (c :: ·) := by
  obtain ⟨x, ds, rfl, hspace, hn, hr, -⟩ := h.exists_eq
  have hgap : continuation? (x :: ds ++ t) = none := by
    simp [continuation?, hspace, hn, hr]
  have hrest : Toml.unescape true lines (place + 1) (x :: ds).length (x :: ds ++ t) =
      Toml.unescape true lines (place + 1 + (x :: ds).length) 0 t := by
    rw [unescape_skip, List.drop_left, Nat.min_eq_left (by simp)]
  refine ⟨place + 1 + (x :: ds).length, ?_⟩
  rw [← hrest, List.cons_append, Toml.unescape]
  simp only [Bool.true_and, beq_self_eq_true, if_true, hgap, ite_self, h.readEscape]
  change (do
    return c :: (← Toml.unescape true lines (place + 1) (x :: ds).length (x :: ds ++ t))) = _
  cases Toml.unescape true lines (place + 1) (x :: ds).length (x :: ds ++ t) <;> rfl

/-- **What is spelled is read.** -/
theorem Spells.unescape (h : Spells q run w s) (place : ℕ) :
    unescape q.hasEscapes q.hasLines place 0 w = .ok s := by
  induction h generalizing place with
  | nil => rfl
  | quote h hw ih =>
    have hb : q.hasEscapes = true → q.mark ≠ '\\' := by cases q <;> decide
    have hc : isControl q.mark = false := by cases q <;> decide
    rw [unescape_plain hb (.inl hc), ih]
    rfl
  | plain hq hb hc hw ih =>
    rw [unescape_plain hb hc, ih]
    rfl
  | escape hq he hw ih =>
    rw [hq] at ih ⊢
    obtain ⟨place', h⟩ := he.unescape q.hasLines place _
    rw [h, ih]
    rfl

/-! ### Where the string ends -/

/-- All characters of an escape are counted where the one after a backslash is taken as it is. -/
lemma EscapeOf.length_append {f : Bool → Text → ℕ} (h : EscapeOf e c)
    (hslash : ∀ t, f false ('\\' :: t) = f true t + 1)
    (hbehind : ∀ x t, x ≠ '\n' → f true (x :: t) = f false t + 1)
    (hcons : ∀ d t, d ≠ '"' → d ≠ '\\' → d ≠ '\n' → f false (d :: t) = f false t + 1) (t : Text) :
    f false (e ++ t) = f false t + e.length := by
  obtain ⟨x, ds, rfl, -, hn, -, hds⟩ := h.exists_eq
  have hdigits : f false (ds ++ t) = f false t + ds.length := by
    clear h
    induction ds with
    | nil => rfl
    | cons d ds ih =>
      obtain ⟨h1, h2, h3⟩ := hds d (by simp)
      rw [List.cons_append, hcons d _ h1 h2 h3, ih fun d hd => hds d (by simp [hd])]
      rfl
  rw [List.cons_append, List.cons_append, hslash, hbehind x _ hn, hdigits]
  simp only [List.length_cons]
  omega

lemma lineLength_cons {quote : Char} {escapes : Bool} (hq : c ≠ quote)
    (hb : escapes = true → c ≠ '\\') (hn : c ≠ '\n') (t : Text) :
    lineLength quote escapes false (c :: t) = lineLength quote escapes false t + 1 := by
  have hslash : (escapes && c == '\\') = false := by simpa using hb
  rw [lineLength, hslash]
  simp [hq, hn]

lemma lineLength_behind (hn : c ≠ '\n') (t : Text) :
    lineLength '"' true true (c :: t) = lineLength '"' true false t + 1 := by
  rw [lineLength]
  split_ifs with hc hquote
  · rfl
  · simp [hquote] at hc
  · have hslash : (true && c == '\\') = false := by
      simp only [Bool.true_and, Bool.or_eq_true, not_or, beq_iff_eq] at hc
      simpa using hc.1
    rw [hslash]

lemma EscapeOf.lineLength (h : EscapeOf e c) (t : Text) :
    Toml.lineLength '"' true false (e ++ t) = Toml.lineLength '"' true false t + e.length :=
  h.length_append (f := Toml.lineLength '"' true) (fun _ => rfl)
    (fun _ t hn => lineLength_behind hn t)
    (fun _ t hq hb hn => lineLength_cons hq (fun _ => hb) hn t) t

lemma linesLength_cons {quote : Char} {escapes : Bool} (hq : c ≠ quote)
    (hb : escapes = true → c ≠ '\\') (t : Text) :
    linesLength quote escapes false (c :: t) = linesLength quote escapes false t + 1 := by
  have hslash : (escapes && c == '\\') = false := by simpa using hb
  rw [linesLength, hslash]
  simp [hq]

lemma linesLength_behind (c : Char) (t : Text) :
    linesLength '"' true true (c :: t) = linesLength '"' true false t + 1 := by
  rw [linesLength]
  split_ifs with hc hquote
  · rfl
  · simp [hquote.1] at hc
  · have hslash : (true && c == '\\') = false := by
      simp only [Bool.true_and, Bool.or_eq_true, not_or, beq_iff_eq] at hc
      simpa using hc.1
    rw [hslash]

lemma EscapeOf.linesLength (h : EscapeOf e c) (t : Text) :
    Toml.linesLength '"' true false (e ++ t) = Toml.linesLength '"' true false t + e.length :=
  h.length_append (f := Toml.linesLength '"' true) (fun _ => rfl)
    (fun x t _ => linesLength_behind x t)
    (fun _ t hq hb _ => linesLength_cons hq (fun _ => hb) t) t

/-- **A string on one line** ends with its closing quote. -/
theorem Spells.lineLength (h : Spells q run w s) (hq : q.hasLines = false) (t : Text) :
    lineLength q.mark q.hasEscapes false (w ++ q.mark :: t) = w.length + 1 := by
  induction h with
  | nil =>
    rw [List.nil_append, Toml.lineLength]
    simp
  | quote h hw ih => simp [Quoting.free, hq] at h
  | @plain _ c w s hc hb hcontrol hw ih =>
    have hn : c ≠ '\n' := by
      rcases hcontrol with hcontrol | hlines
      · rintro rfl
        exact absurd hcontrol (by decide)
      · simp [hq] at hlines
    rw [List.cons_append, lineLength_cons hc hb hn, ih]
    rfl
  | escape hesc he hw ih =>
    rw [hesc, Quoting.mark_of_hasEscapes hesc] at ih ⊢
    rw [List.append_assoc, he.lineLength, ih, List.length_append]
    omega

/-- Three quotes in a row are the closing ones, with up to two of the string before them. -/
lemma linesLength_quotes {quote : Char} {escapes : Bool} (ht : t.head? ≠ some quote) {n : ℕ}
    (hn : n ≤ 2) :
    linesLength quote escapes false (List.replicate n quote ++ quote :: quote :: quote :: t) =
      n + 3 := by
  have hend : (t.take 2).takeWhile (· == quote) = [] ∧ (t.take 1).takeWhile (· == quote) = [] := by
    cases t with
    | nil => exact ⟨rfl, rfl⟩
    | cons d t =>
      have hd : (d == quote) = false := by simpa using ht
      simp [hd]
  interval_cases n <;> simp [linesLength, List.replicate, hend]

lemma linesLength_quote {quote : Char} {escapes : Bool} (hne : quote ≠ '\\')
    (ht : t.take 2 ≠ [quote, quote]) :
    linesLength quote escapes false (quote :: t) = linesLength quote escapes false t + 1 := by
  have hslash : (escapes && quote == '\\') = false := by simp [hne]
  rw [linesLength, hslash]
  simp [ht]

/-- Two quotes after a quote of the string belong to the end of it. -/
lemma Spells.eq_replicate (h : Spells q run w s) (hrun : run = 1 ∨ run = 2)
    (hw : (w ++ t).take 2 = [q.mark, q.mark]) : ∃ n, n + run ≤ 2 ∧ w = List.replicate n q.mark := by
  have hslash : q.mark ≠ '\\' := by cases q <;> decide
  cases h with
  | nil => exact ⟨0, by omega, rfl⟩
  | @quote _ w' s' h hw' =>
    have hfree : q.free ≤ 2 := by cases q <;> decide
    cases hw' with
    | nil => exact ⟨1, by omega, rfl⟩
    | quote h' => omega
    | plain hq => simp [hq] at hw
    | escape _ he =>
      obtain ⟨x, ds, rfl, -⟩ := he.exists_eq
      simp [hslash.symm] at hw
  | plain hq => simp [hq] at hw
  | escape _ he =>
    obtain ⟨x, ds, rfl, -⟩ := he.exists_eq
    simp [hslash.symm] at hw

/-- **A string on several lines** ends with its closing quotes. -/
theorem Spells.linesLength (h : Spells q run w s) (ht : t.head? ≠ some q.mark) :
    linesLength q.mark q.hasEscapes false (w ++ q.mark :: q.mark :: q.mark :: t) =
      w.length + 3 := by
  induction h with
  | nil => exact linesLength_quotes ht (n := 0) (by omega)
  | @quote run w s h hw ih =>
    by_cases hend : (w ++ q.mark :: q.mark :: q.mark :: t).take 2 = [q.mark, q.mark]
    · have hfree : q.free ≤ 2 := by cases q <;> decide
      obtain ⟨n, hn, rfl⟩ := hw.eq_replicate (by omega) hend
      rw [← List.replicate_succ, linesLength_quotes ht (by omega), List.length_replicate]
    · rw [List.cons_append, linesLength_quote (by cases q <;> decide) hend, ih]
      rfl
  | @plain _ c w s hc hb hcontrol hw ih =>
    rw [List.cons_append, linesLength_cons hc hb, ih]
    rfl
  | escape hesc he hw ih =>
    rw [hesc, Quoting.mark_of_hasEscapes hesc] at ih ⊢
    rw [List.append_assoc, he.linesLength, ih, List.length_append]
    omega

/-! ### The forms -/

lemma needsCode_eq_false_iff : needsCode c = false ↔ isControl c = false ∨ c = '\n' := by
  unfold needsCode
  by_cases hc : c = '\n' <;> simp [hc]

lemma isControl_of_escaped?_eq_none (h : escaped? c = none) (hn : c ≠ '\n') :
    isControl c = false ∧ c ≠ '\\' := by
  unfold escaped? at h
  split_ifs at h with h1 h2 h3 h4 h5 h6
  rw [not_or] at h6
  refine ⟨?_, h5⟩
  simp only [isControl, Bool.or_eq_false_iff, Bool.and_eq_false_iff, decide_eq_false_iff_not,
    beq_eq_false_iff_ne]
  exact ⟨.inl (by omega), h6.2⟩

lemma escapeOf_of_escaped? (h : escaped? c = some e) : EscapeOf e c := by
  unfold escaped? at h
  split_ifs at h with h1 h2 h3 h4 h5 h6 h7
  all_goals cases h
  · rw [h1]
    exact .letter (by decide)
  · rw [h2]
    exact .letter (by decide)
  · rw [h3]
    exact .letter (by decide)
  · rw [h4]
    exact .letter (by decide)
  · rw [h5]
    exact .letter (by decide)
  · rw [h6]
    exact .letter (by decide)
  · exact .code (by omega)

/-- **Escapes take every string**, on one line and on several. -/
theorem spells_escapeAll (hq : q.hasEscapes = true) (run : ℕ) (s : Text) :
    Spells q run (escapeAll q.hasLines q.free run s) s := by
  have hmark := Quoting.mark_of_hasEscapes hq
  induction s generalizing run with
  | nil => exact .nil
  | cons c s ih =>
    rw [escapeAll]
    split_ifs with hc hrun hn
    · rw [hc, ← hmark]
      exact .quote hrun (ih (run + 1))
    · rw [hc]
      exact .escape hq (.letter (by decide)) (ih 0)
    · rw [hn.1]
      exact .plain (by rw [hmark]; decide) (fun _ => by decide) (.inr ⟨hn.2, rfl⟩) (ih 0)
    · cases he : escaped? c with
      | some e => exact .escape hq (escapeOf_of_escaped? he) (ih 0)
      | none =>
        have hne : c ≠ '\n' := by
          rintro rfl
          exact absurd he (by decide)
        obtain ⟨hcontrol, hslash⟩ := isControl_of_escaped?_eq_none he hne
        exact .plain (hmark ▸ hc) (fun _ => hslash) (.inl hcontrol) (ih 0)

lemma length_takeWhile_le_longestRun (c : Char) (s : Text) :
    (s.takeWhile (· == c)).length ≤ longestRun c s := by
  cases s with
  | nil => simp
  | cons d s =>
    rw [longestRun]
    exact le_max_left _ _

lemma longestRun_of_not_mem (h : c ∉ s) : longestRun c s = 0 := by
  induction s with
  | nil => rfl
  | cons d s ih =>
    rw [List.mem_cons, not_or] at h
    simp [longestRun, ih h.2, Ne.symm h.1]

lemma spells_self_after (hq : q.hasEscapes = false) (hcodes : ∀ c ∈ s, needsCode c = false)
    (hbreaks : q.hasLines = false → '\n' ∉ s) (hlongest : longestRun q.mark s ≤ q.free)
    (hrun : run + (s.takeWhile (· == q.mark)).length ≤ q.free) : Spells q run s s := by
  induction s generalizing run with
  | nil => exact .nil
  | cons c s ih =>
    rw [longestRun] at hlongest
    have hlongest' : longestRun q.mark s ≤ q.free := by omega
    have ih {run : ℕ} := @ih run (fun d hd => hcodes d (by simp [hd]))
      (fun h hm => hbreaks h (by simp [hm])) hlongest'
    by_cases hc : c = q.mark
    · subst hc
      simp only [List.takeWhile_cons, beq_self_eq_true, if_true, List.length_cons] at hrun
      exact .quote (by omega) (ih (by omega))
    · have htake := length_takeWhile_le_longestRun q.mark s
      refine .plain hc (by simp [hq]) ?_ (ih (by omega))
      rcases needsCode_eq_false_iff.1 (hcodes c (by simp)) with h | rfl
      · exact .inl h
      · cases hl : q.hasLines with
        | true => exact .inr ⟨rfl, rfl⟩
        | false => exact absurd (by simp) (hbreaks hl)

/-- Without escapes, a string spells itself if it needs no code and has few quotes in a row. -/
lemma spells_self (hq : q.hasEscapes = false) (hcodes : ∀ c ∈ s, needsCode c = false)
    (hbreaks : q.hasLines = false → '\n' ∉ s) (hlongest : longestRun q.mark s ≤ q.free) :
    Spells q 0 s s := by
  have htake := length_takeWhile_le_longestRun q.mark s
  exact spells_self_after hq hcodes hbreaks hlongest (by omega)

/-- On several lines, a string with line breaks begins below the opening quotes. -/
lemma Spells.written (h : Spells q 0 w s) (hq : q.hasLines = true) :
    Written s q (q.quotes ++ (if s.contains '\n' then ['\n'] else []) ++ w ++ q.quotes) := by
  simp only [List.append_assoc]
  split_ifs with hn
  · exact .below hq h
  · exact .here (Quoting.ne_bare_of_hasLines hq) h fun _ => by simpa using hn

/-- **What is written is in one of the forms.** -/
theorem written_writeString (s : Text) : ∃ q, Written s q (writeString s) := by
  have hbasic : Written s .basic ('"' :: escapeAll false 0 0 s ++ ['"']) :=
    .here (q := .basic) (by decide) (spells_escapeAll rfl 0 s) fun h => by cases h
  have hbasicLines := (spells_escapeAll (q := .basicLines) rfl 0 s).written rfl
  have hliteralLines (hs : Spells .literalLines 0 s s) := hs.written rfl
  unfold writeString
  simp only
  generalize (if s.contains '\n' then ['\n'] else []) = first at hbasicLines hliteralLines ⊢
  split_ifs with h1 h2 h3 h4 h5
  · exact ⟨_, hbasic⟩
  · simp only [Bool.and_eq_true, Bool.not_eq_true', List.any_eq_false,
      Bool.not_eq_true, List.contains_eq_mem, decide_eq_false_iff_not] at h2
    obtain ⟨⟨hcodes, hquote⟩, hbreaks⟩ := h2
    have hs : Spells .literal 0 s s :=
      spells_self rfl hcodes (fun _ => hbreaks) (longestRun_of_not_mem hquote).le
    exact ⟨_, .here (q := .literal) (by decide) hs fun h => by cases h⟩
  · exact ⟨_, hbasicLines⟩
  · simp only [Bool.and_eq_true, Bool.not_eq_true', List.any_eq_false, Bool.not_eq_true,
      decide_eq_true_eq] at h4
    obtain ⟨hcodes, hrun⟩ := h4
    exact ⟨_, hliteralLines (spells_self rfl hcodes (fun h => by cases h) hrun)⟩
  · exact ⟨_, hbasicLines⟩
  · exact ⟨_, hbasic⟩

/-! ### Reading them -/

lemma firstBreak_cons (hn : c ≠ '\n') (hr : c ≠ '\r') (t : Text) : q.firstBreak (c :: t) = 0 := by
  unfold Quoting.firstBreak
  split_ifs
  · rfl
  · split
    · next heq => exact absurd (List.cons.inj heq).1 hn
    · next heq => exact absurd (List.cons.inj heq).1 hr
    · rfl

/-- A string without line breaks has none to begin with. -/
lemma Spells.firstBreak (h : Spells q run w s) (hn : q.hasLines = true → '\n' ∉ s) :
    q.firstBreak w = 0 := by
  cases h with
  | nil => cases q <;> rfl
  | quote h hw => exact firstBreak_cons (by cases q <;> decide) (by cases q <;> decide) _
  | plain hq hb hc hw =>
    rcases hc with hc | ⟨hlines, rfl⟩
    · refine firstBreak_cons ?_ ?_ _
      all_goals
        rintro rfl
        exact absurd hc (by decide)
    · exact absurd (by simp) (hn hlines)
  | escape hq he hw =>
    obtain ⟨x, ds, rfl, -⟩ := he.exists_eq
    exact firstBreak_cons (by decide) (by decide) _

lemma Written.ne_bare (h : Written s q w) : q ≠ .bare := by
  cases h with
  | here hq => exact hq
  | below hq => exact Quoting.ne_bare_of_hasLines hq

/-- **A written string is read back.** -/
theorem Written.string (h : Written s q w) (place : ℕ) : Word.string ⟨q, w, place⟩ = .ok s := by
  cases h with
  | here hq hw hn =>
    unfold Word.string
    simp only [List.drop_left, dropEnding?_append, hw.firstBreak hn, List.drop_zero]
    exact hw.unescape _
  | @below v hq hw =>
    have hfirst : q.firstBreak ('\n' :: v) = 1 := by simp [Quoting.firstBreak, hq]
    unfold Word.string
    simp only [List.drop_left, ← List.cons_append, dropEnding?_append, hfirst,
      List.drop_succ_cons, List.drop_zero]
    exact hw.unescape _

lemma lexemesFrom_cons_append {kind : Lexeme.Kind} {u : Text}
    (h : lexemeFrom c (u ++ t) = (kind, u.length)) (place : ℕ) :
    lexemesFrom place 0 (c :: (u ++ t)) =
      ⟨kind, c :: u, place⟩ :: lexemesFrom (place + (c :: u).length) 0 t := by
  rw [lexemesFrom, h]
  simp only [List.take_left]
  rw [lexemesFrom_skip, List.drop_left, Nat.min_eq_left (by simp), List.length_cons]
  congr 2
  omega

/-- Two quotes in a row do not begin a string on one line, if no third follows its end. -/
lemma Spells.take_two_ne (h : Spells q run w s) (hq : q.hasLines = false)
    (ht : t.head? ≠ some q.mark) : (w ++ q.mark :: t).take 2 ≠ [q.mark, q.mark] := by
  cases h with
  | nil =>
    cases t with
    | nil => simp
    | cons d t => simpa using ht
  | quote h => simp [Quoting.free, hq] at h
  | plain hc => simp [hc]
  | escape hesc he =>
    obtain ⟨x, ds, rfl, -⟩ := he.exists_eq
    have hmark : q.mark ≠ '\\' := by cases q <;> decide
    simp [hmark.symm]

lemma lexemeFrom_mark (hq : q ≠ .bare) {n : ℕ}
    (h : stringLength q.mark q.hasEscapes t = (q.hasLines, n)) :
    lexemeFrom q.mark t = (.word q, n) := by
  have hsingle : lexemeFrom '\x27' t = (.word (if (stringLength '\x27' false t).1 then
    .literalLines else .literal), (stringLength '\x27' false t).2) := rfl
  have hdouble : lexemeFrom '"' t = (.word (if (stringLength '"' true t).1 then
    .basicLines else .basic), (stringLength '"' true t).2) := rfl
  cases q with
  | bare => exact absurd rfl hq
  | literal | literalLines =>
    refine hsingle.trans ?_
    rw [show stringLength '\x27' false t = _ from h]
    rfl
  | basic | basicLines =>
    refine hdouble.trans ?_
    rw [show stringLength '"' true t = _ from h]
    rfl

lemma Quoting.quotes_eq (hq : q ≠ .bare) :
    q.quotes = if q.hasLines then [q.mark, q.mark, q.mark] else [q.mark] := by
  cases q with
  | bare => exact absurd rfl hq
  | _ => rfl

lemma Spells.stringLength_line (h : Spells q 0 w s) (hq : q.hasLines = false)
    (ht : t.head? ≠ some q.mark) :
    stringLength q.mark q.hasEscapes (w ++ [q.mark] ++ t) = (false, (w ++ [q.mark]).length) := by
  have hne := h.take_two_ne hq ht
  rw [List.append_assoc, List.singleton_append, stringLength, if_neg hne, h.lineLength hq,
    List.length_append]
  rfl

lemma Spells.stringLength_lines (h : Spells q 0 w s) (ht : t.head? ≠ some q.mark) :
    stringLength q.mark q.hasEscapes (q.mark :: q.mark :: (w ++ [q.mark, q.mark, q.mark]) ++ t) =
      (true, (q.mark :: q.mark :: (w ++ [q.mark, q.mark, q.mark])).length) := by
  have hlen := h.linesLength ht
  simp only [List.cons_append, List.append_assoc, List.nil_append, stringLength,
    List.take_succ_cons, List.take_zero, if_true, List.drop_succ_cons, List.drop_zero, hlen,
    List.length_cons, List.length_append, List.length_nil]

lemma Spells.lexemesFrom_append (h : Spells q 0 w s) (hq : q ≠ .bare) (ht : t.head? ≠ some q.mark)
    (place : ℕ) : lexemesFrom place 0 (q.quotes ++ (w ++ q.quotes) ++ t) =
      ⟨.word q, q.quotes ++ (w ++ q.quotes), place⟩ ::
        lexemesFrom (place + (q.quotes ++ (w ++ q.quotes)).length) 0 t := by
  rw [Quoting.quotes_eq hq]
  cases hl : q.hasLines with
  | false =>
    have hform := lexemeFrom_mark hq (by rw [hl]; exact h.stringLength_line hl ht)
    exact lexemesFrom_cons_append hform place
  | true =>
    have hform := lexemeFrom_mark hq (by rw [hl]; exact h.stringLength_lines ht)
    exact lexemesFrom_cons_append hform place

/-- **A written string is one lexeme**, if no quote follows it. -/
theorem Written.lexemesFrom_append (h : Written s q w) (ht : t.head? ≠ some q.mark) (place : ℕ) :
    lexemesFrom place 0 (w ++ t) = ⟨.word q, w, place⟩ :: lexemesFrom (place + w.length) 0 t := by
  cases h with
  | here hq hw hn => exact hw.lexemesFrom_append hq ht place
  | @below v hq hw =>
    -- for the lexer the line break is one more character of the string
    have hbreak : Spells q 0 ('\n' :: v) ('\n' :: s) :=
      .plain (by cases q <;> decide) (fun _ => by decide) (.inr ⟨hq, rfl⟩) hw
    exact hbreak.lexemesFrom_append (Quoting.ne_bare_of_hasLines hq) ht place

end TaskCapture.Toml
