import TaskCapture.Json.Writer
import TaskCapture.Proofs.Json.ReadBack
import TaskCapture.Proofs.Text.Digits

/-!
What is written on one line is a JSON text of the value, so that it is read back: strings over all
of Unicode, lists and objects of any length.
-/

namespace TaskCapture.Json

open Text

/-! ### Strings -/

lemma hexValue?_hexDigit {n : ℕ} (h : n < 16) : hexValue? (hexDigit n) = some n := by
  have hall : ∀ n < 16, hexValue? (hexDigit n) = some n := by decide
  exact hall n h

/-- The short escapes are just those of the quote, the backslash and five control characters. -/
lemma charFor_escape (c : Char) : CharFor (escape c) c := by
  unfold escape
  split
  · next e d hfind =>
    have hd : d = c := by simpa using List.find?_some hfind
    exact .short (hd ▸ List.mem_of_find?_eq_some hfind)
  · next hfind =>
    have hnot : ∀ p ∈ shortEscapes, p.2 ≠ c := by simpa using hfind
    split_ifs with hc
    · have h : HexFor ['0', '0', hexDigit (c.toNat / 16), hexDigit (c.toNat % 16)] c.toNat := by
        refine ⟨rfl, [0, 0, c.toNat / 16, c.toNat % 16], ?_, ?_⟩
        · have hhigh := hexValue?_hexDigit (show c.toNat / 16 < 16 by omega)
          have hlow := hexValue?_hexDigit (show c.toNat % 16 < 16 by omega)
          simp only [List.map_cons, List.map_nil, hhigh, hlow]
          rfl
        · simp only [List.foldl_cons, List.foldl_nil]
          omega
      have := CharFor.hex h (.inl (by omega))
      rwa [Char.ofNat_toNat] at this
    · exact .plain (hnot ('"', '"') (by decide)).symm (hnot ('\\', '\\') (by decide)).symm
        (Nat.not_lt.1 hc)

lemma stringFor_quoted (s : Text) : StringFor (quoted s) s := by
  refine .mk (t := s.flatMap escape) ?_
  induction s with
  | nil => exact .nil
  | cons c s ih => exact .cons (charFor_escape c) ih

/-! ### Numbers -/

/-- Decimals have no superfluous zero. -/
lemma whole_decimal (n : ℕ) : Whole (decimal n) := by
  refine ⟨⟨Nat.toDigits_ne_nil, fun c => isAsciiDigit_of_mem_decimal⟩, fun h => ?_⟩
  have hzero : ∀ n, (decimal n).head? = some '0' → n = 0 := by
    intro n
    induction n using Nat.strongRecOn with
    | _ n ih =>
      intro h
      rcases Nat.lt_or_ge n 10 with hn | hn
      · rw [decimal, Nat.toDigits_of_lt_base hn, List.head?_cons, Option.some.injEq] at h
        have := digitValue_digitChar hn
        rwa [h, show digitValue '0' = 0 by decide, eq_comm] at this
      · -- the digits of a longer number begin with those of a tenth of it
        rw [decimal, Nat.toDigits_of_base_le (by decide) hn,
          List.head?_append_of_ne_nil _ Nat.toDigits_ne_nil] at h
        have := ih (n / 10) (by omega) h
        omega
  rw [hzero n h]
  decide

lemma le_foldl_digits (n : ℕ) (ds : Text) :
    n ≤ ds.foldl (fun n d => 10 * n + digitValue d) n := by
  induction ds generalizing n with
  | nil => exact le_rfl
  | cons d ds ih =>
    have := ih (10 * n + digitValue d)
    rw [List.foldl_cons]
    omega

lemma Scaled.feed_of_lt {n : ℕ} {x : ℤ} {ds : Text}
    (h : ds.foldl (fun n d => 10 * n + digitValue d) n < 2 ^ 64) :
    (⟨n, x⟩ : Scaled).feed 1 0 ds = ⟨ds.foldl (fun n d => 10 * n + digitValue d) n, x⟩ := by
  induction ds generalizing n with
  | nil => rfl
  | cons d ds ih =>
    rw [List.foldl_cons] at h
    have hn := (le_foldl_digits (10 * n + digitValue d) ds).trans_lt h
    rw [Scaled.feed]
    simp only [Nat.one_shiftLeft, if_pos hn, add_zero]
    rw [ih h, List.foldl_cons]

lemma round53_of_lt {n : ℕ} (h : n < 2 ^ 53) : round53 n = n := by
  refine if_pos ?_
  by_cases h0 : n = 0
  · subst h0
    decide
  · have := (Nat.log2_lt h0).2 h
    omega

/-- An integer of at most 53 bits is in range. -/
lemma inRange_decimal {n : ℕ} (h : n < 2 ^ 53) :
    (Scaled.ofDigits (decimal n) [] 0).inRange = true := by
  have hfold : (decimal n).foldl (fun n d => 10 * n + digitValue d) 0 = n := digitsValue_decimal n
  have hfeed := Scaled.feed_of_lt (x := 0) (hfold.trans_lt (h.trans (by decide)))
  have hlt : ∀ k, 53 ≤ k → n < 2 ^ k := fun k hk => h.trans_le (Nat.pow_le_pow_right two_pos hk)
  rw [hfold] at hfeed
  simp [Scaled.ofDigits, hfeed, Scaled.feed, Scaled.inRange, Nat.one_shiftLeft, round53_of_lt h,
    round53_of_lt (show 1 < 2 ^ 53 by decide), hlt, -Nat.reducePow]

/-- The integer can be written: its magnitude is one that is read. -/
def IntInRange (n : ℤ) : Prop := (Scaled.ofDigits (decimal n.natAbs) [] 0).inRange = true

lemma number_intText {n : ℤ} (h : IntInRange n) : Number (intText n) (.int n) := by
  have hvalue := digitsValue_decimal n.natAbs
  have hnum := @Number.mk (decide (n < 0)) _ _ _ _ _ (whole_decimal n.natAbs) .none .none h
  have htext : minus (decide (n < 0)) ++ decimal n.natAbs ++ [] ++ [] = intText n := by
    unfold minus intText
    split_ifs <;> simp_all
  have hval : numberValue (decide (n < 0)) (decimal n.natAbs) [] none (intText n) = .int n := by
    unfold numberValue
    rw [hvalue, if_pos (by simp; omega)]
    congr 1
    split_ifs with hn <;> simp at hn <;> omega
  rwa [htext, hval] at hnum

/-! ### Values -/

/-- The value can be written with lists and objects nested at most `depth` deep: its integers are in
range, and its other numbers are spelled as numbers. -/
def Writable : ℕ → Json → Prop
  | _, .null | _, .bool _ | _, .str _ => True
  | _, .int n => IntInRange n
  | _, .real t => Number t (.real t)
  | 0, .arr _ | 0, .obj _ => False
  | depth + 1, .arr vs => ∀ v ∈ vs, Writable depth v
  | depth + 1, .obj ms => ∀ m ∈ ms, Writable depth m.2

section

variable {P : Text → Json → Prop}

lemma element_of {t : Text} {v : Json} (h : P t v) : Element P t v := by
  simpa using Element.mk gap_nil h gap_nil

lemma member_of {s t name : Text} {v : Json} (hs : StringFor s name) (h : Element P t v) :
    Member P (s ++ ':' :: t) (name, v) := by
  simpa using Member.mk gap_nil hs gap_nil h

lemma series_compactList {vs : List Json} (hne : vs ≠ []) (h : ∀ v ∈ vs, P v.compact v) :
    Series (Element P) (compactList vs) vs := by
  induction vs with
  | nil => exact absurd rfl hne
  | cons v vs ih =>
    have hv := element_of (h v (by simp))
    cases vs with
    | nil => exact .one hv
    | cons w vs => exact .cons hv (ih (by simp) fun u hu => h u (by simp [hu]))

lemma series_compactMembers {ms : List (Text × Json)} (hne : ms ≠ [])
    (h : ∀ m ∈ ms, P m.2.compact m.2) : Series (Member P) (compactMembers ms) ms := by
  induction ms with
  | nil => exact absurd rfl hne
  | cons m ms ih =>
    obtain ⟨k, v⟩ := m
    have hm := member_of (stringFor_quoted k) (element_of (h (k, v) (by simp)))
    cases ms with
    | nil => exact .one hm
    | cons m ms => exact .cons hm (ih (by simp) fun u hu => h u (by simp [hu]))

end

lemma scalar_compact {v : Json} (h : Writable 0 v) : Scalar v.compact v := by
  cases v with
  | null => exact .null
  | bool b => cases b with
    | true => exact .true
    | false => exact .false
  | int n => exact .number (number_intText h)
  | real t => exact .number h
  | str s => exact .string (stringFor_quoted s)
  | arr vs => exact h.elim
  | obj ms => exact h.elim

/-- **What is written on one line stands for the value that was written.** -/
theorem valueFor_compact {depth : ℕ} {v : Json} (h : Writable depth v) :
    ValueFor depth v.compact v := by
  induction depth generalizing v with
  | zero => exact scalar_compact h
  | succ depth ih =>
    cases v with
    | null => exact .inl (scalar_compact trivial)
    | bool b => exact .inl (scalar_compact trivial)
    | int n => exact .inl (scalar_compact h)
    | real t => exact .inl (scalar_compact h)
    | str s => exact .inl (scalar_compact trivial)
    | arr vs =>
      refine .inr ?_
      by_cases hvs : vs = []
      · subst hvs
        exact .noElements gap_nil
      · exact .elements (series_compactList hvs fun v hv => ih (h v hv))
    | obj ms =>
      refine .inr ?_
      by_cases hms : ms = []
      · subst hms
        exact .noMembers gap_nil
      · exact .members (series_compactMembers hms fun m hm => ih (h m hm))

/-- **What is written is read back.** -/
theorem read?_compact {v : Json} (h : Writable maxDepth v) : read? v.compact = some v :=
  read?_of_document (element_of (valueFor_compact h))

end TaskCapture.Json
