import TaskCapture.Proofs.Json.Grammar

/-!
Every text of the grammar is read, and read as what it stands for. A number has no mark at its end,
so what follows a value must not go on with it.
-/

namespace TaskCapture.Json

open Text

/-! ### Gaps -/

@[simp] lemma gap_nil : Gap [] := by simp [Gap]

lemma skipGap_of_head? {t : Text} (h : ∀ c ∈ t.head?, isGap c = false) : skipGap t = t := by
  cases t with
  | nil => rfl
  | cons c t => rw [skipGap, List.dropWhile_cons_of_neg (by simp [h c (by simp)])]

lemma skipGap_cons {c : Char} (h : isGap c = false) (t : Text) : skipGap (c :: t) = c :: t :=
  skipGap_of_head? (by simpa using h)

lemma skipGap_append {g : Text} (h : Gap g) (t : Text) : skipGap (g ++ t) = skipGap t := by
  rw [skipGap, List.dropWhile_append_of_pos h]
  rfl

lemma skipGap_skipGap (t : Text) : skipGap (skipGap t) = skipGap t := by
  refine skipGap_of_head? fun c hc => ?_
  have := List.head?_dropWhile_not isGap t
  rw [skipGap, Option.mem_def] at hc
  rwa [hc] at this

lemma skipWord_append (w r : Text) : skipWord w (w ++ r) = some r := by
  rw [skipWord, if_pos (by simp), List.drop_left]

/-! ### Strings -/

lemma readHex_append {t r : Text} {ds : List ℕ} (acc : ℕ) (h : t.map hexValue? = ds.map some) :
    readHex acc t.length (t ++ r) = some (ds.foldl (16 * · + ·) acc, r) := by
  induction t generalizing acc ds with
  | nil =>
    obtain rfl : ds = [] := by simpa using h.symm
    rfl
  | cons c t ih =>
    cases ds with
    | nil => simp at h
    | cons d ds =>
      rw [List.map_cons, List.map_cons, List.cons.injEq] at h
      rw [List.cons_append, List.length_cons, readHex, h.1, Option.bind_some, ih _ h.2]
      rfl

lemma HexFor.readHex {t : Text} {n : ℕ} (h : HexFor t n) (r : Text) :
    readHex 0 4 (t ++ r) = some (n, r) := by
  obtain ⟨ds, hds, rfl⟩ := h.exists_digits
  rw [← h.length_eq, readHex_append 0 hds]

/-- The letters after which an escape is looked up are those of the table. -/
lemma lookup_of_mem {e c : Char} (h : (e, c) ∈ shortEscapes) :
    e ≠ 'u' ∧ e ≠ '/' ∧ shortEscapes.lookup e = some c := by
  have hall : ∀ p ∈ shortEscapes, p.1 ≠ 'u' ∧ p.1 ≠ '/' ∧ shortEscapes.lookup p.1 = some p.2 := by
    decide
  exact hall (e, c) h

lemma HexFor.readUnicode {t : Text} {n : ℕ} (h : HexFor t n) (hn : n < 0xD800 ∨ 0xE000 ≤ n)
    (r : Text) : readUnicode (t ++ r) = some (Char.ofNat n, r) := by
  simp only [Json.readUnicode, h.readHex, Option.bind_eq_bind, Option.bind_some]
  rw [if_neg (by omega), if_neg (by omega)]
  rfl

lemma HexFor.readUnicode_halves {s t : Text} {m n : ℕ} (hs : HexFor s m) (ht : HexFor t n)
    (hm : 0xD800 ≤ m ∧ m < 0xDC00) (hn : 0xDC00 ≤ n ∧ n < 0xE000) (r : Text) :
    Json.readUnicode (s ++ '\\' :: 'u' :: t ++ r) =
      some (Char.ofNat (0x10000 + 0x400 * (m - 0xD800) + (n - 0xDC00)), r) := by
  have hu : skipWord ['\\', 'u'] ('\\' :: 'u' :: (t ++ r)) = some (t ++ r) := skipWord_append _ _
  rw [List.append_assoc, List.cons_append, List.cons_append]
  simp only [Json.readUnicode, hs.readHex, Option.bind_eq_bind, Option.bind_some]
  rw [if_pos hm, hu]
  simp only [Option.bind_some, ht.readHex]
  rw [if_pos hn]
  rfl

lemma CharFor.readChar {t : Text} {c : Char} (h : CharFor t c) (r : Text) :
    readChar (t ++ r) = some (c, r) := by
  cases h with
  | plain hquote hslash hc => simp [Json.readChar, hquote, hslash, Nat.not_lt.2 hc]
  | short he =>
    obtain ⟨hu, hs, hl⟩ := lookup_of_mem he
    simp [Json.readChar, hu, hs, hl]
  | slash => simp [Json.readChar]
  | hex ht hn =>
    rw [List.cons_append, List.cons_append, Json.readChar, if_pos rfl]
    exact ht.readUnicode hn r
  | halves hs ht hm hn =>
    rw [List.cons_append, List.cons_append, List.cons_append, List.cons_append, Json.readChar,
      if_pos rfl]
    exact hs.readUnicode_halves ht hm hn r

/-- What reads as a character does not begin with the closing quote. -/
lemma readChars_of_readChar {t r : Text} {c : Char} (h : readChar t = some (c, r)) (fuel : ℕ) :
    readChars (fuel + 1) t = (readChars fuel r).map fun (cs, r) => (c :: cs, r) := by
  rw [readChars]
  · simp only [h, Option.bind_eq_bind, Option.bind_some]
    cases readChars fuel r <;> rfl
  · rintro u rfl
    simp [readChar] at h

lemma CharsFor.readChars {t s : Text} (h : CharsFor t s) (r : Text) {fuel : ℕ}
    (hf : s.length < fuel) : readChars fuel (t ++ '"' :: r) = some (s, r) := by
  induction h generalizing fuel with
  | nil =>
    cases fuel with
    | zero => simp at hf
    | succ fuel => rfl
  | cons hc h ih =>
    cases fuel with
    | zero => omega
    | succ fuel =>
      rw [List.append_assoc, readChars_of_readChar (hc.readChar _),
        ih (by simpa using hf)]
      rfl

lemma CharFor.length_pos {t : Text} {c : Char} (h : CharFor t c) : 0 < t.length := by
  cases h <;> simp

lemma CharsFor.length_le {t s : Text} (h : CharsFor t s) : s.length ≤ t.length := by
  induction h with
  | nil => rfl
  | cons hc h ih =>
    have hpos := hc.length_pos
    rw [List.length_append, List.length_cons]
    omega

/-- A string is read from after its opening quote. -/
lemma StringFor.exists_readString {t s : Text} (h : StringFor t s) :
    ∃ u, t = '"' :: u ∧ ∀ r, readString (u ++ r) = some (s, r) := by
  obtain ⟨h⟩ := h
  refine ⟨_, rfl, fun r => ?_⟩
  have hle := h.length_le
  rw [List.append_eq, List.append_assoc, List.singleton_append, readString]
  refine h.readChars r ?_
  rw [List.length_append]
  omega

/-! ### Numbers -/

/-- The text does not begin with a digit. -/
def NoDigit (t : Text) : Prop := ∀ c ∈ t.head?, isAsciiDigit c = false

/-- The text does not go on with a number that ends before it. -/
def Closed (t : Text) : Prop :=
  ∀ c ∈ t.head?, isAsciiDigit c = false ∧ c ≠ '.' ∧ c ≠ 'e' ∧ c ≠ 'E'

lemma Closed.noDigit {t : Text} (h : Closed t) : NoDigit t := fun c hc => (h c hc).1

lemma Digits.takeWhile_append {ds t : Text} (h : Digits ds) (ht : NoDigit t) :
    (ds ++ t).takeWhile isAsciiDigit = ds := by
  rw [List.takeWhile_append_of_pos h.2]
  cases t with
  | nil => simp
  | cons c t => rw [List.takeWhile_cons_of_neg (by simp [ht c (by simp)]), List.append_nil]

lemma Digits.isEmpty_eq {ds : Text} (h : Digits ds) : ds.isEmpty = false := by
  simpa using h.1

lemma readWhole_append {w t : Text} (h : Whole w) (ht : NoDigit t) :
    readWhole (w ++ t) = some (w, t) := by
  have hzero : (w.length ≠ 1 && w.head? == some '0') = false := by
    by_cases h0 : w.head? = some '0'
    · simp [h.eq_zero h0]
    · simp [h0]
  simp only [readWhole, h.digits.takeWhile_append ht, h.digits.isEmpty_eq, List.drop_left]
  rw [Bool.false_or, hzero]
  rfl

lemma readFraction_append {f ds t : Text} (h : Fraction f ds) (ht : NoDigit t)
    (hpoint : '.' ∉ t.head?) : readFraction (f ++ t) = some (ds, t) := by
  cases h with
  | none =>
    rw [List.nil_append, readFraction]
    rintro r rfl
    simp at hpoint
  | some h =>
    rw [List.cons_append, readFraction]
    simp [h.takeWhile_append ht, h.isEmpty_eq]

/-- A sign may stand before the digits of an exponent, and its value counts. -/
lemma readExponent_append {e t : Text} {x : Option ℤ} (h : Exponent e x) (ht : Closed t) :
    readExponent (e ++ t) = some (x, t) := by
  cases h with
  | none =>
    rw [List.nil_append, readExponent.eq_def]
    cases t with
    | nil => rfl
    | cons c t =>
      obtain ⟨-, -, h1, h2⟩ := ht c (by simp)
      exact if_neg (by simp [h1, h2])
  | @some c s ds z he hs hd =>
    have hw := hd.takeWhile_append ht.noDigit
    rw [List.append_assoc, List.cons_append, readExponent.eq_def]
    simp only [if_pos he]
    cases hs with
    | none =>
      -- the first digit is no sign
      have hsign : ∀ c ∈ (ds ++ t).head?, isAsciiDigit c = true := by
        intro c hc
        rw [List.head?_append_of_ne_nil _ hd.1] at hc
        exact hd.2 c (List.mem_of_mem_head? hc)
      rw [List.nil_append]
      split
      · next hcons => exact absurd (hsign '+' (by simp [hcons])) (by decide)
      · next hcons => exact absurd (hsign '-' (by simp [hcons])) (by decide)
      · simp [hw, hd.isEmpty_eq]
    | plus => simp [hw, hd.isEmpty_eq]
    | minus => simp [hw, hd.isEmpty_eq]

lemma Exponent.head?_append {e r : Text} {x : Option ℤ} (h : Exponent e x) (hr : Closed r) :
    ∀ c ∈ (e ++ r).head?, isAsciiDigit c = false ∧ c ≠ '.' := by
  intro c hc
  cases h with
  | none => exact ⟨(hr c hc).1, (hr c hc).2.1⟩
  | some he =>
    obtain rfl := Option.mem_some_iff.1 hc
    rcases he with rfl | rfl <;> decide

lemma Fraction.noDigit_append {f ds t : Text} (h : Fraction f ds) (ht : NoDigit t) :
    NoDigit (f ++ t) := by
  cases h with
  | none => exact ht
  | some h =>
    intro c hc
    obtain rfl := Option.mem_some_iff.1 hc
    decide

/-- A number begins with a digit or a minus sign. -/
lemma Number.exists_cons {t : Text} {v : Json} (h : Number t v) :
    ∃ c u, t = c :: u ∧ (c = '-' ∨ isAsciiDigit c = true) := by
  obtain ⟨hw, -, -, -⟩ := h
  rename_i neg w f ds e x
  obtain ⟨d, w, rfl⟩ := List.exists_cons_of_ne_nil hw.digits.1
  cases neg with
  | true => exact ⟨'-', _, rfl, .inl rfl⟩
  | false => exact ⟨d, _, rfl, .inr (hw.digits.2 d (by simp))⟩

lemma readNumber_append {t r : Text} {v : Json} (h : Number t v) (hr : Closed r) :
    readNumber (t ++ r) = some (v, r) := by
  obtain @⟨neg, w, f, ds, e, x, hw, hf, he, hrange⟩ := h
  have hex := he.head?_append hr
  have hnodigit : NoDigit (e ++ r) := fun c hc => (hex c hc).1
  have hpoint : '.' ∉ (e ++ r).head? := fun h => (hex '.' h).2 rfl
  have hspelling : (minus neg ++ w ++ f ++ e ++ r).take
      ((minus neg ++ w ++ f ++ e ++ r).length - r.length) = minus neg ++ w ++ f ++ e := by
    rw [List.length_append, Nat.add_sub_cancel, List.take_left]
  unfold readNumber
  split
  next neg' u hsign =>
    have hparts : (neg', u) = (neg, w ++ (f ++ (e ++ r))) := by
      rw [← hsign]
      cases neg with
      | true => simp [minus]
      | false =>
        -- the first digit is no sign
        obtain ⟨d, w, rfl⟩ := List.exists_cons_of_ne_nil hw.digits.1
        have hd := hw.digits.2 d (by simp)
        split
        · next hcons =>
          obtain rfl : d = '-' := by simpa [minus] using (List.cons.inj hcons).1
          exact absurd hd (by decide)
        · simp [minus]
    cases hparts
    simp only [readWhole_append hw (hf.noDigit_append hnodigit), Option.bind_eq_bind,
      Option.bind_some, readFraction_append hf hnodigit hpoint, readExponent_append he hr, hrange,
      hspelling, numberValue, Bool.not_true, Bool.false_eq_true, ↓reduceIte]
    split_ifs <;> rfl

/-! ### Values without parts -/

lemma readValue_quote (depth : ℕ) (r : Text) :
    readValue depth ('"' :: r) = (readString r).map fun (s, r) => (.str s, r) := by
  cases depth <;> rfl

lemma readValue_number {c : Char} (hc : c = '-' ∨ isAsciiDigit c = true) (depth : ℕ) (r : Text) :
    readValue depth (c :: r) = readNumber (c :: r) := by
  have hne : ∀ d, d ≠ '-' → isAsciiDigit d = false → c ≠ d := by
    rintro d hd hdigit rfl
    rcases hc with rfl | hc
    · exact hd rfl
    · rw [hdigit] at hc
      cases hc
  rw [readValue.eq_def]
  simp only
  split <;> next h => first
    | rfl
    | exact absurd (List.cons.inj h).1 (hne _ (by decide) (by decide))
    | cases h

lemma Scalar.readValue {t r : Text} {v : Json} (h : Scalar t v) (hr : Closed r) (depth : ℕ) :
    readValue depth (t ++ r) = some (v, r) := by
  cases h with
  | null =>
    have hword := skipWord_append "ull".toList r
    rw [readValue.eq_def]
    simpa using hword
  | true =>
    have hword := skipWord_append "rue".toList r
    rw [readValue.eq_def]
    simpa using hword
  | false =>
    have hword := skipWord_append "alse".toList r
    rw [readValue.eq_def]
    simpa using hword
  | number h =>
    obtain ⟨c, u, rfl, hc⟩ := h.exists_cons
    rw [List.cons_append, readValue_number hc, ← List.cons_append, readNumber_append h hr]
  | string h =>
    obtain ⟨u, rfl, hu⟩ := h.exists_readString
    rw [List.cons_append, readValue_quote, hu]
    rfl

/-! ### Series -/

/-- The text begins, behind a gap, with something else than `close`. -/
def OpensApart (close : Char) (t : Text) : Prop := ∃ c u, skipGap t = c :: u ∧ c ≠ close

lemma OpensApart.skipGap_append {close : Char} {t : Text} (h : OpensApart close t) (s : Text) :
    skipGap (t ++ s) = skipGap t ++ s := by
  obtain ⟨c, u, hu, -⟩ := h
  unfold skipGap at hu ⊢
  rw [List.dropWhile_append, if_neg (by simp [hu])]

/-- A series opens as its first item does, and is no shorter than the list of its items. -/
lemma Series.opensApart {α : Type} {Item : Text → α → Prop} {close : Char} {t : Text} {as : List α}
    (hitem : ∀ t a, Item t a → OpensApart close t) (h : Series Item t as) :
    OpensApart close t ∧ as.length ≤ (skipGap t).length := by
  induction h with
  | one ha =>
    obtain ⟨c, u, hu, hc⟩ := hitem _ _ ha
    exact ⟨⟨c, u, hu, hc⟩, by simp [hu]⟩
  | @cons s t a as ha h ih =>
    have hopen := hitem _ _ ha
    have hskip := hopen.skipGap_append (',' :: t)
    have hle : (skipGap t).length ≤ t.length := (List.dropWhile_suffix _).length_le
    obtain ⟨c, u, hu, hc⟩ := hopen
    refine ⟨⟨c, u ++ ',' :: t, by rw [hskip, hu, List.cons_append], hc⟩, ?_⟩
    rw [hskip, hu]
    simp only [List.length_cons, List.length_append]
    omega

section Parts

variable {P : Text → Json → Prop} {item : Text → Option (Json × Text)}

/-- The reader reads what is written according to `P`, and leaves the rest of the text. -/
def Reads (P : Text → Json → Prop) (item : Text → Option (Json × Text)) : Prop :=
  ∀ t v, P t v → ∀ r, Closed r → item (t ++ r) = some (v, r)

lemma closed_append {g r : Text} (hg : Gap g) (hr : Closed r) : Closed (g ++ r) := by
  intro d hd
  cases g with
  | nil => exact hr d hd
  | cons b g =>
    obtain rfl := Option.mem_some_iff.1 hd
    have hb : isGap b = true := hg b (by simp)
    simp only [isGap, Bool.or_eq_true, beq_iff_eq] at hb
    rcases hb with ((rfl | rfl) | rfl) | rfl <;> decide

/-- What comes after a value in a list or an object. -/
def EndsItem (c : Char) : Prop := c = ',' ∨ c = ']' ∨ c = '\x7d'

lemma EndsItem.closed {c : Char} (h : EndsItem c) (r : Text) : Closed (c :: r) := by
  intro d hd
  obtain rfl := Option.mem_some_iff.1 hd
  rcases h with rfl | rfl | rfl <;> decide

lemma EndsItem.skipGap_cons {c : Char} (h : EndsItem c) (r : Text) : skipGap (c :: r) = c :: r := by
  rcases h with rfl | rfl | rfl <;> exact Json.skipGap_cons (by decide) r

/-- What is written according to `P` begins with neither a blank nor the end of a list. -/
def OpensValues (P : Text → Json → Prop) : Prop :=
  ∀ t v, P t v → ∃ c u, t = c :: u ∧ isGap c = false ∧ c ≠ ']'

/-- An element is read up to the mark that closes it, a comma or a bracket. -/
lemma Element.read {t : Text} {v : Json} (h : Element P t v) (hread : Reads P item)
    (hopens : OpensValues P) {c : Char} (hc : EndsItem c) (r : Text) :
    ∃ u, item (skipGap (t ++ c :: r)) = some (v, u) ∧ skipGap u = c :: r := by
  obtain @⟨g, s, g', v, hg, hv, hg'⟩ := h
  obtain ⟨d, u, hs, hd, -⟩ := hopens s v hv
  have hskip : skipGap (g ++ s ++ g' ++ c :: r) = s ++ (g' ++ c :: r) := by
    rw [List.append_assoc, List.append_assoc, skipGap_append hg, hs, List.cons_append,
      skipGap_cons hd]
  refine ⟨g' ++ c :: r, by rw [hskip, hread s v hv _ (closed_append hg' (hc.closed r))], ?_⟩
  rw [skipGap_append hg', hc.skipGap_cons]

lemma Element.opensApart {t : Text} {v : Json} (h : Element P t v) (hopens : OpensValues P) :
    OpensApart ']' t := by
  obtain @⟨g, s, g', v, hg, hv, hg'⟩ := h
  obtain ⟨d, u, rfl, hd, hne⟩ := hopens s v hv
  exact ⟨d, u ++ g', by rw [List.append_assoc, skipGap_append hg, List.cons_append,
    skipGap_cons hd], hne⟩

lemma Member.opensApart {t : Text} {m : Text × Json} (h : Member P t m) : OpensApart '\x7d' t := by
  obtain @⟨g, s, g', t, name, v, hg, hs, hg', h⟩ := h
  obtain ⟨u, rfl, -⟩ := hs.exists_readString
  exact ⟨'"', u ++ g' ++ ':' :: t, by rw [List.append_assoc, List.append_assoc, skipGap_append hg,
    List.cons_append, skipGap_cons (by decide), List.append_assoc], by decide⟩

lemma readElements_skipGap (fuel : ℕ) (t : Text) :
    readElements item fuel (skipGap t) = readElements item fuel t := by
  cases fuel with
  | zero => rfl
  | succ fuel => rw [readElements, readElements, skipGap_skipGap]

lemma readMembers_skipGap (fuel : ℕ) (t : Text) :
    readMembers item fuel (skipGap t) = readMembers item fuel t := by
  cases fuel with
  | zero => rfl
  | succ fuel => rw [readMembers, readMembers, skipGap_skipGap]

lemma readElements_append {t : Text} {vs : List Json} (h : Series (Element P) t vs)
    (hread : Reads P item) (hopens : OpensValues P) (r : Text) {fuel : ℕ} (hf : vs.length ≤ fuel) :
    readElements item fuel (t ++ ']' :: r) = some (vs, r) := by
  induction h generalizing fuel with
  | one hv =>
    obtain ⟨u, hu, hskip⟩ := hv.read hread hopens (.inr (.inl rfl)) r
    cases fuel with
    | zero => simp at hf
    | succ fuel => simp [readElements, hu, hskip]
  | @cons s t v vs hv h ih =>
    obtain ⟨u, hu, hskip⟩ := hv.read hread hopens (.inl rfl) (t ++ ']' :: r)
    cases fuel with
    | zero => simp at hf
    | succ fuel =>
      have hrest := ih (show vs.length ≤ fuel by simpa using hf)
      rw [List.append_assoc, List.cons_append]
      simp [readElements, hu, hskip, hrest]

/-- The name of a member is read before its value. -/
lemma Member.read {t : Text} {m : Text × Json} (h : Member P t m) (hread : Reads P item)
    (hopens : OpensValues P) {c : Char} (hc : EndsItem c) (r : Text) :
    ∃ s x u, skipWord ['"'] (skipGap (t ++ c :: r)) = some s ∧ readString s = some (m.1, x) ∧
      (∃ y, skipWord [':'] (skipGap x) = some y ∧ item (skipGap y) = some (m.2, u)) ∧
        skipGap u = c :: r := by
  obtain @⟨g, s, g', t, name, v, hg, hs, hg', h⟩ := h
  obtain ⟨s, rfl, hstring⟩ := hs.exists_readString
  obtain ⟨u, hu, hskip⟩ := h.read hread hopens hc r
  have hopen : skipGap (g ++ '"' :: s ++ g' ++ ':' :: t ++ c :: r) =
      '"' :: (s ++ (g' ++ ':' :: (t ++ c :: r))) := by
    simp only [List.append_assoc, List.cons_append]
    rw [skipGap_append hg, skipGap_cons (by decide)]
  refine ⟨s ++ (g' ++ ':' :: (t ++ c :: r)), g' ++ ':' :: (t ++ c :: r), u, ?_, hstring _,
    ⟨t ++ c :: r, ?_, hu⟩, hskip⟩
  · rw [hopen]
    exact skipWord_append ['"'] _
  · rw [skipGap_append hg', skipGap_cons (by decide)]
    exact skipWord_append [':'] _

lemma readMembers_append {t : Text} {ms : List (Text × Json)} (h : Series (Member P) t ms)
    (hread : Reads P item) (hopens : OpensValues P) (r : Text) {fuel : ℕ} (hf : ms.length ≤ fuel) :
    readMembers item fuel (t ++ '\x7d' :: r) = some (ms, r) := by
  induction h generalizing fuel with
  | one hm =>
    obtain ⟨s, x, u, h1, h2, ⟨y, h3, h4⟩, hskip⟩ := hm.read hread hopens (.inr (.inr rfl)) r
    cases fuel with
    | zero => simp at hf
    | succ fuel => simp [readMembers, h1, h2, h3, h4, hskip]
  | @cons s t m ms hm h ih =>
    obtain ⟨s', x, u, h1, h2, ⟨y, h3, h4⟩, hskip⟩ :=
      hm.read hread hopens (.inl rfl) (t ++ '\x7d' :: r)
    cases fuel with
    | zero => simp at hf
    | succ fuel =>
      have hrest := ih (show ms.length ≤ fuel by simpa using hf)
      rw [List.append_assoc, List.cons_append]
      simp [readMembers, h1, h2, h3, h4, hskip, hrest]

end Parts

/-! ### Values -/

lemma opensValues_scalar : OpensValues Scalar := by
  intro t v h
  cases h with
  | null => exact ⟨'n', _, rfl, by decide, by decide⟩
  | true => exact ⟨'t', _, rfl, by decide, by decide⟩
  | false => exact ⟨'f', _, rfl, by decide, by decide⟩
  | number h =>
    obtain ⟨c, u, rfl, hc⟩ := h.exists_cons
    refine ⟨c, u, rfl, ?_, ?_⟩
    · by_contra hgap
      simp only [isGap, Bool.not_eq_false, Bool.or_eq_true, beq_iff_eq] at hgap
      rcases hgap with ((rfl | rfl) | rfl) | rfl <;> exact absurd hc (by decide)
    · rintro rfl
      exact absurd hc (by decide)
  | string h =>
    obtain ⟨u, rfl, -⟩ := h.exists_readString
    exact ⟨'"', u, rfl, by decide, by decide⟩

lemma opensValues_valueFor (depth : ℕ) : OpensValues (ValueFor depth) := by
  intro t v h
  cases depth with
  | zero => exact opensValues_scalar t v h
  | succ depth =>
    rcases h with h | h
    · exact opensValues_scalar t v h
    · cases h with
      | noElements => exact ⟨'[', _, rfl, by decide, by decide⟩
      | elements => exact ⟨'[', _, rfl, by decide, by decide⟩
      | noMembers => exact ⟨'\x7b', _, rfl, by decide, by decide⟩
      | members => exact ⟨'\x7b', _, rfl, by decide, by decide⟩

lemma Nested.readValue {depth : ℕ} (hread : Reads (ValueFor depth) (readValue depth)) {t : Text}
    {v : Json} (h : Nested (ValueFor depth) t v) (r : Text) :
    readValue (depth + 1) (t ++ r) = some (v, r) := by
  have hopens := opensValues_valueFor depth
  cases h with
  | @noElements g hg =>
    have hskip : skipGap (g ++ ']' :: r) = ']' :: r := by
      rw [skipGap_append hg, skipGap_cons (by decide)]
    rw [List.append_assoc, List.cons_append, List.singleton_append, Json.readValue.eq_def]
    simp only [hskip]
  | @elements t vs h =>
    obtain ⟨hopen, hlen⟩ := h.opensApart fun t v he => he.opensApart hopens
    have hskip := hopen.skipGap_append (']' :: r)
    have hfuel : vs.length ≤ (skipGap (t ++ ']' :: r)).length + 1 := by
      rw [hskip, List.length_append]
      omega
    have helements := readElements_append h hread hopens r hfuel
    rw [← readElements_skipGap] at helements
    rw [List.append_assoc, List.cons_append, List.singleton_append, Json.readValue.eq_def]
    simp only
    split
    · next s hs =>
      obtain ⟨c, u, hu, hc⟩ := hopen
      rw [hskip, hu] at hs
      exact absurd (List.cons.inj hs).1 hc
    · rw [helements]
      rfl
  | @noMembers g hg =>
    have hskip : skipGap (g ++ '\x7d' :: r) = '\x7d' :: r := by
      rw [skipGap_append hg, skipGap_cons (by decide)]
    rw [List.append_assoc, List.cons_append, List.singleton_append, Json.readValue.eq_def]
    simp only [hskip]
  | @members t ms h =>
    obtain ⟨hopen, hlen⟩ := h.opensApart fun t m hm => hm.opensApart
    have hskip := hopen.skipGap_append ('\x7d' :: r)
    have hfuel : ms.length ≤ (skipGap (t ++ '\x7d' :: r)).length + 1 := by
      rw [hskip, List.length_append]
      omega
    have hmembers := readMembers_append h hread hopens r hfuel
    rw [← readMembers_skipGap] at hmembers
    rw [List.append_assoc, List.cons_append, List.singleton_append, Json.readValue.eq_def]
    simp only
    split
    · next s hs =>
      obtain ⟨c, u, hu, hc⟩ := hopen
      rw [hskip, hu] at hs
      exact absurd (List.cons.inj hs).1 hc
    · rw [hmembers]
      rfl

/-- **A value is read at every depth that its nesting allows.** -/
theorem reads_valueFor (depth : ℕ) : Reads (ValueFor depth) (readValue depth) := by
  induction depth with
  | zero => exact fun t v h r hr => Scalar.readValue h hr 0
  | succ depth ih =>
    rintro t v (h | h) r hr
    · exact h.readValue hr (depth + 1)
    · exact h.readValue ih r

/-- **Every JSON text is read as the value it stands for.** -/
theorem read?_of_document {t : Text} {v : Json} (h : Document t v) : read? t = some v := by
  obtain @⟨g, s, g', v, hg, hv, hg'⟩ := h
  obtain ⟨c, u, hs, hc, -⟩ := opensValues_valueFor maxDepth s v hv
  have hclosed : Closed g' := by
    simpa using closed_append hg' (r := []) (by simp [Closed])
  have hrest : skipGap g' = [] := List.dropWhile_eq_nil_iff.2 hg'
  have hskip : skipGap (g ++ s ++ g') = s ++ g' := by
    rw [List.append_assoc, skipGap_append hg, hs, List.cons_append, skipGap_cons hc]
  rw [read?, hskip, reads_valueFor maxDepth s v hv g' hclosed]
  simp [hrest]

end TaskCapture.Json
