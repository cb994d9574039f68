import TaskCapture.Proofs.Json.ReadBack

/-!
What is read is a text of the grammar: each reader takes from the start of a text what stands for
the thing that it gives, and leaves the rest. With the converse, the JSON texts are just those that
are read (`document_iff`).
-/

namespace TaskCapture.Json

open Text

/-- What the reader takes from a text is written according to `P`. -/
def Sound {α : Type} (P : Text → α → Prop) (item : Text → Option (α × Text)) : Prop :=
  ∀ t a r, item t = some (a, r) → ∃ s, t = s ++ r ∧ P s a

lemma exists_gap (t : Text) : ∃ g, Gap g ∧ t = g ++ skipGap t :=
  ⟨t.takeWhile isGap, fun _ hc => List.mem_takeWhile_imp hc, List.takeWhile_append_dropWhile.symm⟩

lemma eq_append_of_skipWord {w t r : Text} (h : skipWord w t = some r) : t = w ++ r := by
  unfold skipWord at h
  split_ifs at h with hw
  obtain ⟨s, rfl⟩ := List.isPrefixOf_iff_prefix.1 hw
  rw [List.drop_left, Option.some.injEq] at h
  rw [h]

/-! ### Strings -/

lemma exists_of_readHex {acc count n : ℕ} {t r : Text} (h : readHex acc count t = some (n, r)) :
    ∃ (s : Text) (ds : List ℕ), t = s ++ r ∧ s.length = count ∧ s.map hexValue? = ds.map some ∧
      n = ds.foldl (16 * · + ·) acc := by
  induction count generalizing acc t with
  | zero =>
    cases h
    exact ⟨[], [], rfl, rfl, rfl, rfl⟩
  | succ count ih =>
    cases t with
    | nil => cases h
    | cons c t =>
      obtain ⟨d, hd, h⟩ := Option.bind_eq_some_iff.1 h
      obtain ⟨s, ds, rfl, hlen, hmap, rfl⟩ := ih h
      exact ⟨c :: s, d :: ds, rfl, by rw [List.length_cons, hlen],
        by rw [List.map_cons, List.map_cons, hd, hmap], rfl⟩

lemma sound_readHex : Sound HexFor (readHex 0 4) := by
  intro t n r h
  obtain ⟨s, ds, rfl, hlen, hmap, rfl⟩ := exists_of_readHex h
  exact ⟨s, rfl, hlen, ds, hmap, rfl⟩

/-- The first half of a character asks for the second. -/
lemma sound_readUnicode : Sound (fun s c => CharFor ('\\' :: 'u' :: s) c) readUnicode := by
  intro t c r h
  obtain ⟨⟨n, u⟩, hn, hrest⟩ := Option.bind_eq_some_iff.1 h
  simp only at hrest
  obtain ⟨s, rfl, hs⟩ := sound_readHex t n u hn
  split_ifs at hrest with hhigh hlow
  · obtain ⟨u', hu, hrest⟩ := Option.bind_eq_some_iff.1 hrest
    obtain ⟨⟨m, w⟩, hm, hrest⟩ := Option.bind_eq_some_iff.1 hrest
    simp only at hrest
    split_ifs at hrest with hrange
    simp only [Option.pure_def, Option.some.injEq, Prod.mk.injEq] at hrest
    obtain ⟨rfl, rfl⟩ := hrest
    obtain ⟨s', rfl, hs'⟩ := sound_readHex u' m w hm
    rw [eq_append_of_skipWord hu]
    exact ⟨s ++ '\\' :: 'u' :: s', by simp, .halves hs hs' hhigh hrange⟩
  · cases hrest
    exact ⟨s, rfl, .hex hs (by omega)⟩

lemma mem_of_lookup {e c : Char} (h : shortEscapes.lookup e = some c) : (e, c) ∈ shortEscapes := by
  obtain ⟨l₁, l₂, hl, -⟩ := List.lookup_eq_some_iff.1 h
  simp [hl]

lemma sound_readChar : Sound CharFor readChar := by
  intro t c r h
  unfold readChar at h
  split at h
  · cases h
  · cases h
  · next e u =>
    split_ifs at h with hu hs
    · obtain ⟨s, rfl, hs⟩ := sound_readUnicode u c r h
      exact ⟨'\\' :: 'u' :: s, by simp [hu], hs⟩
    · cases h
      exact ⟨['\\', '/'], by simp [hs], .slash⟩
    · obtain ⟨d, hd, h⟩ := Option.map_eq_some_iff.1 h
      cases h
      exact ⟨['\\', e], rfl, .short (mem_of_lookup hd)⟩
  · next d u hnil hcons =>
    split_ifs at h with hd
    cases h
    rw [not_or, Nat.not_lt] at hd
    refine ⟨[c], rfl, .plain hd.1 (fun hc => ?_) hd.2⟩
    cases r with
    | nil => exact hnil hc rfl
    | cons e r => exact hcons e r hc rfl

lemma exists_of_readChars {fuel : ℕ} {t r s : Text} (h : readChars fuel t = some (s, r)) :
    ∃ u, t = u ++ '"' :: r ∧ CharsFor u s := by
  induction fuel generalizing t s with
  | zero => cases h
  | succ fuel ih =>
    rw [readChars.eq_def] at h
    simp only at h
    split at h
    · cases h
      exact ⟨[], rfl, .nil⟩
    · obtain ⟨⟨c, u⟩, hc, h⟩ := Option.bind_eq_some_iff.1 h
      obtain ⟨⟨cs, w⟩, hcs, h⟩ := Option.bind_eq_some_iff.1 h
      cases h
      obtain ⟨s, rfl, hs⟩ := sound_readChar t c u hc
      obtain ⟨s', rfl, hs'⟩ := ih hcs
      exact ⟨s ++ s', (List.append_assoc ..).symm, .cons hs hs'⟩

/-- A string is read from after its opening quote. -/
lemma sound_readString : Sound (fun u s => StringFor ('"' :: u) s) readString := by
  intro t s r h
  obtain ⟨u, rfl, hu⟩ := exists_of_readChars h
  exact ⟨u ++ ['"'], by simp, .mk hu⟩

/-! ### Numbers -/

lemma digits_takeWhile {t : Text} (h : (t.takeWhile isAsciiDigit).isEmpty = false) :
    Digits (t.takeWhile isAsciiDigit) :=
  ⟨by simpa using h, fun _ hc => List.mem_takeWhile_imp hc⟩

lemma eq_takeWhile_append (t : Text) :
    t = t.takeWhile isAsciiDigit ++ t.drop (t.takeWhile isAsciiDigit).length :=
  (List.prefix_iff_eq_append.1 (List.takeWhile_prefix _)).symm

lemma sound_readWhole : Sound (fun s w => s = w ∧ Whole w) readWhole := by
  intro t w r h
  unfold readWhole at h
  simp only at h
  split_ifs at h with hzero
  cases h
  rw [Bool.or_eq_true, not_or, Bool.not_eq_true] at hzero
  refine ⟨_, eq_takeWhile_append t, rfl, digits_takeWhile hzero.1, fun hhead => ?_⟩
  have hlen : (t.takeWhile isAsciiDigit).length = 1 := by simpa [hhead] using hzero.2
  obtain ⟨c, hc⟩ := List.length_eq_one_iff.1 hlen
  rw [hc] at hhead ⊢
  rw [Option.some.inj hhead]

lemma sound_readFraction : Sound Fraction readFraction := by
  intro t ds r h
  unfold readFraction at h
  split at h
  · next u =>
    simp only at h
    split_ifs at h with hds
    cases h
    exact ⟨_, congrArg ('.' :: ·) (eq_takeWhile_append u),
      .some (digits_takeWhile (by simpa using hds))⟩
  · cases h
    exact ⟨[], rfl, .none⟩

lemma sound_readExponent : Sound Exponent readExponent := by
  intro t x r h
  unfold readExponent at h
  split at h
  · cases h
    exact ⟨[], rfl, .none⟩
  · next e u =>
    split_ifs at h with he
    · split at h
      next sign v hsign =>
        simp only at h
        split_ifs at h with hds
        cases h
        have hd := digits_takeWhile (t := v) (by simpa using hds)
        obtain ⟨s, hu, hs⟩ : ∃ s, u = s ++ v ∧ Sign s sign := by
          split at hsign
          · cases hsign
            exact ⟨['+'], rfl, .plus⟩
          · cases hsign
            exact ⟨['-'], rfl, .minus⟩
          · cases hsign
            exact ⟨[], rfl, .none⟩
        refine ⟨e :: s ++ v.takeWhile isAsciiDigit, ?_, .some he hs hd⟩
        rw [List.append_assoc, ← eq_takeWhile_append, hu, List.cons_append]
    · cases h
      exact ⟨[], rfl, .none⟩

lemma sound_readNumber : Sound Number readNumber := by
  intro t v r h
  unfold readNumber at h
  split at h
  next neg u hsign =>
    have ht : t = minus neg ++ u := by
      split at hsign <;> cases hsign <;> rfl
    obtain ⟨⟨w, u₁⟩, hw, h₁⟩ := Option.bind_eq_some_iff.1 h
    obtain ⟨⟨ds, u₂⟩, hf, h₂⟩ := Option.bind_eq_some_iff.1 h₁
    obtain ⟨⟨x, u₃⟩, he, h₃⟩ := Option.bind_eq_some_iff.1 h₂
    simp only at h₃
    cases hrange : (Scaled.ofDigits w ds (x.getD 0)).inRange with
    | false => simp [hrange] at h₃
    | true =>
      have hv :
          some (numberValue neg w ds x (t.take (t.length - u₃.length)), u₃) = some (v, r) := by
        rw [← h₃, hrange, numberValue]
        split_ifs <;> first | rfl | contradiction
      cases hv
      obtain ⟨w, hu, rfl, hwhole⟩ := sound_readWhole u w u₁ hw
      obtain ⟨f, rfl, hfraction⟩ := sound_readFraction u₁ ds u₂ hf
      obtain ⟨e, rfl, hexponent⟩ := sound_readExponent u₂ x r he
      have htext : t = minus neg ++ w ++ f ++ e ++ r := by simp [ht, hu]
      have hspelling : t.take (t.length - r.length) = minus neg ++ w ++ f ++ e := by
        rw [htext, List.length_append, Nat.add_sub_cancel, List.take_left]
      exact ⟨_, htext, hspelling ▸ .mk hwhole hfraction hexponent hrange⟩

/-! ### Series -/

section Parts

variable {P : Text → Json → Prop} {item : Text → Option (Json × Text)}

/-- An element with the gap before the mark that ends it. -/
lemma exists_element (hitem : Sound P item) {t u : Text} {v : Json}
    (h : item (skipGap t) = some (v, u)) : ∃ s, t = s ++ skipGap u ∧ Element P s v := by
  obtain ⟨g, hg, ht⟩ := exists_gap t
  obtain ⟨g', hg', hu⟩ := exists_gap u
  obtain ⟨s, hs, hv⟩ := hitem _ _ _ h
  refine ⟨g ++ s ++ g', ?_, .mk hg hv hg'⟩
  rw [ht, hs, List.append_assoc, List.append_assoc, ← hu]

lemma exists_of_readElements (hitem : Sound P item) {fuel : ℕ} {t r : Text} {vs : List Json}
    (h : readElements item fuel t = some (vs, r)) :
    ∃ s, t = s ++ ']' :: r ∧ Series (Element P) s vs := by
  induction fuel generalizing t vs with
  | zero => cases h
  | succ fuel ih =>
    obtain ⟨⟨v, u⟩, hv, hrest⟩ := Option.bind_eq_some_iff.1 h
    obtain ⟨s, ht, hs⟩ := exists_element hitem hv
    simp only at hrest
    split at hrest
    · next hu =>
      cases hrest
      exact ⟨s, by rw [ht, hu], .one hs⟩
    · next hu =>
      obtain ⟨⟨vs, u'⟩, hvs, he⟩ := Option.bind_eq_some_iff.1 hrest
      cases he
      obtain ⟨s', rfl, hs'⟩ := ih hvs
      exact ⟨s ++ ',' :: s', by rw [ht, hu, List.append_assoc, List.cons_append], .cons hs hs'⟩
    · cases hrest

/-- The name of a member comes before its value. -/
lemma exists_member (hitem : Sound P item) {t u x y z : Text} {name : Text} {v : Json}
    (hopen : skipWord ['"'] (skipGap t) = some x) (hname : readString x = some (name, y))
    (hcolon : skipWord [':'] (skipGap y) = some z) (hv : item (skipGap z) = some (v, u)) :
    ∃ s, t = s ++ skipGap u ∧ Member P s (name, v) := by
  obtain ⟨g, hg, ht⟩ := exists_gap t
  obtain ⟨g', hg', hy⟩ := exists_gap y
  obtain ⟨s, hx, hs⟩ := sound_readString x name y hname
  obtain ⟨e, hz, he⟩ := exists_element hitem hv
  refine ⟨g ++ '"' :: s ++ g' ++ ':' :: e, ?_, .mk hg hs hg' he⟩
  rw [ht, eq_append_of_skipWord hopen, hx, hy, eq_append_of_skipWord hcolon, hz]
  simp

lemma exists_of_readMembers (hitem : Sound P item) {fuel : ℕ} {t r : Text}
    {ms : List (Text × Json)} (h : readMembers item fuel t = some (ms, r)) :
    ∃ s, t = s ++ '\x7d' :: r ∧ Series (Member P) s ms := by
  induction fuel generalizing t ms with
  | zero => cases h
  | succ fuel ih =>
    obtain ⟨x, hopen, h₁⟩ := Option.bind_eq_some_iff.1 h
    obtain ⟨⟨name, y⟩, hname, h₂⟩ := Option.bind_eq_some_iff.1 h₁
    obtain ⟨z, hcolon, h₃⟩ := Option.bind_eq_some_iff.1 h₂
    obtain ⟨⟨v, u⟩, hv, hrest⟩ := Option.bind_eq_some_iff.1 h₃
    obtain ⟨s, ht, hs⟩ := exists_member hitem hopen hname hcolon hv
    simp only at hrest
    split at hrest
    · next hu =>
      cases hrest
      exact ⟨s, by rw [ht, hu], .one hs⟩
    · next hu =>
      obtain ⟨⟨ms, u'⟩, hms, he⟩ := Option.bind_eq_some_iff.1 hrest
      cases he
      obtain ⟨s', rfl, hs'⟩ := ih hms
      exact ⟨s ++ ',' :: s', by rw [ht, hu, List.append_assoc, List.cons_append], .cons hs hs'⟩
    · cases hrest

end Parts

/-! ### Values -/

/-- A value that does not begin as a list or an object has no parts. -/
lemma exists_scalar {depth : ℕ} {c : Char} (hlist : c ≠ '[') (hobj : c ≠ '\x7b') {t r : Text}
    {v : Json} (h : readValue depth (c :: t) = some (v, r)) :
    ∃ s, c :: t = s ++ r ∧ Scalar s v := by
  have hword : ∀ {w : Text} {a : Json}, (skipWord w t).map (a, ·) = some (v, r) →
      t = w ++ r ∧ a = v := by
    intro w a hw
    obtain ⟨u, hu, he⟩ := Option.map_eq_some_iff.1 hw
    cases he
    exact ⟨eq_append_of_skipWord hu, rfl⟩
  rw [readValue.eq_def] at h
  simp only at h
  split at h
  · cases ‹c :: t = []›
  · next hc =>
    cases hc
    obtain ⟨⟨s, u⟩, hs, he⟩ := Option.map_eq_some_iff.1 h
    cases he
    obtain ⟨q, rfl, hq⟩ := sound_readString _ s u hs
    exact ⟨'"' :: q, rfl, .string hq⟩
  · next hc =>
    exact absurd (List.cons.inj hc).1 hlist
  · next hc =>
    exact absurd (List.cons.inj hc).1 hobj
  · next hc =>
    cases hc
    obtain ⟨rfl, rfl⟩ := hword h
    exact ⟨_, rfl, .null⟩
  · next hc =>
    cases hc
    obtain ⟨rfl, rfl⟩ := hword h
    exact ⟨_, rfl, .true⟩
  · next hc =>
    cases hc
    obtain ⟨rfl, rfl⟩ := hword h
    exact ⟨_, rfl, .false⟩
  · obtain ⟨s, hs, hv⟩ := sound_readNumber _ _ _ h
    exact ⟨s, hs, .number hv⟩

section

variable {depth : ℕ} (hread : Sound (ValueFor depth) (readValue depth)) {t r : Text} {v : Json}
include hread

lemma exists_list (h : readValue (depth + 1) ('[' :: t) = some (v, r)) :
    ∃ s, '[' :: t = s ++ r ∧ Nested (ValueFor depth) s v := by
  rw [readValue.eq_def] at h
  simp only at h
  split at h
  · next hr =>
    cases h
    obtain ⟨g, hg, ht⟩ := exists_gap t
    refine ⟨'[' :: g ++ [']'], ?_, .noElements hg⟩
    rw [ht, hr]
    simp
  · obtain ⟨⟨vs, u⟩, hvs, he⟩ := Option.map_eq_some_iff.1 h
    cases he
    rw [readElements_skipGap] at hvs
    obtain ⟨s, rfl, hs⟩ := exists_of_readElements hread hvs
    exact ⟨'[' :: s ++ [']'], by simp, .elements hs⟩

lemma exists_object (h : readValue (depth + 1) ('\x7b' :: t) = some (v, r)) :
    ∃ s, '\x7b' :: t = s ++ r ∧ Nested (ValueFor depth) s v := by
  rw [readValue.eq_def] at h
  simp only at h
  split at h
  · next hr =>
    cases h
    obtain ⟨g, hg, ht⟩ := exists_gap t
    refine ⟨'\x7b' :: g ++ ['\x7d'], ?_, .noMembers hg⟩
    rw [ht, hr]
    simp
  · obtain ⟨⟨ms, u⟩, hms, he⟩ := Option.map_eq_some_iff.1 h
    cases he
    rw [readMembers_skipGap] at hms
    obtain ⟨s, rfl, hs⟩ := exists_of_readMembers hread hms
    exact ⟨'\x7b' :: s ++ ['\x7d'], by simp, .members hs⟩

end

/-- **What the reader takes for a value stands for it**, nested no deeper than allowed. -/
theorem sound_readValue (depth : ℕ) : Sound (ValueFor depth) (readValue depth) := by
  induction depth with
  | zero =>
    intro t v r h
    cases t with
    | nil => cases h
    | cons c t => exact exists_scalar (by rintro rfl; cases h) (by rintro rfl; cases h) h
  | succ depth ih =>
    intro t v r h
    cases t with
    | nil => cases h
    | cons c t =>
      by_cases hlist : c = '['
      · subst hlist
        obtain ⟨s, hs, hv⟩ := exists_list ih h
        exact ⟨s, hs, .inr hv⟩
      · by_cases hobj : c = '\x7b'
        · subst hobj
          obtain ⟨s, hs, hv⟩ := exists_object ih h
          exact ⟨s, hs, .inr hv⟩
        · obtain ⟨s, hs, hv⟩ := exists_scalar hlist hobj h
          exact ⟨s, hs, .inl hv⟩

/-- **The JSON texts are just those that are read**, each as the one value it stands for. -/
theorem document_iff {t : Text} {v : Json} : Document t v ↔ read? t = some v := by
  refine ⟨read?_of_document, fun h => ?_⟩
  unfold read? at h
  split at h
  · next w r hw =>
    split_ifs at h with hr
    cases h
    obtain ⟨s, rfl, hs⟩ := exists_element (sound_readValue maxDepth) hw
    rw [List.isEmpty_iff.1 hr, List.append_nil]
    exact hs
  · cases h

end TaskCapture.Json
