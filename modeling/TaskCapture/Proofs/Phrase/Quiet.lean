import TaskCapture.Proofs.Phrase.EitherOrder
import TaskCapture.Proofs.Text.SmallLetters

/-!
Words that begin no phrase: they have no digit and are none of those that dates and times begin
with. What follows such words is read as if it stood alone.
-/

namespace TaskCapture

open Text

/-! ### Texts without digits -/

namespace Text

/-- No digit comes of a character that is not that digit. -/
lemma eq_of_mem_lowerChar {c d : Char} (h : d ∈ lowerChar c) (hd : isAsciiDigit d = true) :
    d = c := by
  have hsmall : d.toNat ≤ 57 := by
    simp only [isAsciiDigit, Bool.and_eq_true, decide_eq_true_eq] at hd
    exact hd.2
  unfold lowerChar at h
  split_ifs at h with hlt h130
  · have hall : ∀ n < 128, isAsciiDigit (Char.ofNat n).toLower = true →
        (Char.ofNat n).toLower = Char.ofNat n := by decide +kernel
    rw [List.mem_singleton] at h
    subst h
    simpa [hd] using hall c.toNat hlt
  · simp only [List.mem_cons, List.not_mem_nil, or_false] at h
    rcases h with rfl | rfl <;> exact absurd hd (by decide)
  · split at h
    · next r hr =>
      obtain rfl := List.mem_singleton.1 h
      have hh : r.holds c.toNat = true := by simpa using List.find?_some hr
      rcases settles_of_mem (List.mem_of_find?_eq_some hr) with hs | ⟨h1, h2, h3⟩
      · obtain ⟨hto, hle⟩ := CaseRange.toNat_of_settles hs hh
        omega
      · obtain ⟨hb1, hb2, -⟩ := CaseRange.holds_iff.1 hh
        rw [h3, show c.toNat = 0x212A by omega] at hd
        exact absurd hd (by decide)
    · exact List.mem_singleton.1 h

lemma mem_of_mem_lowerFrom {b : Bool} {t : Text} {d : Char} (h : d ∈ lowerFrom b t)
    (hd : isAsciiDigit d = true) : d ∈ t := by
  induction t generalizing b with
  | nil => cases h
  | cons c t ih =>
    rw [lowerFrom] at h
    rcases List.mem_append.1 h with h | h
    · split_ifs at h
      · rw [List.mem_singleton.1 h] at hd
        exact absurd hd (by decide)
      · rw [List.mem_singleton.1 h] at hd
        exact absurd hd (by decide)
      · exact eq_of_mem_lowerChar h hd ▸ List.mem_cons_self
    · exact List.mem_cons_of_mem c (ih h)

section

variable {t : Text} (ht : ∀ c ∈ t, isAsciiDigit c = false)

include ht

lemma takeWhile_isAsciiDigit_eq_nil : t.takeWhile isAsciiDigit = [] := by
  cases t with
  | nil => rfl
  | cons c t => rw [List.takeWhile_cons_of_neg (by simp [ht c (by simp)])]

lemma readNat_eq_none_of_no_digits (max : ℕ) : readNat max t = none := by
  have hdigits : ∀ r : Text, r ⊆ t → readDigits r = none := by
    intro r hr
    cases r with
    | nil => rfl
    | cons c r => exact readDigits_eq_none (ht c (hr (by simp))) (by simp)
  unfold readNat
  split
  · rw [hdigits _ (List.subset_cons_self _ _)]
    rfl
  · rw [hdigits _ (List.Subset.refl _)]
    rfl

end

end Text

namespace Calendar

variable {t : Text} (ht : ∀ c ∈ t, isAsciiDigit c = false)

include ht

lemma readField_eq_none_of_no_digits (width : ℕ) : readField width t = none := by
  have h : ∀ c ∈ (skipBlanks t).take width, isAsciiDigit c = false := fun c hc =>
    ht c ((List.dropWhile_sublist _).subset (List.mem_of_mem_take hc))
  simp [readField, takeWhile_isAsciiDigit_eq_nil h]

lemma readYear_eq_none_of_no_digits : readYear t = none := by
  have hs : ∀ c ∈ skipBlanks t, isAsciiDigit c = false := fun c hc =>
    ht c ((List.dropWhile_sublist _).subset hc)
  unfold readYear
  simp only
  split
  · next r he =>
    rw [takeWhile_isAsciiDigit_eq_nil fun c hc => hs c (by simp [he, hc])]
    rfl
  · next r he =>
    rw [takeWhile_isAsciiDigit_eq_nil fun c hc => hs c (by simp [he, hc])]
    rfl
  · rw [readField_eq_none_of_no_digits hs]
    rfl

lemma read?_eq_none_of_no_digits : Date.read? t = none := by
  rw [Date.read?, readYmd, readYear_eq_none_of_no_digits ht]
  rfl

end Calendar

namespace Phrase

/-! ### Quiet words -/

/-- The words that dates and times begin with, numbers in figures aside. Numbers in words, units and
the halves of the day only go on with a phrase. -/
def beginnings : List String :=
  "at" :: openings ++ ["noon", "midday", "midnight"] ++
    (List.finRange 7).flatMap weekdaySpellings ++ (List.range' 1 12).flatMap monthSpellings

/-- The word has no digit, and no date or time begins with it. -/
structure IsQuiet (w : Text) : Prop where
  digit : ∀ c ∈ w, isAsciiDigit c = false
  word : ∀ v ∈ beginnings, norm w ≠ v.toList

lemma isQuiet_iff {w : Text} : IsQuiet w ↔
    (w.all (!isAsciiDigit ·) && beginnings.all (norm w != ·.toList)) = true := by
  simp only [Bool.and_eq_true, List.all_eq_true, Bool.not_eq_true', bne_iff_ne]
  exact ⟨fun ⟨h1, h2⟩ => ⟨h1, h2⟩, fun ⟨h1, h2⟩ => ⟨h1, h2⟩⟩

instance (w : Text) : Decidable (IsQuiet w) := decidable_of_iff _ isQuiet_iff.symm

lemma IsQuiet.digit_norm {w : Text} (h : IsQuiet w) : ∀ c ∈ norm w, isAsciiDigit c = false := by
  intro c hc
  by_contra hd
  have hd : isAsciiDigit c = true := by simpa using hd
  have hmem := mem_of_mem_lowerFrom hc hd
  rw [List.mem_reverse] at hmem
  rw [h.digit c (by simpa using (List.dropWhile_sublist _).subset hmem)] at hd
  cases hd

section

variable {w : Text} (hd : ∀ c ∈ w, isAsciiDigit c = false)

include hd

lemma twelveHour?_eq_none_of_no_digits (pm : Bool) : twelveHour? pm w = none := by
  have hnone : hourMinute? w = none := by
    unfold hourMinute?
    split
    · next a b hab =>
      obtain ⟨rfl, -⟩ := eq_append_of_splitOnce hab
      rw [readNat_eq_none_of_no_digits fun c hc => hd c (by simp [hc])]
      rfl
    · rw [readNat_eq_none_of_no_digits hd]
      rfl
  rw [twelveHour?, hnone]
  rfl

lemma twentyFourHour?_eq_none_of_no_digits : twentyFourHour? w = none := by
  unfold twentyFourHour?
  cases hab : splitOnce ':' w with
  | none => rfl
  | some ab =>
    obtain ⟨a, b⟩ := ab
    obtain ⟨rfl, -⟩ := eq_append_of_splitOnce hab
    simp [readNat_eq_none_of_no_digits (t := a) fun c hc => hd c (by simp [hc])]

lemma clockWord?_eq_none_of_no_digits (hw : meaning clockWords w = none) : clockWord? w = none := by
  unfold clockWord?
  rw [hw]
  cases ham : dropEnding? "am".toList w with
  | some r =>
    obtain rfl := eq_append_of_dropEnding? ham
    exact twelveHour?_eq_none_of_no_digits (fun c hc => hd c (by simp [hc])) false
  | none =>
    cases hpm : dropEnding? "pm".toList w with
    | some r =>
      obtain rfl := eq_append_of_dropEnding? hpm
      exact twelveHour?_eq_none_of_no_digits (fun c hc => hd c (by simp [hc])) true
    | none => exact twentyFourHour?_eq_none_of_no_digits hd

/-- An hour is missing before a half of the day that is a word of its own, too. -/
lemma bareClock?_eq_none_of_no_digits (hw : meaning clockWords w = none) (ws : List Text) :
    bareClock? (w :: ws) = none := by
  rw [bareClock?.eq_def]
  simp only [clockWord?_eq_none_of_no_digits hd hw]
  cases ws with
  | nil => rfl
  | cons half ws =>
    simp only [ite_eq_right_iff, Option.map_eq_none_iff, and_imp]
    rintro (rfl | rfl) -
    · exact (clockWord?_append_halfWord w false).trans (twelveHour?_eq_none_of_no_digits hd false)
    · exact (clockWord?_append_halfWord w true).trans (twelveHour?_eq_none_of_no_digits hd true)

lemma slashDay?_eq_none_of_no_digits (today : Date) : slashDay? today w = none := by
  have hfirst : ∀ m ms, splitAll '/' w = m :: ms → readNat maxWord m = none := by
    intro m ms he
    refine readNat_eq_none_of_no_digits (fun c hc => hd c ?_) maxWord
    rw [← intercalate_splitAll '/' w, he]
    cases ms <;> simp [List.intercalate, hc]
  unfold slashDay?
  split
  · next m d he => simp [hfirst m [d] he]
  · next m d y he => simp [hfirst m [d, y] he]
  · rfl

end

/-- **A quiet word begins no phrase**, whatever follows it. -/
theorem IsQuiet.reading?_eq_none {w : Text} (h : IsQuiet w) (ref : Instant) (ws : List Text) :
    reading? ref (norm w :: ws) = none := by
  have hdigit := h.digit_norm
  have hword : ∀ v ∈ beginnings, norm w ≠ v.toList := h.word
  generalize norm w = v at hdigit hword
  have htable : ∀ {α : Type} (table : List (String × α)), table.map (·.1) ⊆ beginnings →
      meaning table v = none := by
    intro α table ht
    rw [meaning, Option.map_eq_none_iff, List.find?_eq_none]
    intro e he
    simpa using (hword e.1 (ht (List.mem_map_of_mem he))).symm
  have hclock : clock? (v :: ws) = none := by
    rw [clock?, if_neg (hword "at" (by simp [beginnings]))]
    exact bareClock?_eq_none_of_no_digits hdigit (htable _ (by decide)) ws
  have hday : day? ref (v :: ws) = none := by
    rw [day?_eq_plainDay? fun o ho => hword o (by simp [beginnings, ho]), plainDay?,
      htable weekdayWords (by decide), Calendar.read?_eq_none_of_no_digits hdigit,
      slashDay?_eq_none_of_no_digits hdigit, htable monthWords (by decide)]
    rfl
  simp [reading?, hclock, hday]

/-- The words before the first phrase are passed over. -/
lemma first?_append_of_isQuiet {us : List Text} (hu : ∀ w ∈ us, IsQuiet w) (ref : Instant)
    (ws : List Text) :
    first? ref (us.map norm ++ ws) = (first? ref ws).map fun p => (us.length + p.1, p.2) := by
  induction us with
  | nil => simp
  | cons u us ih =>
    rw [List.map_cons, List.cons_append, first?, (hu u (by simp)).reading?_eq_none,
      ih fun w hw => hu w (by simp [hw])]
    simp only [Option.map_map]
    congr 1
    funext p
    have hk : us.length + p.1 + 1 = us.length + 1 + p.1 := by omega
    simp [hk]

end Phrase

/-! ### What follows them -/

namespace Text

lemma placed_add (n k : ℕ) (t : Text) :
    placed (n + k) t = (placed k t).map fun p => ⟨n + p.start, p.text⟩ := by
  induction t generalizing k with
  | nil => rfl
  | cons c t ih =>
    rw [placed, placed, Nat.add_assoc, ih]
    split_ifs
    · rfl
    · cases placed (k + c.utf8Size) t <;> rfl
    · rfl

/-- Past a blank the words of a text are those of what follows, so many bytes further on. -/
lemma placed_append {a : Text} (ha : ∀ c ∈ a.getLast?, isBlank c = true) (t : Text) :
    placed 0 (a ++ t) =
      placed 0 a ++ (placed 0 t).map fun p => ⟨byteSize a + p.start, p.text⟩ := by
  rw [← placed_add]
  rcases List.eq_nil_or_concat' a with rfl | ⟨a, c, rfl⟩
  · rfl
  · have hc : isBlank c = true := ha c (by simp)
    rw [List.append_assoc, List.singleton_append, placed_append_blank hc, placed_append_blank hc]
    simp [placed]

lemma getElem?_placed_append {a : Text} (ha : ∀ c ∈ a.getLast?, isBlank c = true) (t : Text)
    (j : ℕ) : (placed 0 (a ++ t))[(words a).length + j]? =
      ((placed 0 t)[j]?).map fun p => ⟨byteSize a + p.start, p.text⟩ := by
  have hlen : (words a).length = (placed 0 a).length := by
    rw [← map_text_placed 0 a, List.length_map]
  rw [placed_append ha, hlen, List.getElem?_append_right (Nat.le_add_right _ _),
    Nat.add_sub_cancel_left, List.getElem?_map]

end Text

/-- The same date, so many bytes further on. -/
def DateMatch.shift (n : ℕ) (m : DateMatch) : DateMatch :=
  ⟨⟨n + m.span.start, n + m.span.stop⟩, m.instant, m.hasTime⟩

/-- **After quiet words a text is read as it is read alone.** -/
theorem Resolver.english_append_of_isQuiet {a : Text} (ha : ∀ c ∈ a.getLast?, isBlank c = true)
    (hq : ∀ w ∈ words a, Phrase.IsQuiet w) (t : Text) (ref : Instant) :
    english (a ++ t) ref = (english t ref).map (·.shift (byteSize a)) := by
  unfold english
  simp only [map_norm_placed]
  rw [endsApart_of_getLast? ha, List.map_append, Phrase.first?_append_of_isQuiet hq]
  cases hf : Phrase.first? ref ((words t).map Phrase.norm) with
  | none => rfl
  | some kr =>
    obtain ⟨k, r⟩ := kr
    have hused := (Phrase.extent_of_inWords? hf).1
    have hlast : (words a).length + k + r.used - 1 = (words a).length + (k + r.used - 1) := by omega
    simp only [Option.map_some, Option.bind_eq_bind, Option.bind_some, hlast,
      getElem?_placed_append ha]
    cases (placed 0 t)[k]? with
    | none => rfl
    | some head =>
      cases (placed 0 t)[k + r.used - 1]? with
      | none => rfl
      | some last => simp [DateMatch.shift, Placed.stop, Nat.add_assoc]

/-- A phrase at the end of a text, with nothing but quiet words before it. -/
lemma Resolver.english_append_of_whole {a e : Text} (ha : ∀ c ∈ a.getLast?, isBlank c = true)
    (hq : ∀ w ∈ words a, Phrase.IsQuiet w) (he : Trimmed e) {ref i : Instant} {b : Bool}
    (hr : Phrase.reading? ref ((words e).map Phrase.norm) = some ⟨i, b, (words e).length⟩) :
    english (a ++ e) ref = some ⟨⟨byteSize a, byteSize (a ++ e)⟩, i, b⟩ := by
  rw [english_append_of_isQuiet ha hq, english_of_whole he hr rfl]
  simp [DateMatch.shift]

end TaskCapture
