import TaskCapture.Proofs.Phrase.ForwardInstant

/-!
Times of day as they are spelled: `noon`, `14:30`, `2pm`, `2:30pm`. Each of these words is read as
the time that it spells, and a word that is read as a time is one of these, if its numbers are
written plainly.
-/

namespace TaskCapture

open Text

/-- The clock shows an hour of twelve on one half of the day, on a full minute. -/
structure Clock.Shows (c : Clock) (n : ℕ) (pm : Bool) : Prop where
  hour_mem : 1 ≤ n ∧ n ≤ 12
  hour_mod : c.hour % 12 = n % 12
  half : pm = true ↔ 12 ≤ c.hour
  second : c.second = 0

lemma Clock.shows_iff {c : Clock} {n : ℕ} {pm : Bool} : c.Shows n pm ↔
    (1 ≤ n ∧ n ≤ 12) ∧ c.hour = (n % 12 + if pm then 12 else 0) ∧ c.second = 0 := by
  have hlt := c.hour_lt
  constructor
  · rintro ⟨hn, hmod, hhalf, hs⟩
    refine ⟨hn, ?_, hs⟩
    cases pm <;> simp at hhalf ⊢ <;> omega
  · rintro ⟨hn, hhour, hs⟩
    refine ⟨hn, ?_, ?_, hs⟩
    all_goals cases pm <;> simp at hhour ⊢ <;> omega

namespace Phrase

/-- The word for a half of the day. -/
def halfWord (pm : Bool) : Text := (if pm then "pm" else "am").toList

/-- An hour of twelve, with two digits of minutes or without. -/
inductive HalfDay (pm : Bool) : Text → Clock → Prop where
  | hour {h : Text} {n : ℕ} {c : Clock} (hh : Figures h n) (hc : c.Shows n pm) (hm : c.minute = 0) :
    HalfDay pm h c
  | minute {h m : Text} {n : ℕ} {c : Clock} (hh : Figures h n) (hc : c.Shows n pm)
    (hm : Figures m c.minute) (hlen : m.length = 2) : HalfDay pm (h ++ ':' :: m) c

/-- A time of day that is spelled as one word. -/
inductive TimeWord : Text → Clock → Prop where
  | named {s : String} {c : Clock} (h : s ∈ clockSpellings c) : TimeWord s.toList c
  | full {h m : Text} {c : Clock} (hh : Figures h c.hour) (hhlen : h.length ≤ 2)
    (hm : Figures m c.minute) (hmlen : m.length = 2) (hs : c.second = 0) :
    TimeWord (h ++ ':' :: m) c
  | half {pm : Bool} {r : Text} {c : Clock} (h : HalfDay pm r c) : TimeWord (r ++ halfWord pm) c

/-- The numbers in a word are written plainly: there is no plus sign, hyphens stand in a date of
four, two and two digits only, and two digits follow a colon. -/
structure IsPlain (w : Text) : Prop where
  plus : '+' ∉ w
  hyphen : '-' ∈ w → (w.map fun c => if isAsciiDigit c then '0' else c) = "0000-00-00".toList
  colon : ∀ a b, w = a ++ ':' :: b → ':' ∉ a → (b.takeWhile isAsciiDigit).length = 2

lemma isPlain_iff {w : Text} : IsPlain w ↔ '+' ∉ w ∧
    ('-' ∈ w → (w.map fun c => if isAsciiDigit c then '0' else c) = "0000-00-00".toList) ∧
      (splitOnce ':' w).all (fun ab => (ab.2.takeWhile isAsciiDigit).length = 2) = true := by
  constructor
  · rintro ⟨hplus, hhyphen, hcolon⟩
    refine ⟨hplus, hhyphen, ?_⟩
    cases h : splitOnce ':' w with
    | none => rfl
    | some ab =>
      obtain ⟨hw, ha⟩ := eq_append_of_splitOnce h
      simpa using hcolon _ _ hw ha
  · rintro ⟨hplus, hhyphen, hcolon⟩
    refine ⟨hplus, hhyphen, ?_⟩
    rintro a b rfl ha
    simpa [splitOnce_append ha] using hcolon

instance (w : Text) : Decidable (IsPlain w) := decidable_of_iff _ isPlain_iff.symm

/-! ### They are read -/

variable {w r : Text} {c : Clock} {pm : Bool}

lemma clockWord?_append_halfWord (r : Text) (pm : Bool) :
    clockWord? (r ++ halfWord pm) = twelveHour? pm r := by
  have hword : meaning clockWords (r ++ halfWord pm) = none := by
    cases hm : meaning clockWords (r ++ halfWord pm) with
    | none => rfl
    | some c =>
      have hno := of_meaning (p := fun w => !(halfWord pm).isSuffixOf w) hm
        (by cases pm <;> decide)
      simp [List.isSuffixOf_iff_suffix.2 (List.suffix_append r (halfWord pm))] at hno
  unfold clockWord?
  rw [hword]
  cases pm with
  | false => simp only [show halfWord false = "am".toList from rfl, dropEnding?_append]
  | true =>
    simp only [show halfWord true = "pm".toList from rfl, dropEnding?_append,
      dropEnding?_append_of_ne (v := "am".toList) (w := "pm".toList) rfl (by decide)]

/-- A word with a colon and no letters is read as a time of 24 hours. -/
lemma clockWord?_of_colon (hcolon : ':' ∈ w) (hm : 'm' ∉ w) :
    clockWord? w = twentyFourHour? w := by
  unfold clockWord?
  rw [meaning_eq_none hcolon (by decide), dropEnding?_of_not_mem (c := 'm') (by decide) hm,
    dropEnding?_of_not_mem (c := 'm') (by decide) hm]

lemma HalfDay.twelveHour? (h : HalfDay pm r c) : twelveHour? pm r = some c := by
  have htime {n : ℕ} (hc : c.Shows n pm) : (if 1 ≤ n ∧ n ≤ 12 then
      Clock.ofHms? (n % 12 + if pm then 12 else 0) c.minute 0 else none) = some c := by
    obtain ⟨hn, hhour, hs⟩ := Clock.shows_iff.1 hc
    rw [if_pos hn]
    exact Clock.ofHms?_eq_some_iff.2 ⟨hhour, rfl, hs⟩
  have hsmall {k : ℕ} (hk : k < 60) : k ≤ maxWord := le_trans hk.le (by decide)
  cases h with
  | hour hh hc hm =>
    have hn := hc.hour_mem
    have htime := htime hc
    rw [hm] at htime
    simpa [Phrase.twelveHour?, hourMinute?, splitOnce_eq_none (hh.not_mem (c := ':') (by decide)),
      hh.readNat (hsmall (by omega))] using htime
  | @minute h m n c hh hc hm _ =>
    have hn := hc.hour_mem
    have hmin := c.minute_lt
    simpa [Phrase.twelveHour?, hourMinute?, splitOnce_append (hh.not_mem (c := ':') (by decide)),
      hh.readNat (hsmall (show n < 60 by omega)), hm.readNat (hsmall hmin)] using htime hc

/-- **A time that is spelled is read.** -/
theorem TimeWord.clockWord? (h : TimeWord w c) : clockWord? w = some c := by
  cases h with
  | named h =>
    unfold Phrase.clockWord?
    rw [clockWords_agrees.meaning h]
  | @full h m c hh hhlen hm hmlen hs =>
    have hno : 'm' ∉ h ++ ':' :: m := by
      simp [hh.not_mem (c := 'm') (by decide), hm.not_mem (c := 'm') (by decide)]
    have hhour := c.hour_lt
    have hmin := c.minute_lt
    rw [clockWord?_of_colon (by simp) hno]
    have htime : Clock.ofHms? c.hour c.minute 0 = some c :=
      Clock.ofHms?_eq_some_iff.2 ⟨rfl, rfl, hs⟩
    simp [twentyFourHour?, splitOnce_append (hh.not_mem (c := ':') (by decide)), hh.ne_nil,
      not_lt.2 hhlen, hmlen, hh.readNat (le_trans hhour.le (by decide) : c.hour ≤ maxWord),
      hm.readNat (le_trans hmin.le (by decide) : c.minute ≤ maxWord), htime]
  | half h => rw [clockWord?_append_halfWord, h.twelveHour?]

/-! ### No other word is -/

lemma IsPlain.length_minutes {a b s : Text} (hw : IsPlain (a ++ ':' :: b ++ s)) (ha : ':' ∉ a)
    (hb : ∀ c ∈ b, isAsciiDigit c = true) (hs : s.takeWhile isAsciiDigit = []) : b.length = 2 := by
  have h := hw.colon a (b ++ s) (by simp) ha
  rwa [List.takeWhile_append_of_pos hb, hs, List.append_nil] at h

lemma halfDay_of_twelveHour? {s : Text} (h : twelveHour? pm r = some c) (hw : IsPlain (r ++ s))
    (hs : s.takeWhile isAsciiDigit = []) : HalfDay pm r c := by
  have hplus : '+' ∉ r := fun hm => hw.plus (List.mem_append_left _ hm)
  obtain ⟨⟨n, k⟩, hnk, h⟩ := Option.bind_eq_some_iff.1 h
  obtain ⟨hn, h⟩ := Option.ite_none_right_eq_some.1 h
  obtain ⟨hhour, hmin, hsec⟩ := Clock.ofHms?_eq_some_iff.1 h
  have hshows : c.Shows n pm := Clock.shows_iff.2 ⟨hn, hhour, hsec⟩
  unfold hourMinute? at hnk
  cases hsplit : splitOnce ':' r with
  | none =>
    rw [hsplit] at hnk
    obtain ⟨n', hn', he⟩ := Option.map_eq_some_iff.1 hnk
    cases he
    exact .hour (figures_of_readNat hn' hplus) hshows hmin
  | some ab =>
    obtain ⟨a, b⟩ := ab
    obtain ⟨rfl, ha⟩ := eq_append_of_splitOnce hsplit
    simp only [hsplit, Option.bind_eq_bind, Option.bind_eq_some_iff, Option.pure_def,
      Option.some.injEq, Prod.mk.injEq] at hnk
    obtain ⟨n', hn', k', hk', rfl, rfl⟩ := hnk
    have hb := figures_of_readNat hk' fun hm => hplus (by simp [hm])
    refine .minute (figures_of_readNat hn' fun hm => hplus (by simp [hm])) hshows (hmin ▸ hb) ?_
    exact hw.length_minutes ha hb.digits hs

/-- **A plain word that is read as a time spells one.** -/
theorem timeWord_of_clockWord? (h : clockWord? w = some c) (hw : IsPlain w) : TimeWord w c := by
  unfold Phrase.clockWord? at h
  cases hm : meaning clockWords w with
  | some c' =>
    rw [hm] at h
    cases h
    obtain ⟨s, hs, rfl⟩ := clockWords_agrees.meaning_eq_some_iff.1 hm
    exact .named hs
  | none =>
    simp only [hm] at h
    cases ham : dropEnding? "am".toList w with
    | some r =>
      rw [ham] at h
      obtain rfl := eq_append_of_dropEnding? ham
      exact @TimeWord.half false _ _ (halfDay_of_twelveHour? h hw rfl)
    | none =>
      simp only [ham] at h
      cases hpm : dropEnding? "pm".toList w with
      | some r =>
        rw [hpm] at h
        obtain rfl := eq_append_of_dropEnding? hpm
        exact @TimeWord.half true _ _ (halfDay_of_twelveHour? h hw rfl)
      | none =>
        simp only [hpm] at h
        obtain ⟨⟨a, b⟩, hab, htime⟩ := Option.bind_eq_some_iff.1 h
        obtain ⟨rfl, -⟩ := eq_append_of_splitOnce hab
        obtain ⟨hlen, htime⟩ := Option.ite_none_left_eq_some.1 htime
        simp only [Option.bind_eq_bind, Option.bind_eq_some_iff] at htime
        obtain ⟨n, hn, k, hk, htime⟩ := htime
        obtain ⟨rfl, rfl, hs⟩ := Clock.ofHms?_eq_some_iff.1 htime
        simp only [not_or, not_lt, not_not] at hlen
        exact .full (figures_of_readNat hn fun hm => hw.plus (by simp [hm])) hlen.2.1
          (figures_of_readNat hk fun hm => hw.plus (by simp [hm])) hlen.2.2 hs

end Phrase

end TaskCapture
