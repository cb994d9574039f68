import TaskCapture.Proofs.Capture.Tokens

/-!
A phrase alone. The words that a phrase takes up mean the same when the words after them are left
off, so a match is read from the text that it covers.
-/

namespace TaskCapture

open Text

namespace Phrase

variable {us vs : List Text}

/-! ### Times -/

lemma bareClock?_of_append {c : Clock} {n : ℕ} (h : bareClock? (us ++ vs) = some (c, n))
    (hn : n ≤ us.length) : bareClock? us = some (c, n) := by
  have hpos := (used_of_bareClock? h).1
  match us with
  | [] =>
    rw [List.length_nil] at hn
    omega
  | [w] =>
    rw [List.singleton_append, bareClock?.eq_def] at h
    rw [bareClock?.eq_def]
    simp only at h ⊢
    cases hw : clockWord? w with
    | some c' =>
      rw [hw] at h
      exact h
    | none =>
      -- a second word would be one too many
      rw [hw] at h
      cases vs with
      | nil => exact h
      | cons v vs =>
        simp only at h
        split_ifs at h
        obtain ⟨_, -, he⟩ := Option.map_eq_some_iff.1 h
        cases he
        simp at hn
  | w :: v :: us => exact h

lemma clock?_of_append {c : Clock} {n : ℕ} (h : clock? (us ++ vs) = some (c, n))
    (hn : n ≤ us.length) : clock? us = some (c, n) := by
  have hpos := (used_of_clock? h).1
  cases us with
  | nil =>
    rw [List.length_nil] at hn
    omega
  | cons w us =>
    rw [List.cons_append, clock?] at h
    rw [clock?]
    split_ifs at h ⊢ with hat
    · obtain ⟨⟨c', m⟩, hm, he⟩ := Option.map_eq_some_iff.1 h
      cases he
      rw [bareClock?_of_append hm (by simpa using hn)]
      rfl
    · rw [← List.cons_append] at h
      exact bareClock?_of_append h hn

lemma bareClock?_append {c : Clock} {n : ℕ} (h : bareClock? us = some (c, n)) (vs : List Text) :
    bareClock? (us ++ vs) = some (c, n) := by
  match us with
  | [] => cases h
  | [w] =>
    rw [bareClock?.eq_def] at h
    rw [List.singleton_append, bareClock?.eq_def]
    simp only at h ⊢
    cases hw : clockWord? w with
    | some c' =>
      rw [hw] at h
      exact h
    | none =>
      rw [hw] at h
      cases h
  | w :: v :: us => exact h

lemma clock?_append {c : Clock} {n : ℕ} (h : clock? us = some (c, n)) (vs : List Text) :
    clock? (us ++ vs) = some (c, n) := by
  cases us with
  | nil => cases h
  | cons w us =>
    rw [clock?] at h
    rw [List.cons_append, clock?]
    split_ifs at h ⊢ with hat
    · obtain ⟨⟨c', m⟩, hm, he⟩ := Option.map_eq_some_iff.1 h
      cases he
      rw [bareClock?_append hm]
      rfl
    · exact bareClock?_append h vs

/-- Where no time begins the words, none begins the first of them. -/
lemma clock?_eq_none_of_append (h : clock? (us ++ vs) = none) : clock? us = none := by
  cases hu : clock? us with
  | none => rfl
  | some x =>
    rw [clock?_append (c := x.1) (n := x.2) hu] at h
    cases h

/-! ### Days -/

/-- What the second word says is said also where it is the last. -/
lemma head?_bind_of_append {β : Type} {f : Text → Option β} {b : β} (hu : us ≠ [])
    (h : (us ++ vs).head?.bind f = some b) : us.head?.bind f = some b := by
  obtain ⟨w, ws, rfl⟩ := List.exists_cons_of_ne_nil hu
  exact h

lemma head?_bind_eq_none_of_append {β : Type} {f : Text → Option β}
    (h : (us ++ vs).head?.bind f = none) : us.head?.bind f = none := by
  cases us with
  | nil => rfl
  | cons w us => exact h

lemma amount?_of_append {n m : ℕ} {u : TimeUnit} (h : amount? (us ++ vs) = some (n, u, m))
    (hm : m ≤ us.length) (hu : us ≠ []) : amount? us = some (n, u, m) := by
  match us with
  | [] => exact absurd rfl hu
  | [w] =>
    rw [List.singleton_append, amount?] at h
    rw [amount?]
    cases hn : number? w with
    | none =>
      rw [hn] at h
      exact h
    | some k =>
      rw [hn] at h
      cases hv : vs.head?.bind (meaning unitWords) with
      | none =>
        rw [hv] at h
        exact h
      | some u' =>
        -- the unit would be a word too many
        rw [hv] at h
        cases h
        simp at hm
  | w :: v :: us => exact h

lemma afterMonth?_of_append {today : Date} {m : ℕ} {hit : DayHit}
    (h : afterMonth? today m (us ++ vs) = some hit) (hn : hit.used ≤ us.length + 1) :
    afterMonth? today m us = some hit := by
  have hus : us ≠ [] := by
    rintro rfl
    have := (used_of_afterMonth? h).1
    rw [List.length_nil] at hn
    omega
  obtain ⟨w, us, rfl⟩ := List.exists_cons_of_ne_nil hus
  rw [List.cons_append, afterMonth?] at h
  rw [afterMonth?]
  simp only [Option.bind_eq_bind, Option.bind_eq_some_iff] at h ⊢
  obtain ⟨d, hd, h⟩ := h
  refine ⟨d, hd, ?_⟩
  cases hy : (us ++ vs).head?.bind year? with
  | some y =>
    rw [hy] at h
    obtain ⟨e, -, rfl⟩ := Option.map_eq_some_iff.1 h
    have hus : us ≠ [] := by
      rintro rfl
      simp at hn
    rw [head?_bind_of_append hus hy]
    exact h
  | none =>
    rw [hy] at h
    rwa [head?_bind_eq_none_of_append hy]

lemma plainDay?_of_append {today : Date} {w : Text} {hit : DayHit}
    (h : plainDay? today w (us ++ vs) = some hit) (hn : hit.used ≤ us.length + 1) :
    plainDay? today w us = some hit := by
  unfold plainDay? at h ⊢
  simp only at h ⊢
  split at h
  · exact h
  · split at h
    · exact h
    · obtain ⟨m, hm, h⟩ := Option.bind_eq_some_iff.1 h
      exact Option.bind_eq_some_iff.2 ⟨m, hm, afterMonth?_of_append h hn⟩

lemma day?_of_append {ref : Instant} {hit : DayHit} (h : day? ref (us ++ vs) = some hit)
    (hn : hit.used ≤ us.length) : day? ref us = some hit := by
  have hpos := (used_of_day? h).1
  cases us with
  | nil =>
    rw [List.length_nil] at hn
    omega
  | cons w us =>
    -- a phrase of two words has its second one here
    have htwo : 2 ≤ hit.used → us ≠ [] := by
      rintro h2 rfl
      simp at hn
      omega
    rw [List.cons_append, day?] at h
    rw [day?]
    simp only at h ⊢
    split_ifs at h ⊢ with htoday htomorrow hnext hthis hin
    · exact h
    · exact h
    · obtain ⟨d, hd, rfl⟩ := Option.map_eq_some_iff.1 h
      rw [head?_bind_of_append (htwo le_rfl) hd]
      rfl
    · obtain ⟨d, hd, rfl⟩ := Option.map_eq_some_iff.1 h
      obtain ⟨wd, hwd, hd⟩ := Option.bind_eq_some_iff.1 hd
      rw [head?_bind_of_append (htwo le_rfl) hwd, Option.bind_some, hd]
      rfl
    · obtain ⟨⟨n, u, m⟩, hm, hh⟩ := Option.bind_eq_some_iff.1 h
      have hused : hit.used = m + 1 := used_of_ahead? hh
      rw [hused] at htwo hn
      have hus : us ≠ [] := htwo (by have := (used_of_amount? hm).1; omega)
      rw [amount?_of_append hm (by simpa using hn) hus]
      exact hh
    · exact plainDay?_of_append h hn

/-- **A phrase is read from its own words.** -/
theorem reading?_of_append {ref : Instant} {r : Reading} (h : reading? ref (us ++ vs) = some r)
    (hn : r.used = us.length) : reading? ref us = some r := by
  unfold reading? at h ⊢
  cases hc : clock? (us ++ vs) with
  | some cn =>
    obtain ⟨c, n⟩ := cn
    simp only [hc] at h
    cases hd : day? ref ((us ++ vs).drop n) with
    | some hit =>
      rw [hd] at h
      cases h
      simp only at hn
      rw [List.drop_append_of_le_length (by omega)] at hd
      rw [clock?_of_append hc (by omega)]
      simp only [day?_of_append hd (by rw [List.length_drop]; omega)]
    | none =>
      -- the words end with the time, and no day follows them
      rw [hd] at h
      obtain ⟨d, hd', rfl⟩ := Option.map_eq_some_iff.1 h
      simp only at hn
      rw [clock?_of_append hc hn.le]
      simp only [hn, List.drop_length, day?, hd', Option.map_some]
  | none =>
    simp only [hc] at h
    simp only [clock?_eq_none_of_append hc]
    obtain ⟨hit, hd, rfl⟩ := Option.map_eq_some_iff.1 h
    rw [Option.map_eq_some_iff]
    cases ht : hit.time with
    | some c =>
      simp only [ht] at hn ⊢
      exact ⟨hit, day?_of_append hd hn.le, by simp only [ht]⟩
    | none =>
      simp only [ht] at hn ⊢
      cases hc' : clock? ((us ++ vs).drop hit.used) with
      | some cn =>
        obtain ⟨c, n⟩ := cn
        simp only [hc'] at hn ⊢
        rw [List.drop_append_of_le_length (by omega)] at hc'
        refine ⟨hit, day?_of_append hd (by omega), ?_⟩
        rw [ht]
        simp only [clock?_of_append hc' (by rw [List.length_drop]; omega)]
      | none =>
        simp only [hc'] at hn ⊢
        refine ⟨hit, day?_of_append hd hn.le, ?_⟩
        rw [ht]
        simp only [hn, List.drop_length, clock?]

end Phrase

/-- **A match covers a part of the text** and is read from the words of that part alone. -/
theorem Resolver.exists_cut_of_english {ref : Instant} {t : Text} {m : DateMatch}
    (h : english t ref = some m) :
    ∃ a x b r, t = a ++ x ++ b ∧
      m = ⟨⟨byteSize a, byteSize (a ++ x)⟩, r.instant, r.hasTime⟩ ∧
        Phrase.reading? ref ((words x).map Phrase.norm) = some r ∧ r.used = (words x).length := by
  have hforward := forward_english t ref m h
  cases hw : Phrase.inWords? ref (words t) with
  | none =>
    rw [english_of_none hw] at h
    cases h
  | some kr =>
    obtain ⟨k, r⟩ := kr
    obtain ⟨hpos, hle⟩ := Phrase.extent_of_inWords? hw
    obtain ⟨-, hr, -⟩ := Phrase.inWords?_eq_some_iff.1 hw
    obtain ⟨head, last, hhead, hlast, he⟩ := english_of_some hw
    obtain rfl : ⟨⟨head.start, last.stop⟩, r.instant, r.hasTime⟩ = m := by simpa [he] using h
    obtain ⟨a, x, b, rfl, hstart, hstop, hx⟩ := exists_between_placed hhead hlast hforward
    have hwords : words x = ((words (a ++ x ++ b)).drop k).take r.used := by
      rw [show k + r.used - 1 + 1 = k + r.used by omega, List.take_add] at hx
      exact List.append_cancel_left hx
    rw [← List.take_append_drop r.used ((words (a ++ x ++ b)).drop k), ← hwords, List.map_append]
      at hr
    have hused : r.used = (words x).length := by
      rw [hwords, List.length_take, List.length_drop]
      omega
    refine ⟨a, x, b, r, rfl, by rw [hstart, hstop], ?_, hused⟩
    exact Phrase.reading?_of_append hr (by rw [hused, List.length_map])

end TaskCapture
