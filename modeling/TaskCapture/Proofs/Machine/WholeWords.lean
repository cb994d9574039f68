import TaskCapture.Proofs.Capture.Tokens
import TaskCapture.Proofs.Machine.Total

/-!
What a match of the English resolver covers. It runs from the first byte of a word to the last byte
of one, so that it can always be taken out and no word is cut.
-/

namespace TaskCapture

open Text

namespace Text

/-- The text around a word begins and ends with a blank next to it. -/
lemma blanks_around_placed {n : ℕ} {t : Text} {p : Placed} (h : p ∈ placed n t) :
    ∃ a b, t = a ++ p.text ++ b ∧ p.start = n + byteSize a ∧
      (∀ c ∈ a.getLast?, isBlank c = true) ∧ ∀ c ∈ b.head?, isBlank c = true := by
  -- what is put before the text keeps a blank before the word
  have hlast : ∀ {d : Char} {a : Text}, isBlank d = true → (∀ c ∈ a.getLast?, isBlank c = true) →
      ∀ c ∈ (d :: a).getLast?, isBlank c = true := by
    intro d a hd ha c hc
    cases a with
    | nil =>
      obtain rfl : d = c := by simpa using hc
      exact hd
    | cons e a => exact ha c (by simpa using hc)
  induction t using induction_words generalizing n with
  | nil => simp [placed] at h
  | blank d t hd ih =>
    rw [placed, if_pos hd] at h
    obtain ⟨a, b, ht, hp, ha, hb⟩ := ih h
    exact ⟨d :: a, b, by simp [ht], by simp [hp, Nat.add_assoc], hlast hd ha, hb⟩
  | word w hw =>
    obtain rfl : p = ⟨n, w⟩ := by simpa [placed_of_solid hw] using h
    exact ⟨[], [], by simp, by simp, by simp, by simp⟩
  | cons w d t hw hd ih =>
    rw [placed_append_blank hd, placed_of_solid hw, List.mem_append, List.mem_singleton] at h
    rcases h with rfl | h
    · exact ⟨[], d :: t, by simp, by simp, by simp, by simpa using hd⟩
    · obtain ⟨a, b, ht, hp, ha, hb⟩ := ih h
      refine ⟨w ++ d :: a, b, by simp [ht], by simp [hp]; omega, fun c hc => ?_, hb⟩
      rw [List.getLast?_append_of_ne_nil _ (by simp)] at hc
      exact hlast hd ha c hc

end Text

/-- The text `t` is cut by the span into `a`, `x` and `b`, and no word lies across a cut. -/
structure Span.TakesWords (s : Span) (t a x b : Text) : Prop where
  text_eq : t = a ++ x ++ b
  span_eq : s = ⟨byteSize a, byteSize (a ++ x)⟩
  trimmed : Trimmed x
  before : ∀ c ∈ a.getLast?, isBlank c = true
  after : ∀ c ∈ b.head?, isBlank c = true

namespace Span.TakesWords

variable {s : Span} {t a x b : Text}

lemma lt (h : s.TakesWords t a x b) : s.start < s.stop := by
  have := byteSize_pos h.trimmed.ne_nil
  rw [h.span_eq, byteSize_append]
  simp only
  omega

lemma le (h : s.TakesWords t a x b) : s.stop ≤ byteSize t := by
  rw [h.span_eq, h.text_eq, byteSize_append (a ++ x)]
  exact Nat.le_add_right _ _

lemma around?_eq (h : s.TakesWords t a x b) : around? t s = some (a, b) := by
  rw [h.span_eq]
  exact around?_of_cuts (by rw [h.text_eq, List.append_assoc]) h.text_eq

/-- The words of the text are those of the three parts. -/
lemma words_eq (h : s.TakesWords t a x b) : words t = words a ++ words x ++ words b := by
  have hx : words (x ++ b) = words x ++ words b := by
    cases hb : b with
    | nil => simp
    | cons c r =>
      have hc : isBlank c = true := h.after c (by simp [hb])
      rw [words_append_blank hc, words_cons_blank hc]
  rw [h.text_eq, List.append_assoc, endsApart_of_getLast? h.before, hx, List.append_assoc]

lemma words_around (h : s.TakesWords t a x b) : words (a ++ b) = words a ++ words b :=
  endsApart_of_getLast? h.before b

end Span.TakesWords

/-- **A match begins and ends with a word of the text.** -/
theorem Resolver.exists_takesWords_of_english {ref : Instant} {t : Text} {m : DateMatch}
    (h : english t ref = some m) : ∃ a x b, m.span.TakesWords t a x b := by
  have hforward := forward_english t ref m h
  obtain ⟨p, hp, q, hq, -, hspan⟩ := exists_placed_of_english h
  obtain ⟨a, b, hab, hstart, hblank, -⟩ := blanks_around_placed hp
  obtain ⟨a', b', hab', hstart', -, hblank'⟩ := blanks_around_placed hq
  have hsolid := (bounds_of_mem_placed hp).2.2
  have hsolid' := (bounds_of_mem_placed hq).2.2
  rw [Nat.zero_add] at hstart hstart'
  have hstop : q.stop = byteSize (a' ++ q.text) := by rw [Placed.stop, hstart', byteSize_append]
  have hcut : a ++ (p.text ++ b) = a' ++ q.text ++ b' := by rw [← List.append_assoc, ← hab, hab']
  rw [hspan] at hforward ⊢
  obtain ⟨x, hne, hx, hx'⟩ :=
    exists_of_append_eq_of_byteSize_lt hcut (by rw [← hstart, ← hstop]; exact hforward)
  refine ⟨a, x, b', by rw [← hx, hab'], by rw [hstart, hstop, hx],
    ⟨hne, fun c hc => ?_, fun c hc => ?_⟩, hblank, hblank'⟩
  · -- the match begins with the first character of its first word
    have hhead : (p.text ++ b).head? = (x ++ b').head? := by rw [hx']
    rw [List.head?_append_of_ne_nil _ hsolid.1, List.head?_append_of_ne_nil _ hne] at hhead
    exact hsolid.trimmed.head c (hhead ▸ hc)
  · have hlast : (a' ++ q.text).getLast? = (a ++ x).getLast? := by rw [hx]
    rw [List.getLast?_append_of_ne_nil _ hsolid'.1, List.getLast?_append_of_ne_nil _ hne] at hlast
    exact hsolid'.trimmed.last c (hlast ▸ hc)

/-- **The English resolver is total, and what it finds can be used**: no operation of it is refused
by a machine, and a match takes whole words out of the text, whose other words stay. -/
theorem Resolver.english_total (t : Text) (ref : Instant) :
    Machine.english t ref = .ok (english t ref) ∧ (takeDate english ref t).ignored = none ∧
      ∀ m, english t ref = some m →
        m.span.start < m.span.stop ∧ m.span.stop ≤ byteSize t ∧
          ∃ a x b, m.span.TakesWords t a x b ∧ words t = words a ++ words x ++ words b ∧
            words (takeDate english ref t).rest = words a ++ words b := by
  refine ⟨Machine.english_eq t ref, ?_, fun m hm => ?_⟩
  · unfold takeDate
    cases hm : english t ref with
    | none => rfl
    | some m =>
      obtain ⟨a, x, b, h⟩ := exists_takesWords_of_english hm
      simp only [h.around?_eq]
  · obtain ⟨a, x, b, h⟩ := exists_takesWords_of_english hm
    refine ⟨h.lt, h.le, a, x, b, h, h.words_eq, ?_⟩
    simp only [takeDate, hm, h.around?_eq]
    rw [words_collapse, h.words_around]

/-- A letter may take two bytes, and an amount may be as large as 32 bits hold. -/
theorem Resolver.english_total_of_cafe :
    let ref : Instant := ⟨⟨2025, 3, 5, by decide, by decide, by decide, by decide⟩, .noon⟩
    let t := "café in 3 weeks, ok".toList
    let far := "in 4294967295 weeks".toList
    Machine.english far ref = .ok none ∧ english far ref = none ∧
      (english t ref).map (·.span) = some ⟨6, 17⟩ ∧
        ∃ a x b, Span.TakesWords ⟨6, 17⟩ t a x b ∧ words t = words a ++ words x ++ words b ∧
          words (takeDate english ref t).rest = words a ++ words b := by
  intro ref t far
  have hfar : english far ref = none := by decide +kernel
  have hspan : (english t ref).map (·.span) = some ⟨6, 17⟩ := by decide +kernel
  obtain ⟨m, hm, hm'⟩ := Option.map_eq_some_iff.1 hspan
  obtain ⟨-, -, a, x, b, h⟩ := (english_total t ref).2.2 m hm
  exact ⟨hfar ▸ (english_total far ref).1, hfar, hspan, a, x, b, hm' ▸ h⟩

end TaskCapture
