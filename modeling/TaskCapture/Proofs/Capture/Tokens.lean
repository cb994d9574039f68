import TaskCapture.Proofs.Capture.DateWords
import TaskCapture.Proofs.Capture.Marks

/-!
The tokens of a line: they lie end to end from its first byte to its last, whatever finds the date.
-/

namespace TaskCapture

open Text

namespace Resolver

/-- What the resolver finds runs forward: its span ends after it starts. -/
def Forward (resolve : Resolver) : Prop :=
  ∀ t ref m, resolve t ref = some m → m.span.start < m.span.stop

/-- A match begins with a word and ends with it or a later one. -/
lemma exists_placed_of_english {ref : Instant} {t : Text} {d : DateMatch}
    (h : english t ref = some d) :
    ∃ head ∈ placed 0 t, ∃ last ∈ placed 0 t, head.start ≤ last.start ∧
      d.span = ⟨head.start, last.stop⟩ := by
  cases hw : Phrase.inWords? ref (words t) with
  | none =>
    rw [english_of_none hw] at h
    cases h
  | some kr =>
    obtain ⟨k, r⟩ := kr
    obtain ⟨head, last, hhead, hlast, he⟩ := english_of_some hw
    rw [he] at h
    cases h
    refine ⟨head, List.mem_of_getElem? hhead, last, List.mem_of_getElem? hlast, ?_, rfl⟩
    have hext := Phrase.extent_of_inWords? hw
    obtain ⟨hk, rfl⟩ := List.getElem?_eq_some_iff.1 hhead
    obtain ⟨hl, rfl⟩ := List.getElem?_eq_some_iff.1 hlast
    rcases (show k ≤ k + r.used - 1 by omega).eq_or_lt with heq | hlt
    · simp only [← heq, le_rfl]
    · have := List.pairwise_iff_getElem.1 (pairwise_placed 0 t) _ _ hk hl hlt
      simp only [Placed.stop] at this
      omega

lemma forward_english : Forward english := by
  intro t ref d h
  obtain ⟨head, -, last, hlast, hle, hspan⟩ := exists_placed_of_english h
  have hpos := byteSize_pos (bounds_of_mem_placed hlast).2.2.1
  simp only [hspan, Placed.stop]
  omega

end Resolver

namespace Highlight

/-! ### Marks in order -/

lemma insertMark_perm (m : Token) (ms : List Token) : (insertMark m ms).Perm (m :: ms) := by
  induction ms with
  | nil => rfl
  | cons k ms ih =>
    rw [insertMark]
    split_ifs
    · exact (ih.cons k).trans (.swap m k ms)
    · rfl

/-- Marks in the order of their first bytes. -/
abbrev Ascending (ms : List Token) : Prop := ms.Pairwise fun a b => a.span.start ≤ b.span.start

lemma ascending_insertMark {ms : List Token} (h : Ascending ms) (m : Token) :
    Ascending (insertMark m ms) := by
  induction ms with
  | nil => exact List.pairwise_singleton _ m
  | cons k ms ih =>
    obtain ⟨hk, hms⟩ := List.pairwise_cons.1 h
    rw [insertMark]
    split_ifs with hle
    · refine .cons (fun a ha => ?_) (ih hms)
      rcases List.mem_cons.1 ((insertMark_perm m ms).mem_iff.1 ha) with rfl | ha
      · exact hle
      · exact hk a ha
    · refine .cons (fun a ha => ?_) h
      rcases List.mem_cons.1 ha with rfl | ha
      · omega
      · have := hk a ha
        omega

lemma foldl_insertMark (ms acc : List Token) (h : Ascending acc) :
    (ms.foldl (fun ms m => insertMark m ms) acc).Perm (acc ++ ms) ∧
      Ascending (ms.foldl (fun ms m => insertMark m ms) acc) := by
  induction ms generalizing acc with
  | nil => exact ⟨by simp, h⟩
  | cons m ms ih =>
    obtain ⟨hp, ha⟩ := ih (insertMark m acc) (ascending_insertMark h m)
    refine ⟨hp.trans ?_, ha⟩
    exact ((insertMark_perm m acc).append_right ms).trans List.perm_middle.symm

lemma sortMarks_perm (ms : List Token) : (sortMarks ms).Perm ms := (foldl_insertMark ms [] .nil).1

lemma ascending_sortMarks (ms : List Token) : Ascending (sortMarks ms) :=
  (foldl_insertMark ms [] .nil).2

/-- The marks come one after the other from byte `n` on, and none is empty. -/
def InTurn : ℕ → List Token → Prop
  | _, [] => True
  | n, m :: ms => n ≤ m.span.start ∧ m.span.start < m.span.stop ∧ InTurn m.span.stop ms

/-- Where no two marks share a byte, the order of their first bytes is the order of all. -/
lemma inTurn_of_ascending {ms : List Token} {n : ℕ} (hn : ∀ m ∈ ms, n ≤ m.span.start)
    (hlt : ∀ m ∈ ms, m.span.start < m.span.stop) (ha : Ascending ms) (hapart : ms.Pairwise Apart) :
    InTurn n ms := by
  induction ms generalizing n with
  | nil => trivial
  | cons m ms ih =>
    obtain ⟨hm, ha⟩ := List.pairwise_cons.1 ha
    obtain ⟨hm', hapart⟩ := List.pairwise_cons.1 hapart
    refine ⟨hn m (by simp), hlt m (by simp),
      ih (fun k hk => ?_) (fun k hk => hlt k (by simp [hk])) ha hapart⟩
    have h1 := hm k hk
    have h2 := Span.overlaps_eq_false_iff.1 (hm' k hk)
    have h3 := hlt k (by simp [hk])
    omega

/-! ### Text between the marks -/

/-- The tokens lie end to end from byte `a` to byte `b`. -/
def Tiles : ℕ → List Token → ℕ → Prop
  | a, [], b => a = b
  | a, m :: ms, b => m.span.start = a ∧ Tiles m.span.stop ms b

variable {size n : ℕ} {ms : List Token}

lemma tiles_fill (h : InTurn n ms) (hn : n ≤ size) (hsize : ∀ m ∈ ms, m.span.stop ≤ size) :
    Tiles n (fill size n ms) size := by
  induction ms generalizing n with
  | nil =>
    rw [fill]
    split_ifs with hlt
    · exact ⟨rfl, rfl⟩
    · exact le_antisymm hn (not_lt.1 hlt)
  | cons m ms ih =>
    obtain ⟨hle, -, hms⟩ := h
    have ih' := ih hms (hsize m (by simp)) fun k hk => hsize k (by simp [hk])
    rw [fill]
    split_ifs with hlt
    · exact ⟨rfl, rfl, ih'⟩
    · exact ⟨le_antisymm (not_lt.1 hlt) hle, ih'⟩

lemma fits_of_mem_fill {t : Text} (h : InTurn n ms) (hn : isBoundary t n = true)
    (hfits : ∀ m ∈ ms, m.span.Fits t) {m : Token} (hm : m ∈ fill (byteSize t) n ms) :
    m.span.Fits t := by
  induction ms generalizing n with
  | nil =>
    rw [fill] at hm
    split_ifs at hm with hlt
    · obtain rfl := List.mem_singleton.1 hm
      exact Span.fits_iff.2 ⟨hlt, hn, isBoundary_byteSize t⟩
    · cases hm
  | cons k ms ih =>
    obtain ⟨-, -, hms⟩ := h
    have hk := hfits k (by simp)
    obtain ⟨-, hstart, hstop⟩ := Span.fits_iff.1 hk
    rw [fill, List.mem_append, List.mem_cons] at hm
    rcases hm with hm | rfl | hm
    · split_ifs at hm with hlt
      · obtain rfl := List.mem_singleton.1 hm
        exact Span.fits_iff.2 ⟨hlt, hn, hstart⟩
      · cases hm
    · exact hk
    · exact ih hms hstop (fun a ha => hfits a (by simp [ha])) hm

/-- Text stands only between marks. -/
lemma isChain_fill (h : ∀ m ∈ ms, m.kind ≠ .text) :
    (fill size n ms).IsChain fun a b => ¬ (a.kind = .text ∧ b.kind = .text) := by
  induction ms generalizing n with
  | nil =>
    rw [fill]
    split_ifs <;> simp
  | cons m ms ih =>
    have hm := h m (by simp)
    have ih' := ih (n := m.span.stop) fun k hk => h k (by simp [hk])
    have hchain : (m :: fill size m.span.stop ms).IsChain
        fun a b => ¬ (a.kind = .text ∧ b.kind = .text) :=
      List.isChain_cons.2 ⟨fun k _ hk => hm hk.1, ih'⟩
    rw [fill]
    split_ifs
    · exact List.isChain_cons.2 ⟨fun k hk => by simp at hk; simp [← hk, hm], hchain⟩
    · exact hchain

lemma mem_fill_iff {m : Token} (h : m.kind ≠ .text) : m ∈ fill size n ms ↔ m ∈ ms := by
  have hne : ∀ s, m ≠ ⟨.text, s⟩ := fun s hm => h (congrArg Token.kind hm)
  induction ms generalizing n with
  | nil =>
    rw [fill]
    split_ifs <;> simp [hne]
  | cons k ms ih =>
    simp only [fill, List.mem_append, List.mem_cons, ih]
    split_ifs <;> simp [hne]

lemma countP_fill {kind : TokenKind} (h : kind ≠ .text) :
    (fill size n ms).countP (·.kind = kind) = ms.countP (·.kind = kind) := by
  induction ms generalizing n with
  | nil =>
    rw [fill]
    split_ifs <;> simp [h.symm]
  | cons m ms ih =>
    rw [fill, List.countP_append, List.countP_cons, List.countP_cons, ih]
    split_ifs <;> simp [h.symm]

/-! ### The tokens -/

/-- All marks of a line: the markers and the date. -/
def marks (resolve : Resolver) (ref : Instant) (t : Text) : List Token :=
  markers t ++ (dateMark? resolve ref t (markers t)).toList

lemma highlight_eq_fill (resolve : Resolver) (ref : Instant) (t : Text) :
    highlight resolve ref t = fill (byteSize t) 0 (sortMarks (marks resolve ref t)) := rfl

lemma dateMark?_eq_some_iff {resolve : Resolver} {ref : Instant} {t : Text} {ms : List Token}
    {m : Token} :
    dateMark? resolve ref t ms = some m ↔ ∃ d, resolve (cover ms 0 t) ref = some d ∧
      m = ⟨.dueDate, d.span⟩ ∧ isBoundary t d.span.start = true ∧ isBoundary t d.span.stop = true ∧
        ∀ k ∈ ms, Apart k m := by
  unfold dateMark?
  rw [Option.bind_eq_some_iff]
  refine exists_congr fun d => and_congr_right fun _ => ?_
  constructor
  · intro h
    split_ifs at h with hd
    cases h
    exact ⟨rfl, hd.2.1, hd.2.2.1, by simpa [Apart] using hd.2.2.2⟩
  · rintro ⟨rfl, hstart, hstop, hapart⟩
    rw [if_pos]
    exact ⟨le_byteSize_of_isBoundary hstop, hstart, hstop, by simpa [Apart] using hapart⟩

section

variable {resolve : Resolver} {ref : Instant} {t : Text}

lemma fits_of_mem_marks (h : resolve.Forward) {m : Token} (hm : m ∈ marks resolve ref t) :
    m.span.Fits t := by
  rcases List.mem_append.1 hm with hm | hm
  · exact fits_of_mem_markers hm
  · obtain ⟨d, hd, rfl, hstart, hstop, -⟩ := dateMark?_eq_some_iff.1 (Option.mem_toList.1 hm)
    exact Span.fits_iff.2 ⟨h _ _ _ hd, hstart, hstop⟩

lemma pairwise_marks : (marks resolve ref t).Pairwise Apart := by
  refine List.pairwise_append.2 ⟨pairwise_markers t, ?_, fun k hk m hm => ?_⟩
  · cases dateMark? resolve ref t (markers t) <;> simp
  · obtain ⟨d, -, -, -, -, hapart⟩ := dateMark?_eq_some_iff.1 (Option.mem_toList.1 hm)
    exact hapart k hk

lemma kind_ne_text_of_mem_marks {m : Token} (hm : m ∈ marks resolve ref t) : m.kind ≠ .text := by
  rcases List.mem_append.1 hm with hm | hm
  · exact (kind_ne_of_mem_markers hm).1
  · obtain ⟨d, -, rfl, -⟩ := dateMark?_eq_some_iff.1 (Option.mem_toList.1 hm)
    exact nofun

/-- **The tokens that are not text** are the markers and the date. -/
theorem mem_highlight_iff {m : Token} (h : m.kind ≠ .text) :
    m ∈ highlight resolve ref t ↔
      m ∈ markers t ∨ dateMark? resolve ref t (markers t) = some m := by
  rw [highlight_eq_fill, mem_fill_iff h, (sortMarks_perm _).mem_iff, marks, List.mem_append,
    Option.mem_toList]

/-- Each kind but text has as many tokens as marks. -/
lemma countP_highlight {kind : TokenKind} (h : kind ≠ .text) :
    (highlight resolve ref t).countP (·.kind = kind) =
      (marks resolve ref t).countP (·.kind = kind) := by
  rw [highlight_eq_fill, countP_fill h, (sortMarks_perm _).countP_eq]

lemma countP_dueDate_marks : (marks resolve ref t).countP (·.kind = .dueDate) ≤ 1 := by
  have hnone : (markers t).countP (·.kind = .dueDate) = 0 :=
    List.countP_eq_zero.2 fun m hm => by simpa using (kind_ne_of_mem_markers hm).2
  rw [marks, List.countP_append, hnone, Nat.zero_add]
  cases dateMark? resolve ref t (markers t) with
  | none => simp
  | some m => exact List.countP_le_length

lemma countP_priority_marks : (marks resolve ref t).countP (·.kind = .priority) ≤ 1 := by
  rw [marks, List.countP_append]
  have := countP_priority_markers t
  cases h : dateMark? resolve ref t (markers t) with
  | none => simpa
  | some m =>
    obtain ⟨d, -, rfl, -⟩ := dateMark?_eq_some_iff.1 h
    simpa

end

/-- The tokens take the text apart: they hold whole characters and lie end to end, two of plain text
are never neighbours, and there is at most one priority and at most one date. -/
structure Partition (t : Text) (ts : List Token) : Prop where
  lt : ∀ m ∈ ts, m.span.start < m.span.stop
  isBoundary : ∀ m ∈ ts, isBoundary t m.span.start = true ∧ isBoundary t m.span.stop = true
  tiles : Tiles 0 ts (byteSize t)
  isChain : ts.IsChain fun a b => ¬ (a.kind = .text ∧ b.kind = .text)
  priority : ts.countP (·.kind = .priority) ≤ 1
  dueDate : ts.countP (·.kind = .dueDate) ≤ 1

lemma inTurn_sortMarks {resolve : Resolver} (h : resolve.Forward) (ref : Instant) (t : Text) :
    InTurn 0 (sortMarks (marks resolve ref t)) := by
  refine inTurn_of_ascending (fun _ _ => Nat.zero_le _) (fun m hm => ?_) (ascending_sortMarks _) ?_
  · exact (fits_of_mem_marks h ((sortMarks_perm _).mem_iff.1 hm)).lt
  · exact (sortMarks_perm _).symm.pairwise pairwise_marks fun hab => hab.symm

theorem partition_highlight_of_forward {resolve : Resolver} (h : resolve.Forward) (ref : Instant)
    (t : Text) : Partition t (highlight resolve ref t) := by
  have hturn := inTurn_sortMarks h ref t
  have hfits : ∀ m ∈ sortMarks (marks resolve ref t), m.span.Fits t := fun m hm =>
    fits_of_mem_marks h ((sortMarks_perm _).mem_iff.1 hm)
  have htoken : ∀ m ∈ highlight resolve ref t, m.span.start < m.span.stop ∧
      isBoundary t m.span.start = true ∧ isBoundary t m.span.stop = true := fun m hm =>
    Span.fits_iff.1 (fits_of_mem_fill hturn (isBoundary_zero t) hfits hm)
  have hsize : ∀ m ∈ sortMarks (marks resolve ref t), m.span.stop ≤ byteSize t := fun m hm =>
    le_byteSize_of_isBoundary (Span.fits_iff.1 (hfits m hm)).2.2
  have htext : ∀ m ∈ sortMarks (marks resolve ref t), m.kind ≠ .text := fun m hm =>
    kind_ne_text_of_mem_marks ((sortMarks_perm _).mem_iff.1 hm)
  refine ⟨fun m hm => (htoken m hm).1, fun m hm => (htoken m hm).2,
    tiles_fill hturn (Nat.zero_le _) hsize, isChain_fill htext, ?_, ?_⟩
  · rw [countP_highlight (show TokenKind.priority ≠ .text by decide)]
    exact countP_priority_marks
  · rw [countP_highlight (show TokenKind.dueDate ≠ .text by decide)]
    exact countP_dueDate_marks

/-- **The tokens take a line apart**, also where what is found as its date does not fit the line, as
long as it runs forward; English phrases do. An empty line has no tokens, and the markers can be
covered one after the other before the date is looked for. -/
theorem partition_highlight : Resolver.Forward .english ∧
    ∀ resolve : Resolver, resolve.Forward → ∀ (ref : Instant) (t : Text),
      Partition t (highlight resolve ref t) ∧ (highlight resolve ref t = [] ↔ t = []) ∧
        (markers t).foldlM (fun u m => blankOut? m.span u) t = some (cover (markers t) 0 t) := by
  refine ⟨Resolver.forward_english, fun resolve h ref t => ?_⟩
  have hpart := partition_highlight_of_forward h ref t
  refine ⟨hpart, ⟨fun hnil => ?_, fun hnil => ?_⟩, foldlM_blankOut? fun m => fits_of_mem_markers⟩
  · have htiles := hpart.tiles
    rw [hnil] at htiles
    by_contra ht
    exact (byteSize_pos ht).ne htiles
  · subst hnil
    cases hts : highlight resolve ref [] with
    | nil => rfl
    | cons m ts =>
      -- a token would hold a byte
      have hlt := hpart.lt m (by simp [hts])
      have hle := le_byteSize_of_isBoundary (hpart.isBoundary m (by simp [hts])).2
      rw [byteSize_nil] at hle
      omega

/-- A line with a mark of each kind and characters of several bytes; and a date that is said to end
past the line. -/
theorem partition_highlight_of_friday :
    let ref : Instant := ⟨⟨2025, 3, 5, by decide, by decide, by decide, by decide⟩, .noon⟩
    let t := "Café friday at 10am p2 ☕ #müll @büro".toList
    let past : Resolver := .always ⟨⟨7, 400⟩, ref, false⟩
    (Resolver.Forward .english ∧ highlight .english ref t =
        [⟨.text, ⟨0, 6⟩⟩, ⟨.dueDate, ⟨6, 20⟩⟩, ⟨.text, ⟨20, 21⟩⟩, ⟨.priority, ⟨21, 23⟩⟩,
          ⟨.text, ⟨23, 28⟩⟩, ⟨.category, ⟨28, 34⟩⟩, ⟨.text, ⟨34, 35⟩⟩, ⟨.context, ⟨35, 41⟩⟩] ∧
        Partition t (highlight .english ref t)) ∧
      Resolver.Forward past ∧ Partition t (highlight past ref t) := by
  intro ref t past
  have hpast : past.Forward := by
    intro u r m h
    cases h
    decide
  exact ⟨⟨partition_highlight.1, by decide +kernel,
      (partition_highlight.2 .english partition_highlight.1 ref t).1⟩,
    hpast, (partition_highlight.2 past hpast ref t).1⟩

end Highlight

end TaskCapture
