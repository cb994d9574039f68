import Mathlib.Data.List.Nodup
import TaskCapture.Phrase.Vocabulary

/-!
The words of date and time phrases, by what they mean. The tables in which words are looked up have
just these.
-/

namespace TaskCapture.Phrase

open Text

/-! ### Spellings -/

/-- The name of a weekday in full. The week begins with Sunday. -/
def dayName : Weekday → String
  | 0 => "sunday"
  | 1 => "monday"
  | 2 => "tuesday"
  | 3 => "wednesday"
  | 4 => "thursday"
  | 5 => "friday"
  | 6 => "saturday"

/-- A weekday is named in full or in short. -/
def weekdaySpellings (k : Weekday) : List String :=
  dayName k :: match k with
    | 0 => ["sun"]
    | 1 => ["mon"]
    | 2 => ["tue", "tues"]
    | 3 => ["wed"]
    | 4 => ["thu", "thur", "thurs"]
    | 5 => ["fri"]
    | 6 => ["sat"]

lemma dayName_mem (k : Weekday) : dayName k ∈ weekdaySpellings k := List.mem_cons_self

/-- Only the full names end in `day`. -/
lemma suffix_day_iff {s : String} {k : Weekday} (h : s ∈ weekdaySpellings k) :
    "day".toList <:+ s.toList ↔ s = dayName k := by
  have hall : ∀ k, ∀ s ∈ weekdaySpellings k,
      ("day".toList.isSuffixOf s.toList = true ↔ s = dayName k) := by decide
  rw [← List.isSuffixOf_iff_suffix, hall k s h]

def monthSpellings : ℕ → List String
  | 1 => ["january", "jan"]
  | 2 => ["february", "feb"]
  | 3 => ["march", "mar"]
  | 4 => ["april", "apr"]
  | 5 => ["may"]
  | 6 => ["june", "jun"]
  | 7 => ["july", "jul"]
  | 8 => ["august", "aug"]
  | 9 => ["september", "sep", "sept"]
  | 10 => ["october", "oct"]
  | 11 => ["november", "nov"]
  | 12 => ["december", "dec"]
  | _ => []

/-- Numbers are spelled out up to twelve, and an article stands for one. -/
def numberSpellings : ℕ → List String
  | 1 => ["one", "a", "an"]
  | 2 => ["two"]
  | 3 => ["three"]
  | 4 => ["four"]
  | 5 => ["five"]
  | 6 => ["six"]
  | 7 => ["seven"]
  | 8 => ["eight"]
  | 9 => ["nine"]
  | 10 => ["ten"]
  | 11 => ["eleven"]
  | 12 => ["twelve"]
  | _ => []

def unitSpellings : TimeUnit → List String
  | .minute => ["minute", "minutes", "min", "mins"]
  | .hour => ["hour", "hours", "h", "hr", "hrs"]
  | .day => ["day", "days", "d"]
  | .week => ["week", "weeks", "w", "wk", "wks"]
  | .month => ["month", "months", "mo"]
  | .year => ["year", "years", "y", "yr", "yrs"]

/-- Two times of the day have names. -/
def clockSpellings (c : Clock) : List String :=
  match c.hour, c.minute, c.second with
  | 12, 0, 0 => ["noon", "midday"]
  | 0, 0, 0 => ["midnight"]
  | _, _, _ => []

/-! ### Tables of them -/

section

variable {α : Type} {table : List (String × α)} {spellings : α → List String} {w : Text}
  {s : String} {a : α}

/-- The table has the spellings of everything, each of them once, and no other words. -/
structure Agrees (table : List (String × α)) (spellings : α → List String) : Prop where
  nodup : (table.map (·.1)).Nodup
  spelling : ∀ e ∈ table, e.1 ∈ spellings e.2
  mem : ∀ a, ∀ s ∈ spellings a, (s, a) ∈ table

lemma Agrees.meaning (h : Agrees table spellings) (hs : s ∈ spellings a) :
    meaning table s.toList = some a := by
  have hmem := h.mem a s hs
  obtain ⟨e, he⟩ : ∃ e, table.find? (fun e => e.1.toList == s.toList) = some e :=
    Option.isSome_iff_exists.1 (List.find?_isSome.2 ⟨(s, a), hmem, beq_self_eq_true s.toList⟩)
  have hkey : e.1 = s := String.toList_injective (by simpa using List.find?_some he)
  -- the entry that is found is the only one with this word
  have hentry : e = (s, a) :=
    List.inj_on_of_nodup_map h.nodup (List.mem_of_find?_eq_some he) hmem hkey
  rw [Phrase.meaning, he, hentry, Option.map_some]

/-- **What a word means is what it is a spelling of.** -/
theorem Agrees.meaning_eq_some_iff (h : Agrees table spellings) :
    Phrase.meaning table w = some a ↔ ∃ s ∈ spellings a, s.toList = w := by
  refine ⟨fun hm => ?_, ?_⟩
  · obtain ⟨e, he, rfl⟩ := Option.map_eq_some_iff.1 hm
    exact ⟨e.1, h.spelling e (List.mem_of_find?_eq_some he), by simpa using List.find?_some he⟩
  · rintro ⟨s, hs, rfl⟩
    exact h.meaning hs

end

theorem weekdayWords_agrees : Agrees weekdayWords weekdaySpellings where
  nodup := by decide
  spelling := by decide
  mem := by decide

theorem monthWords_agrees : Agrees monthWords monthSpellings where
  nodup := by decide
  spelling := by decide
  mem := by
    intro n
    unfold monthSpellings
    split <;> simp [monthWords]

theorem numberWords_agrees : Agrees numberWords numberSpellings where
  nodup := by decide
  spelling := by decide
  mem := by
    intro n
    unfold numberSpellings
    split <;> simp [numberWords]

theorem unitWords_agrees : Agrees unitWords unitSpellings where
  nodup := by decide
  spelling := by decide
  mem := by
    intro u
    cases u <;> decide

theorem clockWords_agrees : Agrees clockWords clockSpellings where
  nodup := by decide
  spelling := by decide
  mem := by
    rintro ⟨h, m, s, _, _, _⟩
    simp only [clockSpellings]
    split <;> simp [clockWords, Clock.noon, Clock.midnight]

end TaskCapture.Phrase
