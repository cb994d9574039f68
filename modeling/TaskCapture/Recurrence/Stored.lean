import TaskCapture.Json.Reader
import TaskCapture.Json.Writer
import TaskCapture.Recurrence.Rule

/-!
Rules as they are stored: a JSON object with a frequency and, where days are given, a list of them.
Members of other names are passed over. A rule is either read in full or refused.
-/

namespace TaskCapture.Rule

/-- Why a stored text is not a rule. -/
inductive Refusal where
  /-- The text is not JSON. -/
  | malformed
  | notObject
  /-- No frequency is given, or none that is a string. -/
  | noFrequency
  /-- The frequency is not known, or the days are not a list of numbers up to 255. -/
  | unsupported
  /-- A day lies after Saturday. -/
  | weekdayRange
  deriving DecidableEq, Repr

def frequencyName : Text := "frequency".toList

def daysName : Text := "daysOfWeek".toList

def toJson (r : Rule) : Json :=
  .obj ((frequencyName, .str r.frequency.keyword.toList) ::
    match r.days with
    | none => []
    | some ds => [(daysName, .arr (ds.map fun d : Nat => .int d))])

/-- The text under which a rule is stored. -/
def stored (r : Rule) : Text := r.toJson.compact

def byteOfJson? : Json → Option Nat
  | .int n => if 0 ≤ n ∧ n ≤ 255 then some n.toNat else none
  | _ => none

/-- The days of a rule; null stands for none. -/
def daysOfJson? : Option Json → Option (Option (List Nat))
  | none => some none
  | some .null => some none
  | some (.arr vs) => (vs.mapM byteOfJson?).map some
  | some _ => none

def ofJson : Json → Except Refusal Rule
  | .obj ms =>
    match Json.member? frequencyName ms with
    | some (.str name) =>
      match Frequency.ofKeyword? name, daysOfJson? (Json.member? daysName ms) with
      | some f, some days =>
        if (days.getD []).any (6 < ·) then .error .weekdayRange else .ok ⟨f, days⟩
      | _, _ => .error .unsupported
    | _ => .error .noFrequency
  | _ => .error .notObject

def ofStored (t : Text) : Except Refusal Rule :=
  match Json.read? t with
  | none => .error .malformed
  | some v => ofJson v

/-- The rule stored under a text, if it is one. -/
def ofStored? (t : Text) : Option Rule := (ofStored t).toOption

end TaskCapture.Rule
