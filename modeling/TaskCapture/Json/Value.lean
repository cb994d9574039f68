import TaskCapture.Text.CharRange

/-!
JSON values. A number is an integer if it is written as one, without fraction or exponent; of any
other number only the spelling is kept.
-/

namespace TaskCapture

inductive Json where
  | null
  | bool (b : Bool)
  | int (n : Int)
  | real (spelling : Text)
  | str (s : Text)
  | arr (vs : List Json)
  | obj (ms : List (Text × Json))
  deriving Inhabited

namespace Json

/-- The value of a member; of several with one name, the last counts. -/
def member? (k : Text) : List (Text × Json) → Option Json
  | [] => none
  | (k', v) :: ms => (member? k ms).or (if k' = k then some v else none)

/-- The characters of a string that are escaped with a single letter, after that letter. -/
def shortEscapes : List (Char × Char) :=
  [('"', '"'), ('\\', '\\'), ('b', '\x08'), ('f', '\x0C'), ('n', '\n'), ('r', '\r'), ('t', '\t')]

end Json

end TaskCapture
