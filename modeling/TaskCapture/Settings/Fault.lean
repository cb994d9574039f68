import TaskCapture.Text.CharRange

/-!
Faults: what went wrong at first, and the contexts that were put around it. A fault shows the
outermost text only.
-/

namespace TaskCapture

/-- A refusal by the disk. -/
inductive DiskFault where
  | notFound
  | alreadyExists
  | notADirectory
  | isADirectory
  | notUtf8
  | permissionDenied
  | other (text : Text)
  deriving DecidableEq, Repr

def DiskFault.text : DiskFault → Text
  | notFound => "No such file or directory (os error 2)".toList
  | alreadyExists => "File exists (os error 17)".toList
  | notADirectory => "Not a directory (os error 20)".toList
  | isADirectory => "Is a directory (os error 21)".toList
  | notUtf8 => "stream did not contain valid UTF-8".toList
  | permissionDenied => "Permission denied (os error 13)".toList
  | other t => t

inductive Cause where
  | message (text : Text)
  | disk (fault : DiskFault)
  deriving DecidableEq, Repr

def Cause.text : Cause → Text
  | message t => t
  | disk f => f.text

structure Fault where
  cause : Cause
  /-- The contexts, the outermost first. -/
  contexts : List Text := []
  deriving DecidableEq, Repr

namespace Fault

def text (f : Fault) : Text := f.contexts.headD f.cause.text

/-- The same fault in one more context. -/
def within (f : Fault) (context : Text) : Fault := { f with contexts := context :: f.contexts }

@[simp] theorem text_within (f : Fault) (c : Text) : (f.within c).text = c := rfl

/-- `w` occurs in the text. -/
def occursIn (w : Text) : Text → Bool
  | [] => w.isEmpty
  | c :: t => w.isPrefixOf (c :: t) || occursIn w t

/-- The text of the fault that no configuration is there. -/
def missingText : Text := "Config file not found".toList

/-- The fault says that something is missing: by its text, or because the disk did not find it. -/
def isMissing (f : Fault) : Bool := occursIn missingText f.text || f.cause == .disk .notFound

end Fault

end TaskCapture
