import TaskCapture.Capture.Highlight
import TaskCapture.Capture.Session
import TaskCapture.Main
import TaskCapture.Settings.Script
import TaskCapture.Proofs.Capture.AddedTag
import TaskCapture.Proofs.Capture.Allotment
import TaskCapture.Proofs.Capture.Canonical
import TaskCapture.Proofs.Capture.DateToken
import TaskCapture.Proofs.Capture.SecondReading
import TaskCapture.Proofs.Phrase.ForwardInstant
import TaskCapture.Proofs.Recurrence.ByMonths
import TaskCapture.Proofs.Recurrence.Weekly
import TaskCapture.Proofs.Capture.LetterCase
import TaskCapture.Proofs.Capture.Invariant
import TaskCapture.Proofs.Machine.English
import TaskCapture.Proofs.Machine.Total
import TaskCapture.Proofs.Machine.WholeWords
import TaskCapture.Proofs.Json.Grammar
import TaskCapture.Proofs.Json.ReadBack
import TaskCapture.Proofs.Json.Compact
import TaskCapture.Proofs.Recurrence.Stored
import TaskCapture.Proofs.Json.Soundness
import TaskCapture.Proofs.Recurrence.Accepted
import TaskCapture.Proofs.CommandLine.Resume
import TaskCapture.Proofs.Json.Pretty
import TaskCapture.Proofs.Capture.TaskJson
import TaskCapture.Proofs.Phrase.Grammar
import TaskCapture.Proofs.Phrase.HalfApart
import TaskCapture.Proofs.Settings.SavedConfig
import TaskCapture.Proofs.Phrase.Meaning
import TaskCapture.Proofs.Phrase.Earliest
import TaskCapture.Proofs.Capture.TagTokens
import TaskCapture.Proofs.Capture.DateUsed
import TaskCapture.Proofs.Capture.AnySpan
import TaskCapture.Proofs.Capture.Presence
import TaskCapture.Proofs.Capture.Precedence
import TaskCapture.Proofs.Recurrence.Description
import TaskCapture.Proofs.Recurrence.Order
import TaskCapture.Proofs.CommandLine.Placement
import TaskCapture.Proofs.Settings.Contexts
