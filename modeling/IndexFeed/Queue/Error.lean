import IndexFeed.System.Errno
import IndexFeed.Time.Span

/-!
# Errors of message queues

Why an operation on a message queue failed, with the text and the coarse kind of each error.
-/

set_option autoImplicit false

namespace IndexFeed.Queue

/-- Why an operation on a queue failed. -/
inductive Error where
  | cannotCreate (name : String) (reason : Errno)
  | cannotOpen (name : String) (reason : Errno)
  | invalidName (name : String)
  | tooLarge (size limit : Nat)
  | transport (reason : Errno)
  | timedOut (wait : Span)
  | cannotEncode (reason : Json.Error)
  /-- a message that is no JSON text -/
  | notJson (reason : Json.Error)
  /-- a message that is JSON of another shape than the expected one -/
  | misshapen (path message : String)
  deriving DecidableEq, Repr

namespace Error

/-- The text of an error. -/
def message : Error → String
  | .cannotCreate name reason => "Failed to create queue '" ++ name ++ "': " ++ reason.text
  | .cannotOpen name reason => "Failed to open queue '" ++ name ++ "': " ++ reason.text
  | .invalidName name => "Invalid queue name '" ++ name ++ "'"
  | .tooLarge size limit =>
    "Message of " ++ Decimal.text size ++ " bytes exceeds queue limit of " ++ Decimal.text limit
      ++ " bytes"
  | .transport reason => "Queue transport error: " ++ reason.text
  | .timedOut wait => "Timeout after " ++ wait.text ++ " when receiving from queue"
  | .cannotEncode reason => "Failed to encode message: " ++ reason.message
  | .notJson reason => "Received message is not valid JSON: " ++ reason.message
  | .misshapen path message =>
    "Received message does not match expected shape at " ++ path ++ ": " ++ message

/-- The text of the failure that lies behind an error. -/
def reason : Error → Option String
  | .cannotCreate _ r | .cannotOpen _ r | .transport r => some r.text
  | .cannotEncode r | .notJson r => some r.message
  | _ => none

/-- The coarse kind of an error. -/
def kind : Error → FailureKind
  | .timedOut _ => .timedOut
  | .cannotCreate _ r | .cannotOpen _ r | .transport r => r.kind
  | .invalidName _ | .tooLarge .. => .invalidInput
  | .cannotEncode _ | .notJson _ | .misshapen .. => .invalidData

/-- Nothing arrived in time. -/
def isTimeout : Error → Bool
  | .timedOut _ => true
  | _ => false

end Error

end IndexFeed.Queue
