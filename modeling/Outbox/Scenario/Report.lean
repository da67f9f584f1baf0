import Outbox.Task.Codec
import Outbox.Config
import Outbox.Text.Base64
import Outbox.Http.Client

/-!
How a scenario reports values: bytes as text when they are valid UTF-8 and as `{"b64": …}`
otherwise, durations as seconds and nanoseconds, failures by kind, message and disposition,
entries in their stored form.
-/

set_option autoImplicit false

namespace Outbox.Scenario

open Outbox.Json Outbox.Time Outbox.Task Outbox.Http

def bytesValue (bs : List UInt8) : Value :=
  match Utf8.toText? bs with
  | some s => .str s
  | none => .object [("b64", .str (Base64.encode bs))]

def durationValue (d : Duration) : Value :=
  .object [("secs", .nat d.secs), ("nanos", .nat d.subsecNanos)]

def deltaValue (d : Delta) : Value :=
  .object [("secs", Value.int d.seconds), ("nanos", Value.int d.subsecNanos)]

def errorValue (kind message : String) : Value :=
  .object [("error", .str kind), ("message", .str message)]

/-- The answer to a step of a kind the scenario does not know, named by its `do`, quoted. -/
def unknownStep (name : Option String) : Value :=
  errorValue "bad_input" ("unknown step " ++ Text.quoted (name.getD ""))

/-- The name of an HTTP failure's kind. -/
def HttpFailure.kindName : HttpFailure → String
  | .unauthorized => "Unauthorized"
  | .badRequest _ => "BadRequest400"
  | .serverDown => "ServerDown"
  | .unsuccessfulStatus .. => "UnsuccessfulStatusCode"
  | .noNetwork _ => "NoOrBadNetwork"
  | .noResponse _ => "NoResponse"
  | .cancelled => "Cancelled"
  | .paused => "RequestsPaused"

def RunFailure.kindName : RunFailure → String
  | .http f => HttpFailure.kindName f
  | .undecodable _ => "Decode"
  | .unencodable => "Encode"
  | .noHandler _ => "HandlerNotFound"

def Disposition.name : Disposition → String
  | .paused => "Paused"
  | .terminal => "Terminal"
  | .retryable => "Retryable"

def failureValue (f : RunFailure) : Value :=
  .object [("error", .str (RunFailure.kindName f)), ("message", .str f.message),
    ("disposition", .str (Disposition.name f.disposition))]

def panicValue (message : String) : Value := errorValue "panic" message

def ConfigError.kindName : ConfigError → String
  | .notANumber .. => "NotANumber"
  | .empty _ => "Empty"
  | .zeroMinTasks => "ZeroMinTasks"
  | .invalidSiteId _ => "InvalidSiteId"

def storeFailureValue (f : StoreFailure) : Value :=
  errorValue (match f with
    | .io => "Io"
    | .invalidKey _ => "InvalidKey"
    | .unavailable _ => "Unavailable") f.message

def requestValue (r : Request) : Value :=
  .object [("method", .str r.method.name), ("path", .str r.path),
    ("body", match r.body with | some b => bytesValue b | none => .null)]

def textsValue (ts : List String) : Value := .array (ts.map .str)

end Outbox.Scenario
