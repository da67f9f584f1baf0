import Outbox.Text.Escape

/-!
Why things fail, and what a pass does about a failed task.

An `HttpFailure` is why a request to the API did not succeed; a `RunFailure` is why running a
task did not, which is an HTTP failure or a payload that cannot be read or written, or a task
kind that nothing handles. Each failure has a message, and a run failure has a `Disposition`:
while requests are paused the pass stops (`paused`); a malformed request, an unreadable payload
or an unknown kind can never succeed and the task is dropped (`terminal`); every other failure
may pass on a later try (`retryable`).

A `StoreFailure` is why the record store could not do what was asked.
-/

set_option autoImplicit false

namespace Outbox

/-- Why a request to the API did not succeed. -/
inductive HttpFailure where
  | unauthorized
  | badRequest (body : String)
  | serverDown
  | unsuccessfulStatus (status : UInt16) (body : String)
  | noNetwork (message : String)
  | noResponse (message : String)
  | cancelled
  | paused
  deriving DecidableEq, Repr

/-- Why running a task did not succeed. -/
inductive RunFailure where
  | http (failure : HttpFailure)
  | undecodable (kind : String)
  | unencodable
  | noHandler (kind : String)
  deriving DecidableEq, Repr

/-- What a pass does about a failed task. -/
inductive Disposition where
  | paused
  | terminal
  | retryable
  deriving DecidableEq, Repr

/-- The message of an HTTP failure. -/
def HttpFailure.message : HttpFailure → String
  | .unauthorized => "unauthorized (401); requests are paused"
  | .badRequest body => "malformed request (400): " ++ body
  | .serverDown => "server unavailable after retries; requests are paused"
  | .unsuccessfulStatus status body =>
    "unsuccessful status code " ++ toString status ++ ": " ++ body
  | .noNetwork m => "no or bad network: " ++ m
  | .noResponse m => "no response: " ++ m
  | .cancelled => "request cancelled"
  | .paused => "requests are currently paused"

def RunFailure.message : RunFailure → String
  | .http f => f.message
  | .undecodable kind => "payload of " ++ kind ++ " could not be decoded"
  | .unencodable => "request body could not be encoded"
  | .noHandler kind => "no handler registered for task_type=" ++ kind

/-- What a pass does about a run failure. -/
def RunFailure.disposition : RunFailure → Disposition
  | .http .paused => .paused
  | .http (.badRequest _) => .terminal
  | .http _ => .retryable
  | .undecodable _ => .terminal
  | .unencodable => .terminal
  | .noHandler _ => .terminal

/-- Why the record store could not do what was asked. -/
inductive StoreFailure where
  | io
  | invalidKey (key : String)
  | unavailable (reason : String)
  deriving DecidableEq, Repr

def StoreFailure.message : StoreFailure → String
  | .io => "I/O error"
  | .invalidKey key => "invalid record key: " ++ Text.quoted key
  | .unavailable reason => "store unavailable: " ++ reason

@[simp] theorem disposition_paused : (RunFailure.http .paused).disposition = .paused := rfl

end Outbox
