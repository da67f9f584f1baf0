import Outbox.Http.Retry
import Outbox.Time.Instant
import Outbox.Failure
import Outbox.Text.Utf8

/-!
Requests to the API and the client that sends them.

The client sends a request through a transport and reads the status of the response: 2xx is a
success; 400 is a malformed request; 401 refuses the credentials and pauses all requests; 5xx is
retried after the retry policy's delay, and when no retry is left it pauses all requests and
reports the server down; any other status is unsuccessful. The body of a failed response is
reported as text, each invalid UTF-8 sequence replaced by U+FFFD. A transport that fails reports
no network, no response (a time-out is "timed out"), a cancelled request, or no response with its
own message.

Pausing lasts the client's pause duration from the clock's time (none when the duration does not
fit a delta); while it lasts every request fails at once as paused. A pause that reaches past the
calendar cannot be represented, and pausing then fails with a panic.

A round of a request is `Client.checkPaused`, then the transport's answer, then
`Client.decide`, which retries a server error while the policy has a delay left and otherwise
ends the request as `Client.conclude` says. The caller sends the request and sleeps between rounds, since the transport and
the passing of time belong to the world around the client.
-/

set_option autoImplicit false

namespace Outbox.Http

open Time

/-- An HTTP method. -/
inductive Method where
  | get
  | post
  | put
  | delete
  deriving DecidableEq, Repr, Inhabited

def Method.name : Method → String
  | .get => "GET"
  | .post => "POST"
  | .put => "PUT"
  | .delete => "DELETE"

/-- A request to the API. -/
structure Request where
  method : Method
  path : String
  body : Option (List UInt8)
  deriving DecidableEq, Repr, Inhabited

/-- A response from the API; its status is a 16-bit code. -/
structure Response where
  status : UInt16
  body : List UInt8
  deriving DecidableEq, Repr, Inhabited

/-- Why the transport could not deliver a request. -/
inductive TransportFailure where
  | noNetwork (message : String)
  | timeout
  | cancelled
  | other (message : String)
  deriving DecidableEq, Repr

def TransportFailure.toHttp : TransportFailure → HttpFailure
  | .noNetwork m => .noNetwork m
  | .timeout => .noResponse "timed out"
  | .cancelled => .cancelled
  | .other m => .noResponse m

def calendarOverflow : String := "`DateTime + TimeDelta` overflowed"

/-- A client's settings and pause. -/
structure Client where
  policy : RetryPolicy
  pause : Duration
  pausedUntil : Option Instant

/-- What a request came to: the client's result, or the message of its panic. -/
abbrev Outcome := Except String (Except HttpFailure Response)

/-- What one round of a request came to. -/
inductive Attempt where
  | finished (result : Except HttpFailure Response)
  | retryAfter (delay : Duration) (retries : Nat)
  | panicked (message : String)

def Attempt.ofOutcome : Outcome → Attempt
  | .ok r => .finished r
  | .error m => .panicked m

/-- Whether an answer is a server error (5xx), which the client retries. -/
def isServerError : Except TransportFailure Response → Bool
  | .ok r => 500 ≤ r.status && r.status ≤ 599
  | .error _ => false

namespace Client

def new (policy : RetryPolicy) (pause : Duration) : Client := ⟨policy, pause, none⟩

/-- Whether requests are paused at `now`; a pause that has ended is forgotten. -/
def checkPaused (c : Client) (now : Instant) : Bool × Client :=
  match c.pausedUntil with
  | some limit => if now.lt limit then (true, c) else (false, { c with pausedUntil := none })
  | none => (false, c)

/-- When a pause made at `now` ends: the pause duration later (no later at all when the duration
does not fit a delta), if that is in the calendar's range. -/
def windowEnd (c : Client) (now : Instant) : Option Instant :=
  now.add? ((Delta.ofDuration? c.pause).getD Delta.zero)

/-- Pauses requests from `now` for the pause duration; fails when the end leaves the calendar. -/
def pauseRequests (c : Client) (now : Instant) : Except String Client :=
  match c.windowEnd now with
  | some limit => .ok { c with pausedUntil := some limit }
  | none => .error calendarOverflow

/-- Pauses requests from `now` and fails with `f`; a pause that cannot be made is a panic. -/
def pauseFailing (c : Client) (now : Instant) (f : HttpFailure) : Outcome × Client :=
  match c.pauseRequests now with
  | .ok c => (.ok (.error f), c)
  | .error m => (.error m, c)

/-- What an answer that ends a request comes to: 2xx is the response; 400 a malformed request,
401 refused credentials (after pausing) and 5xx a server that is down (after pausing); any other
status is unsuccessful; a failed body is read as text, and a transport failure is reported as
its HTTP failure. -/
def conclude (c : Client) (now : Instant) : Except TransportFailure Response → Outcome × Client
  | .error f => (.ok (.error f.toHttp), c)
  | .ok r =>
    if 200 ≤ r.status ∧ r.status ≤ 299 then (.ok (.ok r), c)
    else if r.status = 400 then (.ok (.error (.badRequest (Utf8.toTextLossy r.body))), c)
    else if r.status = 401 then c.pauseFailing now .unauthorized
    else if 500 ≤ r.status ∧ r.status ≤ 599 then c.pauseFailing now .serverDown
    else (.ok (.error (.unsuccessfulStatus r.status (Utf8.toTextLossy r.body))), c)

/-- Decides a round from the transport's answer; `retries` counts the rounds retried so far. A
server error is retried after the policy's next delay while one is left; any other answer, or a
server error with no retry left, ends the request. -/
def decide (c : Client) (now : Instant) (retries : Nat)
    (answer : Except TransportFailure Response) : Attempt × Client :=
  let ended := c.conclude now answer
  if isServerError answer then
    match c.policy.nextDelay (retries + 1) with
    | some d => (.retryAfter d (retries + 1), c)
    | none => (Attempt.ofOutcome ended.1, ended.2)
  else (Attempt.ofOutcome ended.1, ended.2)

end Client

end Outbox.Http
