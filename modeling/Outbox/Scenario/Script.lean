import Outbox.Json.Value
import Outbox.Json.Write
import Outbox.Text.Base64
import Outbox.Time.Stamp
import Outbox.Http.Client
import Outbox.Task.Id
import Outbox.Store.Memory

/-!
Reading the parts of a scenario script: bytes, times, durations, failures, transport answers and
retry policies, as the script's JSON gives them.

Bytes under a name `x` are the base64 of `x_b64`, the compact JSON text of `x_json`, or the
UTF-8 text of `x`, the first present; when none is, they are empty.
-/

set_option autoImplicit false

namespace Outbox.Json

open Outbox.Http Outbox.Time

def Value.strAt? (v : Value) (k : String) : Option String := (v.get? k).bind Value.getStr?

def Value.natAt? (v : Value) (k : String) : Option Nat := (v.get? k).bind Value.getNat?

def Value.intAt? (v : Value) (k : String) : Option Int := (v.get? k).bind Value.getInt?

def Value.i64At? (v : Value) (k : String) : Option Int :=
  (v.intAt? k).filter fun n => decide (-Int.pow 2 63 ≤ n ∧ n < Int.pow 2 63)

def Value.boolAt? (v : Value) (k : String) : Option Bool := (v.get? k).bind Value.getBool?

def Value.arrayAt (v : Value) (k : String) : List Value := ((v.get? k).bind Value.getArray?).getD []

/-- The bytes under a name, as described above. -/
def Value.bytesAt (v : Value) (k : String) : List UInt8 :=
  match v.strAt? (k ++ "_b64") with
  | some s => (Base64.decode? s).getD []
  | none =>
    match v.get? (k ++ "_json") with
    | some j => Utf8.encode j.write
    | none => ((v.strAt? k).map Utf8.encode).getD []

def Value.statusAt (v : Value) (k : String) : UInt16 := UInt16.ofNat ((v.natAt? k).getD 0)

def Value.instantAt? (v : Value) (k : String) : Option Instant :=
  (v.strAt? k).bind Instant.readStamp?

/-- The start time of a script; when it names none, 2024-03-01T09:00:00Z. -/
def Value.start (v : Value) : Instant :=
  ((v.strAt? "start").getD "2024-03-01T09:00:00Z" |> Instant.readStamp?).getD Instant.epoch

/-- A number as a double. -/
def Value.toFloat? : Value → Option Float
  | .number (.nat n) => some (Float.ofNat n)
  | .number (.neg n) => some (-(Float.ofNat n))
  | .number (.float bits) => some (Float.ofBits bits)
  | .str "inf" => some (1.0 / 0.0)
  | .str "-inf" => some (-1.0 / 0.0)
  | .str "nan" => some (0.0 / 0.0)
  | _ => none

/-- A run failure from its specification `{kind, message?, status?, body?, type?}`; a kind that
names no failure is refused with the kind as written, `Some("…")` or `None`. -/
def Value.failure (v : Value) : Except String RunFailure :=
  let message := (v.strAt? "message").getD ""
  let kindOf := (v.strAt? "type").getD ""
  match v.strAt? "kind" with
  | some "Unauthorized" => .ok (.http .unauthorized)
  | some "BadRequest400" => .ok (.http (.badRequest message))
  | some "ServerDown" => .ok (.http .serverDown)
  | some "UnsuccessfulStatusCode" =>
    .ok (.http (.unsuccessfulStatus (v.statusAt "status") ((v.strAt? "body").getD "")))
  | some "NoOrBadNetwork" => .ok (.http (.noNetwork message))
  | some "NoResponse" => .ok (.http (.noResponse message))
  | some "Cancelled" => .ok (.http .cancelled)
  | some "RequestsPaused" => .ok (.http .paused)
  | some "HandlerNotFound" => .ok (.noHandler kindOf)
  | some "Decode" => .ok (.undecodable kindOf)
  | some "Encode" => .ok .unencodable
  | some k => .error ("bad http error kind Some(" ++ Text.quoted k ++ ")")
  | none => .error "bad http error kind None"

/-- A transport answer from its specification: a status, `{status, body}` or `{transport,
message?}`; a status beyond 16 bits keeps its low 16 bits. -/
def Value.answer? (v : Value) : Option (Except TransportFailure Response) :=
  match v with
  | .number (.nat n) => some (.ok ⟨UInt16.ofNat n, []⟩)
  | _ =>
    match v.strAt? "transport" with
    | some t =>
      let m := (v.strAt? "message").getD ""
      if t = "no_network" then some (.error (.noNetwork m))
      else if t = "timeout" then some (.error .timeout)
      else if t = "cancelled" then some (.error .cancelled)
      else some (.error (.other m))
    | none => (v.natAt? "status").map fun s => .ok ⟨UInt16.ofNat s, v.bytesAt "body"⟩

/-- A retry policy: `standard`, `none`, or the standard one with fields overridden. -/
def Value.policy (v : Option Value) : RetryPolicy :=
  match v with
  | some (.str "none") => RetryPolicy.noRetries
  | some (.object ms) =>
    let o := Value.object ms
    let p := RetryPolicy.standard
    let p := match o.natAt? "base_delay_ms" with
      | some n => { p with baseDelay := Duration.ofMillis n } | none => p
    let p := match o.natAt? "base_delay_nanos" with
      | some n => { p with baseDelay := ⟨n⟩ } | none => p
    let p := match (o.get? "multiplier").bind Value.toFloat? with
      | some f => { p with multiplier := f } | none => p
    let p := match o.natAt? "max_retries" with
      | some n => { p with maxRetries := n } | none => p
    let p := match o.natAt? "max_delay_ms" with
      | some n => { p with maxDelay := Duration.ofMillis n } | none => p
    match o.natAt? "max_delay_secs" with
      | some n => { p with maxDelay := Duration.ofSecs n } | none => p
  | _ => RetryPolicy.standard

/-- A request of a script: `{method, path, body?|body_b64?}`; the path is `/` when none is
given. It has a body when `body` or `body_b64` is given, read as bytes under `body` are. -/
def Value.request (v : Value) : Request :=
  let method := match v.strAt? "method" with
    | some "POST" => Method.post
    | some "PUT" => .put
    | some "DELETE" => .delete
    | _ => .get
  ⟨method, (v.strAt? "path").getD "/",
    if (v.get? "body").isSome || (v.get? "body_b64").isSome then some (v.bytesAt "body")
    else none⟩

/-- The span of `secs` seconds and `ms` milliseconds, either negative and each missing one
(or one a 64-bit signed integer does not hold) zero; a span out of a delta's range is the
message of its panic. -/
def Value.span (v : Value) : Except String Delta :=
  Delta.ofParts ((v.i64At? "secs").getD 0) ((v.i64At? "ms").getD 0)

def Value.secsSpan (v : Value) : Except String Delta :=
  (Delta.ofSeconds? ((v.i64At? "secs").getD 0)).elim (.error Delta.secondsOutOfBounds) .ok

def Value.recordKind (v : Value) : Store.RecordKind :=
  if v.strAt? "kind" == some "inventory" then .inventory else .tasks

/-- The time after a clock step: `clock_set` moves to the time `at`, `clock_advance` by its span;
a span out of range or a time past the calendar is a panic. -/
def Value.clockStep (step : Value) (now : Instant) : Except String Instant :=
  if step.strAt? "do" == some "clock_set" then .ok ((step.instantAt? "at").getD now)
  else do
    let d ← step.span
    (now.add? d).elim (.error calendarOverflow) .ok

end Outbox.Json

namespace Outbox.Scenario

open Outbox.Json Outbox.Http

def answers (vs : List Value) : List (Except TransportFailure Response) :=
  vs.filterMap Value.answer?

end Outbox.Scenario
