import Outbox.Scenario.Script
import Outbox.Scenario.Report
import Outbox.Sdk.Registry

/-!
A client talking to a scripted transport under a clock that moves only when a step moves it.

A request goes round by round: each round checks the pause, takes the transport's next answer
and decides. A retry goes on at once, since the clock stands still while the client sleeps; the
delays slept are kept with the request's outcome. Each
retried round uses up one scripted answer and the transport answers 200 once the script is spent,
so a request takes at most two rounds more than the script has answers.

Three scenarios run here: a client on its own, the registry's runner, and one SDK task.
-/

set_option autoImplicit false

namespace Outbox.Scenario

open Outbox.Json Outbox.Http Outbox.Time Outbox.Sdk

/-- The scripted answers of the transport, in order; when none is left it answers 200. -/
structure Transport where
  script : List (Except TransportFailure Response)

def Transport.answer (t : Transport) : Except TransportFailure Response × Transport :=
  match t.script with
  | a :: rest => (a, ⟨rest⟩)
  | [] => (.ok ⟨200, []⟩, t)

/-- A client, its clock and its transport. -/
structure Line where
  client : Client
  now : Instant
  transport : Transport

/-- What a request came to: its outcome, the line after it, the requests the transport received
and the delays slept between rounds, in order. -/
structure Exchanged where
  outcome : Outcome
  line : Line
  sent : List Request
  slept : List Duration

namespace Line

/-- Sends a request in at most `fuel` rounds, `retries` rounds having been retried. -/
def sendRounds : Nat → Line → Request → Nat → Exchanged
  | 0, l, _, _ => ⟨.ok (.error .cancelled), l, [], []⟩
  | fuel + 1, l, req, retries =>
    let (paused, client) := l.client.checkPaused l.now
    if paused then ⟨.ok (.error .paused), { l with client := client }, [], []⟩
    else
      let (answer, transport) := l.transport.answer
      let (attempt, client) := client.decide l.now retries answer
      let l := { l with client := client, transport := transport }
      match attempt with
      | .finished r => ⟨.ok r, l, [req], []⟩
      | .panicked m => ⟨.error m, l, [req], []⟩
      | .retryAfter d r =>
        let e := sendRounds fuel l req r
        { e with sent := req :: e.sent, slept := d :: e.slept }

def send (l : Line) (req : Request) : Exchanged :=
  sendRounds (l.transport.script.length + 2) l req 0

def respond (l : Line) (more : List (Except TransportFailure Response)) : Line :=
  { l with transport := ⟨l.transport.script ++ more⟩ }

/-- The line a script sets up: its policy, pause (`pause_secs`, 300 by default), answers and
start. -/
def ofScript (input : Value) : Line :=
  ⟨Client.new (Value.policy (input.get? "policy"))
      (Duration.ofSecs ((input.natAt? "pause_secs").getD 300)),
    input.start, ⟨answers (input.arrayAt "responses")⟩⟩

/-- Moves the clock by a delta, given as read from a step (or the message of the panic of reading
it); a time past the calendar is a panic. -/
def moveClock (l : Line) (d : Except String Delta) : Except String Line :=
  (d >>= fun d => (l.now.add? d).elim (.error calendarOverflow) .ok).map fun t => { l with now := t }

/-- Moves the clock by a step's `secs`; a panic leaves the clock where it was. -/
def advanceClock (l : Line) (step : Value) : Value × Line :=
  match l.moveClock step.secsSpan with
  | .ok l => (.null, l)
  | .error m => (panicValue m, l)

/-- A call on a line: a request, more answers for the transport, a pause, a look at the pause, a
move of the clock (by a delta, or the panic of reading one), a setting of the clock (none leaves
it), or a step of an unknown kind. -/
inductive Call where
  | request (req : Request)
  | respond (more : List (Except TransportFailure Response))
  | pause
  | isPaused
  | advance (d : Except String Delta)
  | setClock (t : Option Instant)
  | unknown (name : Option String)

/-- What a call came to: a request's outcome and the requests sent for it, whether a pause or a
move of the clock panicked, the answer to a look, or nothing to tell. -/
inductive Reply where
  | requested (outcome : Outcome) (sent : List Request)
  | paused (result : Except String Unit)
  | looked (paused : Bool)
  | moved (result : Except String Unit)
  | done
  | unknown (name : Option String)

/-- A call on the line, and what it came to. -/
def call (l : Line) : Call → Reply × Line
  | .request req =>
    let e := l.send req
    (.requested e.outcome e.sent, e.line)
  | .respond more => (.done, l.respond more)
  | .pause =>
    match l.client.pauseRequests l.now with
    | .ok c => (.paused (.ok ()), { l with client := c })
    | .error m => (.paused (.error m), l)
  | .isPaused =>
    let (paused, c) := l.client.checkPaused l.now
    (.looked paused, { l with client := c })
  | .advance d =>
    match l.moveClock d with
    | .ok l => (.moved (.ok ()), l)
    | .error m => (.moved (.error m), l)
  | .setClock t => (.done, { l with now := t.getD l.now })
  | .unknown name => (.unknown name, l)

end Line

def sentValue (result : Value) (sent : List Request) : Value :=
  .object [("result", result), ("sent", .array (sent.map requestValue))]

def responseValue (r : Response) : Value :=
  .object [("ok", .object [("status", .nat r.status.toNat), ("body", .str (Utf8.toTextLossy r.body))])]

def outcomeValue : Outcome → Value
  | .ok (.ok r) => responseValue r
  | .ok (.error f) => failureValue (.http f)
  | .error m => panicValue m

/-- The call a step of a client script makes. -/
def Line.Call.ofStep (step : Value) : Line.Call :=
  match step.strAt? "do" with
  | some "request" => .request step.request
  | some "respond" => .respond (answers (step.arrayAt "responses"))
  | some "pause" => .pause
  | some "is_paused" => .isPaused
  | some "clock_advance" => .advance step.secsSpan
  | some "clock_set" => .setClock (step.instantAt? "at")
  | name => .unknown name

/-- A reply as a step's result, with the requests sent. -/
def Line.Reply.value : Line.Reply → Value × List Request
  | .requested o sent => (outcomeValue o, sent)
  | .paused (.ok ()) => (.null, [])
  | .paused (.error m) => (panicValue m, [])
  | .looked b => (.bool b, [])
  | .moved (.ok ()) => (.null, [])
  | .moved (.error m) => (panicValue m, [])
  | .done => (.null, [])
  | .unknown name => (unknownStep name, [])

/-- Steps driving a client. -/
def clientSteps : Line → List Value → List Value
  | _, [] => []
  | l, step :: rest =>
    let (reply, l) := l.call (Line.Call.ofStep step)
    let (result, sent) := reply.value
    sentValue result sent :: clientSteps l rest

def clientCheck (input : Value) : Value :=
  .object [("steps", .array (clientSteps (Line.ofScript input) (input.arrayAt "steps")))]

/-- Runs a stored task of a kind through the registry and the client: the outcome, the line
after it and the requests sent. -/
def runTask (reg : Registry) (l : Line) (kind : String) (data : List UInt8) :
    Except String (Except RunFailure Unit) × Line × List Request :=
  match reg.prepare kind data with
  | .error f => (.ok (.error f), l, [])
  | .ok req =>
    let e := l.send req
    (e.outcome.map fun r => (r.map fun _ => ()).mapError RunFailure.http, e.line, e.sent)

/-- Steps driving the registry's runner. -/
def runnerSteps (reg : Registry) : Line → List Value → List Value
  | _, [] => []
  | l, step :: rest =>
    let (result, l, sent) : Value × Line × List Request :=
      match step.strAt? "do" with
      | some "run" =>
        let (o, l, sent) := runTask reg l ((step.strAt? "type").getD "") (step.bytesAt "data")
        (match o with
          | .ok (.ok ()) => .object [("ok", .bool true)]
          | .ok (.error f) => failureValue f
          | .error m => panicValue m, l, sent)
      | some "respond" => (.null, l.respond (answers (step.arrayAt "responses")), [])
      | some "clock_advance" =>
        let (v, l) := l.advanceClock step
        (v, l, [])
      | name => (unknownStep name, l, [])
    sentValue result sent :: runnerSteps reg l rest

/-- The registry a script names: the SDK tasks when it names `sdk` or nothing, else none. -/
def scriptRegistry (input : Value) : Registry :=
  if (input.strAt? "registry").getD "sdk" == "sdk" then
    (Registry.empty.registerSdk).toOption.getD Registry.empty
  else Registry.empty

def runnerCheck (input : Value) : Value :=
  let reg := scriptRegistry input
  .object [("registered", textsValue reg.sorted),
    ("steps", .array (runnerSteps reg (Line.ofScript input) (input.arrayAt "steps")))]

/-- The payload of an SDK task script: the compact text of `payload` (null included), the base64
`payload_b64`, or the bytes under `payload_raw`, the first present. -/
def payloadBytes (input : Value) : List UInt8 :=
  match input.get? "payload" with
  | some v => Utf8.encode v.write
  | none =>
    match input.strAt? "payload_b64" with
    | some s => (Base64.decode? s).getD []
    | none => input.bytesAt "payload_raw"

/-- One SDK task read from its payload: the request it sends, its groups and its stored form. -/
def sdkTaskCheck (input : Value) : Value :=
  let kind := (input.strAt? "type").getD ""
  let reg := (Registry.empty.registerSdk).toOption.getD Registry.empty
  match reg.prepare kind (payloadBytes input), SdkTask.decode? kind (payloadBytes input) with
  | .ok req, some t =>
    .object [("request", requestValue req), ("group_start", Value.opt .str t.groupStart),
      ("blocking_groups", textsValue t.blockingGroups), ("encoded", .str t.encode)]
  | .error f, _ => failureValue f
  | .ok _, none => failureValue (.undecodable kind)

end Outbox.Scenario
