import Outbox.Scenario.Script
import Outbox.Scenario.Report
import Outbox.Queue.Selection
import Outbox.Queue.Flight
import Outbox.Store.Files
import Outbox.Json.Read
import Outbox.Scenario.Exchange
import Outbox.Scenario.Queue

/-!
Answering a scenario. The operation its `op` member names decides which part of the outbox runs.

Most scenarios check one part on its own: retry delays, configuration, task ids, failure classes,
the stored formats, task selection, the single flight of passes, and the directory store. The
others drive requests, SDK tasks, storage, whole queues and the timer (the scenario modules).
-/

set_option autoImplicit false

namespace Outbox.Scenario

open Outbox.Json Outbox.Time Outbox.Task Outbox.Http Outbox.Queue Outbox.Store

/-- The delays of a retry policy for the given retries. -/
def retryDelays (input : Value) : Value :=
  let p := Value.policy (input.get? "policy")
  .object [("delays", .array ((input.arrayAt "retries").map fun r =>
    match r.getNat? with
    | some n => Value.opt durationValue (p.nextDelay n)
    | none => .null))]

/-- A configuration read from named settings. -/
def configuration (input : Value) : Value :=
  let env := (input.get? "env").getD (.object [])
  match Config.ofLookup (fun name => env.strAt? name) with
  | .error e => errorValue (ConfigError.kindName e) e.message
  | .ok c =>
    .object [("site_id", .str c.siteId), ("min_tasks_before_run", .nat c.minTasks),
      ("run_delay", durationValue c.runDelay), ("task_expiry", durationValue c.taskExpiry),
      ("unauthorized_pause", durationValue c.pause),
      ("storage_dir", Value.opt .str c.storageDir),
      ("task_expiry_chrono", deltaValue c.expiryDelta)]

def idValue (id : TaskId) : Value :=
  .object [("id", .str id.text), ("timestamp_ms", .nat id.timestampMs), ("json", .str id.text)]

/-- A task id read from text, or made from its parts. -/
def taskIdCheck (input : Value) : Value :=
  match input.strAt? "s" with
  | some s =>
    match TaskId.read? s with
    | .ok id => idValue id
    | .error e => errorValue "DecodeError" e.message
  | none =>
    idValue (TaskId.ofParts ((input.natAt? "timestamp_ms").getD 0) ((input.natAt? "random").getD 0))

def classify (input : Value) : Value :=
  match ((input.get? "error").getD .null).failure with
  | .ok f => failureValue f
  | .error m => errorValue "bad_input" m

/-- Stored text read as an entry, an inventory or a record, and written again. -/
def codecCheck (input : Value) : Value :=
  let bytes := Utf8.encode ((input.strAt? "json").getD "")
  let decodeFailure : Value := .object [("error", .str "decode")]
  match input.strAt? "what" with
  | some "metadata" =>
    match decodeBytes? Entry.read? bytes with
    | some e => .object [("encoded", .str e.encode)]
    | none => decodeFailure
  | some "inventory" =>
    match decodeBytes? readInventory bytes with
    | some es => .object [("encoded", .str (encodeInventory es))]
    | none => decodeFailure
  | _ =>
    match decodeBytes? Record.read? bytes with
    | some r => .object [("encoded", .str r.encode), ("data", bytesValue r.data)]
    | none => decodeFailure

/-- An inventory entry of a selection script: a number `n` (the id with time `n`), or an object
with an id (a number or a text) and groups. -/
def selectionEntry (v : Value) : Entry :=
  let idOf (v : Value) : TaskId :=
    match v with
    | .number (.nat n) => TaskId.ofParts n 0
    | .str s => match TaskId.read? s with | .ok id => id | .error _ => TaskId.ofParts 0 0
    | _ => TaskId.ofParts 0 0
  match v with
  | .object _ =>
    ⟨idOf ((v.get? "id").getD .null), "t", Instant.epoch, v.strAt? "group_start",
      tagSet ((v.arrayAt "group_member").filterMap Value.getStr?), 0⟩
  | _ => ⟨idOf v, "t", Instant.epoch, none, [], 0⟩

/-- Steps of task selection, each answering the chosen id and the excluded groups; a last entry
given as null is none. -/
def selectionSteps : Selection → List Value → List Value
  | _, [] => []
  | s, step :: rest =>
    let (result, s) :=
      if step.strAt? "do" == some "reset" then (Value.null, Selection.fresh)
      else
        let inv := (step.arrayAt "inventory").map selectionEntry
        let entryAt (k : String) : Option Entry :=
          match step.get? k with
          | none | some .null => none
          | some v => some (selectionEntry v)
        let (next, s) := s.next inv (entryAt "last_ran") (entryAt "last_failed")
        (Value.opt (fun e => .str e.id.text) next, s)
    .object [("result", result), ("excluded_groups", textsValue s.excluded)] ::
      selectionSteps s rest

def selectionCheck (input : Value) : Value :=
  .object [("steps", .array (selectionSteps Selection.fresh (input.arrayAt "steps")))]

/-- A callback of the flight script: records its step, and may ask for the next pass. -/
inductive FlightCall where
  | record (step : Nat) (restart : Bool)
  | restarted (step : Nat)

/-- What a callback of the flight script does when called: one that restarts asks for the next
pass, leaving a callback that records the restart. -/
def FlightCall.does : FlightCall → List (Flight.Act FlightCall)
  | .record i true => [.ask (.restarted i)]
  | _ => []

/-- What the flight script records of a note of a release: each callback called, and the answer
to the ask of a callback that restarts. -/
def FlightCall.noteValue : Flight.Note FlightCall → Option Value
  | .called (.record i _) => some (.nat i)
  | .called (.restarted i) => some (.str (toString i ++ ".restart"))
  | .asked _ joined => some (.object [("restart_already_running", .bool joined)])
  | _ => none

def flightCall (i : Nat) (step : Value) : Flight.Call FlightCall :=
  match step.strAt? "do" with
  | some "start" => .act (.ask (.record i ((step.boolAt? "restart").getD false)))
  | some "complete" => .release
  | _ => .act .look

/-- The answer to a step of the flight script from what it was told: the answer to its ask or
look, or none for a release together with what the release's callbacks recorded. -/
def flightAnswer : List (Flight.Note FlightCall) → Value × List Value
  | [.asked _ joined] => (.bool joined, [])
  | [.looked running] => (.bool running, [])
  | .began :: notes => (.null, notes.filterMap FlightCall.noteValue)
  | _ => (.null, [])

/-- Steps of the flight script. -/
def flightSteps : Nat → Flight FlightCall → List Value → List Value
  | _, _, [] => []
  | i, f, step :: rest =>
    let (notes, f) := f.call FlightCall.does (flightCall i step)
    let (result, fired) := flightAnswer notes
    .object [("result", result), ("fired", .array fired), ("is_running", .bool f.running)] ::
      flightSteps (i + 1) f rest

def flightCheck (input : Value) : Value :=
  .object [("steps", .array (flightSteps 0 Flight.idle (input.arrayAt "steps")))]

/-- Steps against a directory store. -/
def fileSteps : FileStore → List Value → List Value
  | _, [] => []
  | s, step :: rest =>
    let kind := step.recordKind
    let key := (step.strAt? "id").getD ""
    let (result, s) : Value × FileStore :=
      match step.strAt? "do" with
      | some "save" =>
        match s.save kind key (step.bytesAt "data") with
        | (.ok (), s) => (.null, s)
        | (.error e, s) => (storeFailureValue e, s)
      | some "get" =>
        match s.get kind key with
        | .ok b => (Value.opt bytesValue b, s)
        | .error e => (storeFailureValue e, s)
      | _ =>
        match s.delete kind key with
        | .ok (existed, s) => (.bool existed, s)
        | .error e => (storeFailureValue e, s)
    .object [("result", result)] :: fileSteps s rest

def fileCheck (input : Value) : Value :=
  .object [("steps", .array (fileSteps FileStore.empty (input.arrayAt "steps")))]

/-- The answer to a scenario. -/
def answer (input : Value) : Value :=
  match input.strAt? "op" with
  | some "retry_delay" => retryDelays input
  | some "config" => configuration input
  | some "task_id" => taskIdCheck input
  | some "classify" => classify input
  | some "codec" => codecCheck input
  | some "query" => selectionCheck input
  | some "request_manager" => flightCheck input
  | some "file_store" => fileCheck input
  | some "http" => clientCheck input
  | some "runner" => runnerCheck input
  | some "sdk_task" => sdkTaskCheck input
  | some "storage" => storageCheck input
  | some "queue" => queueCheck input
  | some "timer" => timerCheck input
  | _ => errorValue "bad_input" "unknown op"

/-- The answer to a line of input: a scenario, or an error when the line is no JSON document. -/
def answerLine (line : List UInt8) : Value :=
  match (Json.read line).bind Node.document? with
  | some input => answer input
  | none => errorValue "bad_input" "not a JSON document"

end Outbox.Scenario
