import Outbox.Scenario.Surroundings
import Outbox.Scenario.Agenda

/-!
Scenarios that drive a task shelf directly: creating, reading, updating and deleting tasks,
writing the inventory, sweeping expired tasks, and running passes of the scripted runner, awaited
one at a time. Reopening builds a fresh shelf over the same store, clock and ids, with the site
and expiry the step names, read as a script's are (site `test-site` and three days when it names
none); later steps act on the newest shelf.
-/

set_option autoImplicit false

namespace Outbox.Scenario

open Outbox.Json Outbox.Queue Outbox.Task Outbox.Time Outbox.Http Outbox.Sdk

/-- How long tasks are kept, as a script names it: `max`, `min`, or the span `{secs, ms}`, where
any other value has neither and keeps tasks for no time; three days when it names none. A span
out of a delta's range is the message of its panic. -/
def expiryOf (v : Option Value) : Except String Delta :=
  match v with
  | none => .ok ⟨(3 * secsPerDay * nanosPerSec : Nat)⟩
  | some (.str "max") => .ok Delta.max
  | some (.str "min") => .ok Delta.min
  | some o => o.span

/-- An instance holding a shelf and nothing that starts passes by itself. -/
def shelfInstance (sh : Shelf) : Instance :=
  ⟨0, Duration.zero, sh, Selection.fresh, Flight.idle, Debounce.idle,
    Client.new RetryPolicy.noRetries Duration.zero, Registry.empty⟩

def idsValue (es : List Entry) : Value := .array (es.map fun e => .str e.id.text)

def entriesValue (es : List Entry) : Value := .array (es.map Entry.toValue)

def recordValue (r : Record) : Value :=
  .object [("storage_id", .str r.id.text), ("type", .str r.kind), ("data", bytesValue r.data),
    ("total_runs", .nat r.runs)]

def createdValue (c : Created) : Value :=
  .object [("success", .bool c.success), ("inventory", idsValue c.inventory),
    ("created", Value.opt Entry.toValue c.created)]

/-- The entry a step's reference stands for: the entry made when its task was created, or one
created at the epoch. -/
def entryOf (created : List Entry) (id : TaskId) : Entry :=
  (created.find? (·.id == id)).getD ⟨id, "", Instant.epoch, none, [], 0⟩

/-- An inventory item of `save_inventory`: the `k`-th task created, or an entry written out. -/
def inventoryItem? (w : World) (created : List Entry) (v : Value) : Option Entry :=
  match v.getNat? with
  | some k => w.depot.issued[k]?.map (entryOf created)
  | none => (Json.readText v.write).bind Entry.read?

def unknownTask : Value := errorValue "bad_input" "unknown task reference"

namespace World

/-- Runs a pass of instance `q` and awaits it: null, or the panic that ended it. -/
def awaitPass (w : World) (q : Nat) : Value × World :=
  let (id, w) := w.spawn (.pass q (.choose PassState.start))
  let w := w.runUntil (.job id)
  match (w.slot id).bind (·.finished) with
  | some (some m) => (panicValue m, w)
  | _ => (.null, w)

/-- A step of a storage scenario on the newest shelf; `created` holds the entries of the tasks
created so far. -/
def shelfStep (w : World) (created : List Entry) (step : Value) : Value × World × List Entry :=
  let q := w.newest
  let done (r : Option (Value × World)) : Value × World × List Entry :=
    match r with
    | some (v, w) => (v, w, created)
    | none => (unknownTask, w, created)
  let withId (f : TaskId → Option (Value × World)) : Value × World × List Entry :=
    match w.stepId? step with
    | some id => done (f id)
    | none => (unknownTask, w, created)
  match step.strAt? "do" with
  | some "create" =>
    match w.onShelf q fun sh d => sh.create d ((step.strAt? "type").getD "") (step.bytesAt "data")
        (step.strAt? "group_start") ((step.arrayAt "blocking").filterMap Value.getStr?) with
    | some (c, w) => (createdValue c, w, created ++ c.created.toList)
    | none => (unknownTask, w, created)
  | some "get_inventory" =>
    done ((w.inventory? q).map fun (inv, w) => (entriesValue inv, w))
  | some "save_inventory" =>
    let items := (step.arrayAt "items").filterMap (inventoryItem? w created)
    done ((w.onShelf q fun sh d => sh.writeInventory d items).map fun (ok, w) => (.bool ok, w))
  | some "update" =>
    withId fun id =>
      let (ok, d) := Shelf.update w.depot id ((step.natAt? "total_runs").getD 0)
      some (.bool ok, { w with depot := d })
  | some "get" => withId fun id => some (Value.opt recordValue (Shelf.get w.depot id), w)
  | some "read_task" =>
    withId fun id =>
      some (match Shelf.readTask w.depot id with
        | .found r => .object [("found", recordValue r)]
        | .missing => .str "missing"
        | .unreadable => .str "unreadable", w)
  | some "delete" =>
    withId fun id => (w.onShelf q fun sh d => sh.delete d id).map fun (ok, w) => (.bool ok, w)
  | some "delete_expired" =>
    done ((w.onShelf q fun sh d => sh.deleteExpired d).map fun (es, w) => (idsValue es, w))
  | some "pass" => done (some (w.awaitPass q))
  | some "reopen" =>
    match expiryOf (step.get? "expiry") with
    | .ok expiry =>
      let sh := Shelf.fresh ((step.strAt? "site_id").getD "test-site") expiry
      (.null, { w with instances := w.instances ++ [shelfInstance sh] }, created)
    | .error m => (panicValue m, w, created)
  | _ =>
    match w.surroundingsStep? step with
    | some (v, w) => (v, w, created)
    | none => (unknownStep (step.strAt? "do"), w, created)

def shelfSteps : World → List Entry → List Value → List Value
  | _, _, [] => []
  | w, created, step :: rest =>
    let (result, w, created) := w.clearLogs.shelfStep created step
    w.report result false :: shelfSteps w created rest

end World

/-- A storage scenario; an expiry out of range ends it at once with its panic. -/
def storageCheck (input : Value) : Value :=
  let depot : Depot := ⟨Store.MemoryStore.empty, input.start, []⟩
  let w := (World.init depot .scripted ⟨answers (input.arrayAt "responses")⟩).preload
    (input.arrayAt "preload")
  match expiryOf (input.get? "expiry") with
  | .ok expiry =>
    let sh := Shelf.fresh ((input.strAt? "site_id").getD "test-site") expiry
    let w := { w with instances := [shelfInstance sh] }
    .object [("steps", .array (w.shelfSteps [] (input.arrayAt "steps")))]
  | .error m => panicValue m

end Outbox.Scenario
