import Outbox.Scenario.Storage
import Outbox.Queue.Build

/-!
Scenarios that drive a whole outbox: tasks are added, and an addition that brings the inventory to
the configured size starts a pass at once, while a smaller one arms the delay timer unless it is
armed already. Passes also start on request, awaited (`run`) or in the background (`run_bg`),
and virtual time passes only while a step waits for something. Reopening builds a new outbox
over the same store, clock and ids, with a new client; a pass the old one started still runs.

The timer scenario drives the delay timer alone.
-/

set_option autoImplicit false

namespace Outbox.Scenario

open Outbox.Json Outbox.Queue Outbox.Task Outbox.Time Outbox.Http Outbox.Sdk

/-- The configuration of a queue script: its `config`, each setting defaulting to site
`scenario`, ten tasks, a delay of 30000 ms, an expiry of 259200 s and a pause of 300 s. -/
def queueConfig (v : Option Value) : Config :=
  let o := v.getD (.object [])
  ⟨(o.strAt? "site_id").getD "scenario", (o.natAt? "min_tasks_before_run").getD 10,
    Duration.ofMillis ((o.natAt? "run_delay_ms").getD 30000),
    Duration.ofSecs ((o.natAt? "task_expiry_secs").getD 259200),
    Duration.ofSecs ((o.natAt? "pause_secs").getD 300), none⟩

/-- How a queue script runs its tasks: the scripted runner (none), or a registry. -/
def queueRegistry? (input : Value) : Option (Except RegistryError Registry) :=
  match input.strAt? "runner" with
  | some "sdk" => some Registry.empty.registerSdk
  | some "sdk_twice" => some (Registry.empty.registerSdk >>= Registry.registerSdk)
  | some "registry_empty" => some (.ok Registry.empty)
  | _ => none

/-- The kinds a queue script expects to be registered, if it names any. -/
def expectedKinds? (input : Value) : Option (List String) :=
  (input.get? "expect_tasks").map fun v => (v.getArray?.getD []).filterMap Value.getStr?

def BuildError.kindName : BuildError → String
  | .alreadyRegistered _ => "AlreadyRegistered"
  | .invalidConfig _ => "InvalidConfig"
  | .missingTaskTypes _ => "MissingTaskTypes"

def buildErrorValue (e : BuildError) : Value := errorValue (BuildError.kindName e) e.message

def statusValue (siteId : String) (count : Nat) : Value :=
  .object [("queue_id", .str siteId), ("num_tasks_in_queue", .nat count)]

/-- A task's detail as a value: its record, and the creation time of the entry it was asked for
by. -/
def detailValue (e : Entry) (r : Record) : Value :=
  .object [("storage_id", .str r.id.text), ("task_type", .str r.kind), ("data", bytesValue r.data),
    ("total_runs", .nat r.runs), ("created_at", .str e.createdAt.stamp)]

namespace World

/-- Builds an outbox of a configuration, policy and registry (checked already) as the newest
instance, and sweeps its expired tasks. -/
def build (w : World) (c : Config) (policy : RetryPolicy) (reg : Registry) : World :=
  let i : Instance := ⟨c.minTasks, c.runDelay, Shelf.fresh c.siteId c.expiryDelta,
    Selection.fresh, Flight.idle, Debounce.idle, Client.new policy c.pause, reg⟩
  let w := { w with instances := w.instances ++ [i] }
  match w.onShelf w.newest fun sh d => sh.deleteExpired d with
  | some (_, w) => w
  | none => w

/-- The status of instance `q`: its site and the size of its inventory. -/
def statusOf (w : World) (q : Nat) : Option (Value × World) :=
  match w.inst q, w.inventory? q with
  | some i, some (inv, w) => some (statusValue i.shelf.siteId inv.length, w)
  | _, _ => none

/-- After a task was added to instance `q`, leaving `count` tasks: a pass starts at once when
`count` reaches the configured size (the timer is cancelled), else the timer is armed unless it
is armed already. -/
def afterAdd (w : World) (q count : Nat) : World :=
  match w.inst q with
  | none => w
  | some i =>
    if count ≥ i.minTasks then ((w.cancelTimer (.queue q)).2).trigger q .nothing
    else (w.schedule (.queue q) i.runDelay).2

/-- Adds a task to the newest instance, which then starts a pass or arms its timer as `afterAdd`
says when the task was stored. -/
def add (w : World) (kind : String) (data : List UInt8) (groupStart : Option String)
    (groups : List String) : Option (Created × World) :=
  let q := w.newest
  (w.onShelf q fun sh d => sh.create d kind data groupStart groups).map fun (c, w) =>
    (c, if c.success then w.afterAdd q c.inventory.length else w)

/-- Adds a task to the newest instance: the answer and the entries created so far. -/
def addTask (w : World) (created : List Entry) (kind : String) (data : List UInt8)
    (groupStart : Option String) (groups : List String) : Value × World × List Entry :=
  match w.add kind data groupStart groups, w.inst w.newest with
  | some (c, w), some i =>
    (.object [("success", .bool c.success),
        ("status", statusValue i.shelf.siteId c.inventory.length),
        ("created", Value.opt Entry.toValue c.created)], w, created ++ c.created.toList)
  | _, _ => (unknownTask, w, created)

/-- Adds an SDK task given by its kind and payload (taken as the value read, not read again),
stored in its own encoding with its own groups. -/
def addSdkTask (w : World) (created : List Entry) (kind : String) (payload : Value) :
    Value × World × List Entry :=
  if !sdkKinds.contains kind then
    (errorValue "bad_input" ("unknown sdk type " ++ Text.quoted kind), w, created)
  else
    match SdkTask.ofValue? kind payload with
    | none =>
      (errorValue "bad_payload" "payload does not decode", w, created)
    | some t => w.addTask created kind (Utf8.encode t.encode) t.groupStart t.blockingGroups

/-- Reopens: builds a new outbox from the step's configuration (the script's when it gives none),
then drops the old one, whose timer no longer fires. A build error leaves the old one. -/
def reopen (w : World) (input step : Value) : Value × World :=
  let c := queueConfig ((step.get? "config").orElse fun _ => input.get? "config")
  let registry := queueRegistry? input
  match checkBuild c registry (expectedKinds? input) with
  | .error e => (buildErrorValue e, w)
  | .ok () =>
    let old := w.newest
    let reg := match registry with | some (.ok r) => r | _ => Registry.empty
    let w := ((w.build c (Value.policy (input.get? "policy")) reg).cancelTimer (.queue old)).2
    (w.statusOf w.newest).getD (unknownTask, w)

/-- The entry a step names: by `index` in the current inventory, or by reference. -/
def stepEntry? (w : World) (created : List Entry) (step : Value) : Option Entry × World :=
  match step.natAt? "index" with
  | some k =>
    match w.inventory? w.newest with
    | some (inv, w) => (inv[k]?, w)
    | none => (none, w)
  | none => ((w.stepId? step).map (entryOf created), w)

/-- A step of a queue scenario, the `index`-th; `input` is the whole script, for reopening. -/
def queueStep (input : Value) (w : World) (created : List Entry) (index : Nat) (step : Value) :
    Value × World × List Entry :=
  let q := w.newest
  let done (r : Option (Value × World)) : Value × World × List Entry :=
    match r with
    | some (v, w) => (v, w, created)
    | none => (unknownTask, w, created)
  match step.strAt? "do" with
  | some "add" =>
    w.addTask created ((step.strAt? "type").getD "") (step.bytesAt "data")
      (step.strAt? "group_start") ((step.arrayAt "blocking").filterMap Value.getStr?)
  | some "add_sdk" =>
    w.addSdkTask created ((step.strAt? "type").getD "") ((step.get? "payload").getD .null)
  | some "run" => (.null, w.runUntil (.pass q false), created)
  | some "run_bg" => (.null, w.trigger q (.label index), created)
  | some "wait" => (.null, w.runUntil (.sleep ((step.natAt? "ms").getD 0) false), created)
  | some "inventory" => done ((w.inventory? q).map fun (inv, w) => (entriesValue inv, w))
  | some "status" => done (w.statusOf q)
  | some "detail" =>
    match w.stepEntry? created step with
    | (some e, w) => (Value.opt (detailValue e) (Shelf.get w.depot e.id), w, created)
    | (none, w) => (unknownTask, w, created)
  | some "delete" =>
    match w.stepEntry? created step with
    | (some e, w) =>
      done ((w.onShelf q fun sh d => sh.delete d e.id).map fun (ok, w) => (.bool ok, w))
    | (none, w) => (unknownTask, w, created)
  | some "delete_expired" =>
    done ((w.onShelf q fun sh d => sh.deleteExpired d).map fun (es, w) => (idsValue es, w))
  | some "reopen" =>
    let (v, w) := w.reopen input step
    (v, w, created)
  | _ =>
    match w.surroundingsStep? step with
    | some (v, w) => (v, w, created)
    | none => (unknownStep (step.strAt? "do"), w, created)

/-- Runs the steps of a queue scenario from the `index`-th, answering each. -/
def queueSteps (input : Value) : World → List Entry → Nat → List Value → List Value
  | _, _, _, [] => []
  | w, created, index, step :: rest =>
    let (result, w, created) := queueStep input w.clearLogs created index step
    w.report result true :: queueSteps input w created (index + 1) rest

end World

/-- A queue scenario: a build error, or the answers of its steps. -/
def queueCheck (input : Value) : Value :=
  let c := queueConfig (input.get? "config")
  let registry := queueRegistry? input
  match checkBuild c registry (expectedKinds? input) with
  | .error e => buildErrorValue e
  | .ok () =>
    let depot : Depot := ⟨Store.MemoryStore.empty, input.start, []⟩
    let kind : RunnerKind := if registry.isSome then .registry else .scripted
    let w := (World.init depot kind ⟨answers (input.arrayAt "responses")⟩).preload
      (input.arrayAt "preload")
    let reg := match registry with | some (.ok r) => r | _ => Registry.empty
    let w := w.build c (Value.policy (input.get? "policy")) reg
    .object [("steps", .array (World.queueSteps input w [] 0 (input.arrayAt "steps")))]

namespace World

/-- A call of the timer scenario on the probe timer. -/
inductive ProbeCall where
  /-- Schedules a firing after `delay`, unless one is pending. -/
  | schedule (delay : Duration)
  | cancel
  | isScheduled
  /-- Waits `ms` milliseconds of virtual time. -/
  | sleep (ms : Nat)

/-- The call a step of the timer scenario makes: a sleep unless it says otherwise. -/
def ProbeCall.ofStep (step : Value) : ProbeCall :=
  match step.strAt? "do" with
  | some "schedule" => .schedule (Duration.ofMillis ((step.natAt? "delay_ms").getD 0))
  | some "cancel" => .cancel
  | some "is_scheduled" => .isScheduled
  | _ => .sleep ((step.natAt? "ms").getD 0)

/-- A call on the probe timer, the `index`-th step, whose firing records the index of the step
that scheduled it: its answer, and the world after. -/
def probeCall (w : World) (index : Nat) : ProbeCall → Value × World
  | .schedule delay =>
    let r := w.schedule (.probe index) delay
    (.bool r.1, r.2)
  | .cancel =>
    let r := w.cancelTimer (.probe index)
    (.bool r.1, r.2)
  | .isScheduled => (.bool w.probe.scheduled, w)
  | .sleep ms => (.null, w.runUntil (.sleep ms false))

def probeStep (w : World) (index : Nat) (step : Value) : Value × World :=
  w.probeCall index (ProbeCall.ofStep step)

/-- Runs the steps of the timer scenario from the `index`-th, answering each. -/
def probeSteps : World → Nat → List Value → List Value
  | _, _, [] => []
  | w, index, step :: rest =>
    let (result, w) := w.clearLogs.probeStep index step
    .object [("result", result), ("fired", .array (w.fired.map Value.nat))] ::
      probeSteps w (index + 1) rest

end World

def timerCheck (input : Value) : Value :=
  let w := World.init ⟨Store.MemoryStore.empty, Instant.epoch, []⟩ .scripted ⟨[]⟩
  .object [("steps", .array (w.probeSteps 0 (input.arrayAt "steps")))]

end Outbox.Scenario
