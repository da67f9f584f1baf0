import Outbox.Scenario.World
import Outbox.Time.Stamp

/-!
Steps that act on what surrounds the outbox rather than on the outbox itself: the clock, the
record store (directly, and by making its reads or writes fail), the scripted runner's answers and
delay, and the transport's script. Scenarios that drive an outbox share them, and every step of
such a scenario is reported with the runs logged during it and the number of records of each
kind then in the store.
-/

set_option autoImplicit false

namespace Outbox.Scenario

open Outbox.Json Outbox.Queue Outbox.Store Outbox.Task

/-- What a scripted runner is told to do for a kind: `panic`, fail as an error spec says, or
succeed (`ok`, null, or anything else, given as none); an error spec of no known kind is
refused. -/
def scriptedOf (v : Value) : Except String (Option Scripted) :=
  match v with
  | .str "panic" => .ok (some .panic)
  | .object _ => v.failure.map fun f => some (.fail f)
  | _ => .ok none

namespace World

def modifyStore (w : World) (f : MemoryStore → MemoryStore) : World :=
  { w with depot := { w.depot with store := f w.depot.store } }

/-- A step on the surroundings: its result and the world after it; none when the step is of
another kind. -/
def surroundingsStep? (w : World) (step : Value) : Option (Value × World) :=
  let kind := step.recordKind
  let key := (step.strAt? "id").getD ""
  let fail := (step.boolAt? "fail").getD true
  match step.strAt? "do" with
  | some "clock_advance" | some "clock_set" =>
    some (match step.clockStep w.depot.clock with
      | .ok t => (.str t.stamp, { w with depot := { w.depot with clock := t } })
      | .error m => (panicValue m, w))
  | some "fail_writes" => some (.null, w.modifyStore (·.setFailingWrites kind fail))
  | some "fail_reads" => some (.null, w.modifyStore (·.setFailingReads kind fail))
  | some "store_put" =>
    some (match w.depot.store.save kind key (step.bytesAt "data") with
      | .ok s => (.null, w.modifyStore fun _ => s)
      | .error e => (storeFailureValue e, w))
  | some "store_get" =>
    some (match w.depot.store.get kind key with
      | .ok b => (Value.opt bytesValue b, w)
      | .error e => (storeFailureValue e, w))
  | some "store_delete" =>
    some (match w.depot.store.delete kind key with
      | .ok (existed, s) => (.bool existed, w.modifyStore fun _ => s)
      | .error e => (storeFailureValue e, w))
  | some "set_result" =>
    match scriptedOf ((step.get? "result").getD .null) with
    | .ok a => some (.null, { w with runner := w.runner.setAnswer ((step.strAt? "type").getD "") a })
    | .error m => some (errorValue "bad_input" m, w)
  | some "set_delay" =>
    some (.null, { w with runner := { w.runner with delayMs := (step.natAt? "ms").getD 0 } })
  | some "respond" =>
    let script := w.transport.script ++ answers (step.arrayAt "responses")
    some (.null, { w with transport := ⟨script⟩ })
  | _ => none

/-- Saves the records a script preloads, `{kind, id, data…}` each, before anything else runs. -/
def preload (w : World) (records : List Value) : World :=
  records.foldl (fun w r =>
    match w.depot.store.save r.recordKind ((r.strAt? "id").getD "") (r.bytesAt "data") with
    | .ok s => w.modifyStore fun _ => s
    | .error _ => w) w

def clearLogs (w : World) : World := { w with runLog := [], fired := [] }

/-- A step's answer: its result, the runs logged during it, the labels fired during it when
`callbacks` asks for them, and the number of records of each kind. -/
def report (w : World) (result : Value) (callbacks : Bool) : Value :=
  .object ([("result", result), ("runs", .array (w.runLog.map Logged.toValue))] ++
    (if callbacks then [("callbacks", .array (w.fired.map Value.nat))] else []) ++
    [("task_records", .nat (w.depot.store.count .tasks)),
      ("inventory_records", .nat (w.depot.store.count .inventory))])

def newest (w : World) : Nat := w.instances.length - 1

/-- Runs the shelf operation `f` of instance `q`, keeping the shelf and depot it leaves. -/
def onShelf {α : Type} (w : World) (q : Nat) (f : Shelf → Depot → α × Shelf × Depot) :
    Option (α × World) :=
  (w.inst q).map fun i =>
    let (a, sh, d) := f i.shelf w.depot
    (a, { w with depot := d }.modifyInst q fun i => { i with shelf := sh })

def inventory? (w : World) (q : Nat) : Option (List Entry × World) :=
  w.onShelf q fun sh d => let (inv, sh) := sh.inventory d; (inv, sh, d)

/-- The id a step names: the `ref`-th id issued, or the id written out under `id`. -/
def stepId? (w : World) (step : Value) : Option Task.TaskId :=
  match step.natAt? "ref" with
  | some k => w.depot.issued[k]?
  | none => (step.strAt? "id").bind fun s => (Task.TaskId.read? s).toOption

end World

end Outbox.Scenario
