import Outbox.Time.Wheel
import Outbox.Queue.Pass
import Outbox.Queue.Flight
import Outbox.Http.Client
import Outbox.Sdk.Registry
import Outbox.Json.Value
import Outbox.Text.Base64
import Outbox.Scenario.Report
import Outbox.Scenario.Exchange

/-!
The world a scripted scenario runs in: one record store, clock and id counter shared by the
outbox instances built over them, a scripted runner or the SDK registry, and a scripted
transport, driven by an agenda of jobs in virtual time.

The agenda runs one job at a time. A job runs until it sleeps, waits for another job, finishes or
panics. Ready jobs run in the order they became ready; jobs made ready from outside a run of the
agenda wait in a second line, which is served when the first is empty and on every 31st turn
before it. Virtual time moves only when no job is ready: it moves to the next expiration of a
timing wheel (`Outbox.Time.Wheel`), unless something happened since the agenda last rested, and
the timers due then fire in the wheel's order. A sleep lasts whole milliseconds, rounded up, and
at most thirty years; a sleep of no time ends at once.

A turn has a budget of 128 sleeps that end at once. A job whose budget is spent gives up its
turn at its next sleep: it is put aside and made ready again, after the others put aside later,
the next time the agenda rests.

The jobs are an outbox's passes, the watchers that end a pass that panicked, and the timers of
delayed passes. A pass of the scripted runner sleeps the runner's delay before each task, records
the run and answers as scripted; a pass of the registry sends each task's request, sleeping
between retries as the client's retry policy says.
-/

set_option autoImplicit false

namespace Outbox.Scenario

open Outbox.Queue Outbox.Task Outbox.Http Outbox.Sdk Outbox.Json

/-- What a scripted runner does for a kind instead of succeeding. -/
inductive Scripted where
  | fail (f : RunFailure)
  | panic
  deriving Repr

/-- The scripted runner: its answers by kind, and its delay before each task. -/
structure ScriptedRunner where
  answers : List (String × Scripted)
  delayMs : Nat
  deriving Repr

def ScriptedRunner.setAnswer (r : ScriptedRunner) (kind : String) (a : Option Scripted) :
    ScriptedRunner :=
  let rest := r.answers.filter (·.1 != kind)
  { r with answers := match a with | some a => rest ++ [(kind, a)] | none => rest }

/-- What is called when a pass completes. -/
inductive Callback where
  | nothing
  /-- Records the step that asked. -/
  | label (step : Nat)
  /-- Tells the awaiting step that the pass completed. -/
  | signal
  deriving Repr

/-- How tasks run. -/
inductive RunnerKind where
  | scripted
  | registry
  deriving DecidableEq, Repr

/-- An outbox instance. -/
structure Instance where
  minTasks : Nat
  runDelay : Time.Duration
  shelf : Shelf
  selection : Selection
  flight : Flight Callback
  timer : Debounce
  client : Client
  registry : Registry

/-- Where a pass job stands. -/
inductive Phase where
  /-- Choosing the next task. -/
  | choose (st : PassState)
  /-- The scripted runner answers for a task (after its delay). -/
  | answer (st : PassState) (next : Entry) (record : Record)
  /-- A round of the task's request, after this many retries. -/
  | round (st : PassState) (next : Entry) (record : Record) (request : Request) (retries : Nat)
  /-- A sleep until `deadline` (`registered` once its timer is in the wheel), then `next`. -/
  | sleep (deadline : Nat) (registered : Bool) (next : Phase)

/-- The timer a timer job belongs to: an instance's, or the probe's (which records a label). -/
inductive TimerOwner where
  | queue (q : Nat)
  | probe (label : Nat)

/-- A job of the agenda. -/
inductive Job where
  /-- A timer job: sleeps `delay` (`armed` once it has), then fires in its generation. -/
  | timer (owner : TimerOwner) (generation : Nat) (delay : Time.Duration) (armed : Bool)
  /-- A pass of instance `q`. -/
  | pass (q : Nat) (phase : Phase)
  /-- Waits for pass job `target` of instance `q`; ends the pass if it panicked. -/
  | watch (q : Nat) (target : Nat)

/-- Whom an alarm wakes. -/
inductive Waker where
  | job (id : Nat)
  | main
  deriving DecidableEq, Repr

/-- A job and its state. -/
structure JobSlot where
  job : Job
  queued : Bool
  /-- Once the job is over: `some none`, or `some (some message)` when it panicked. -/
  finished : Option (Option String)
  cancelled : Bool
  joiner : Option Waker

/-- How a job's turn ended. -/
inductive Poll where
  | pending
  | ready
  | panicked (message : String)

/-- What the run log records: a run of the scripted runner (the record as it was run), or a
request the transport received. -/
inductive Logged where
  | ran (record : Record)
  | sent (request : Request)

def Logged.toValue : Logged → Value
  | .ran r => .object [("id", .str r.id.text), ("type", .str r.kind), ("total_runs", .nat r.runs)]
  | .sent r => requestValue r

/-- The world of a scenario. -/
structure World where
  depot : Depot
  runner : ScriptedRunner
  transport : Transport
  runnerKind : RunnerKind
  instances : List Instance := []
  probe : Debounce := Debounce.idle
  jobs : List (Nat × JobSlot) := []
  nextJob : Nat := 0
  /-- The turns given so far. -/
  tick : Nat := 0
  /-- Jobs made ready inside a run of the agenda. -/
  localQueue : List Nat := []
  /-- Jobs made ready from outside a run of the agenda. -/
  injectQueue : List Nat := []
  /-- The timers; virtual time is where the wheel stands. -/
  wheel : Time.Wheel Waker := Time.Wheel.empty
  /-- The jobs that gave up their turn, the last first. -/
  deferred : List Waker := []
  /-- What is left of the budget of the turn being given. -/
  budget : Nat := 0
  /-- Whether a run of the agenda is going on. -/
  inside : Bool := false
  /-- Whether the awaiting step is due a look. -/
  mainWoken : Bool := false
  /-- Whether something happened since the agenda last rested: the awaiting step was woken or a
  job was made ready from outside. -/
  unparked : Bool := false
  signalled : Bool := false
  mainRang : Bool := false
  runLog : List Logged := []
  fired : List Nat := []

namespace World

def init (depot : Depot) (runnerKind : RunnerKind) (transport : Transport) : World :=
  { depot, runner := ⟨[], 0⟩, transport, runnerKind }

def now (w : World) : Nat := w.wheel.elapsed

def inst (w : World) (q : Nat) : Option Instance := w.instances[q]?

def modifyInst (w : World) (q : Nat) (f : Instance → Instance) : World :=
  { w with instances := w.instances.modify q f }

def slot (w : World) (id : Nat) : Option JobSlot := w.jobs.lookup id

def modifySlot (w : World) (id : Nat) (f : JobSlot → JobSlot) : World :=
  { w with jobs := w.jobs.map fun p => if p.1 = id then (p.1, f p.2) else p }

/-- Puts job `id` in line: the first line inside a run of the agenda, else the second, which the
agenda then hears of. -/
def enqueue (w : World) (id : Nat) : World :=
  if w.inside then { w with localQueue := w.localQueue ++ [id] }
  else { w with injectQueue := w.injectQueue ++ [id], unparked := true }

/-- Makes job `id` ready unless it is over or already in line. -/
def wake (w : World) (id : Nat) : World :=
  match w.slot id with
  | some s =>
    if s.finished.isSome || s.queued then w
    else (w.modifySlot id fun s => { s with queued := true }).enqueue id
  | none => w

def spawn (w : World) (job : Job) : Nat × World :=
  let id := w.nextJob
  let slot : JobSlot := ⟨job, true, none, false, none⟩
  (id, World.enqueue { w with jobs := w.jobs ++ [(id, slot)], nextJob := id + 1 } id)

/-- Cancels job `id`: it ends at its next turn, which it is given soon. -/
def abort (w : World) (id : Nat) : World :=
  match w.slot id with
  | some s =>
    if s.finished.isSome then w
    else (w.modifySlot id fun s => { s with cancelled := true }).wake id
  | none => w

def wakeMain (w : World) : World := { w with mainWoken := true, unparked := true }

/-- Ends job `id`, with the message of its panic if it panicked, and wakes whoever waits for
it. -/
def finish (w : World) (id : Nat) (panic : Option String) : World :=
  let w := w.modifySlot id fun s => { s with finished := some panic }
  match (w.slot id).bind (·.joiner) with
  | some (.job j) => w.wake j
  | some .main => w.wakeMain
  | none => w

/-- The longest sleep, in milliseconds: thirty years of 365 days. A longer sleep ends then. -/
def longestSleep : Nat := 30 * 365 * 86400 * 1000

def sleepEnd (w : World) (ms : Nat) : Nat := w.now + min ms longestSleep

/-- The budget of a turn: how many sleeps that end at once a job goes through in it. -/
def turnBudget : Nat := 128

/-- Puts a job that gave up its turn aside, once even if it gives it up again at once. -/
def defer (w : World) (waker : Waker) : World :=
  match w.deferred with
  | last :: _ => if last = waker then w else { w with deferred := waker :: w.deferred }
  | [] => { w with deferred := [waker] }

/-- How polling a sleep went. -/
inductive Slept where
  | over
  | waiting
  | yielded

/-- Job `id` polls its sleep until `deadline`, `registered` once its timer is in the wheel. A
sleep over at once costs one from the budget; a sleep polled with no budget left puts the job
aside. -/
def pollSleep (w : World) (id deadline : Nat) (registered : Bool) : Slept × World :=
  if w.budget = 0 then (.yielded, w.defer (.job id))
  else if registered then
    if w.wheel.holds (· == Waker.job id) then (.waiting, w)
    else (.over, { w with budget := w.budget - 1 })
  else
    match w.wheel.insert deadline (.job id) with
    | (true, wheel) => (.waiting, { w with wheel := wheel })
    | (false, _) => (.over, { w with budget := w.budget - 1 })

def call (w : World) : List Callback → World
  | [] => w
  | .nothing :: rest => call w rest
  | .label i :: rest => call { w with fired := w.fired ++ [i] } rest
  | .signal :: rest => call { w.wakeMain with signalled := true } rest

/-- Asks instance `q` for a pass: joins the one running, or starts one with its watcher. -/
def trigger (w : World) (q : Nat) (cb : Callback) : World :=
  match w.inst q with
  | none => w
  | some i =>
    let (running, flight) := i.flight.request cb
    let w := w.modifyInst q fun i => { i with flight := flight }
    if running then w
    else
      let (p, w) := w.spawn (.pass q (.choose PassState.start))
      (w.spawn (.watch q p)).2

/-- A pass of instance `q` is over: its selection starts afresh and its callbacks are called. -/
def completePass (w : World) (q : Nat) : World :=
  match w.inst q with
  | none => w
  | some i =>
    let (cbs, flight) := i.flight.complete
    (w.modifyInst q fun i => { i with selection := Selection.fresh, flight := flight }).call cbs

/-- Applies a task's outcome to the pass of instance `q`: how it goes on, if at all. -/
def settle (w : World) (q : Nat) (next : Entry) (record : Record)
    (outcome : Except RunFailure Unit) : World × Option PassState :=
  match w.inst q with
  | none => (w, none)
  | some i =>
    let (st, sh, d) := Pass.settle i.shelf w.depot next record outcome
    ({ w with depot := d }.modifyInst q fun i => { i with shelf := sh }, st)

/-- Runs pass job `id` of instance `q` from `phase` until it sleeps, ends or panics. A turn
that runs out of steps gives up its turn, as a spent budget does, and the pass goes on from
`phase` later. -/
def passLoop : Nat → World → Nat → Nat → Phase → World × Poll
  | 0, w, q, id, phase =>
    ((w.defer (.job id)).modifySlot id fun s => { s with job := .pass q phase }, .pending)
  | fuel + 1, w, q, id, phase =>
    match w.inst q with
    | none => (w, .ready)
    | some i =>
      let goOn (w : World) (st : Option PassState) : World × Poll :=
        match st with
        | none => (w.completePass q, .ready)
        | some st => passLoop fuel w q id (.choose st)
      match phase with
      | .choose st =>
        let (step, sel, sh, d) := Pass.advance i.selection i.shelf w.depot st
        let w := { w with depot := d }.modifyInst q fun i =>
          { i with selection := sel, shelf := sh }
        match step with
        | .stop => (w.completePass q, .ready)
        | .run next record =>
          match w.runnerKind with
          | .scripted =>
            if w.runner.delayMs = 0 then passLoop fuel w q id (.answer st next record)
            else
              passLoop fuel w q id (.sleep (w.sleepEnd w.runner.delayMs) false
                (.answer st next record))
          | .registry =>
            match i.registry.prepare record.kind record.data with
            | .error f =>
              let (w, st) := w.settle q next record (.error f)
              goOn w st
            | .ok req => passLoop fuel w q id (.round st next record req 0)
      | .answer _ next record =>
        let w := { w with runLog := w.runLog ++ [Logged.ran record] }
        match w.runner.answers.lookup record.kind with
        | some .panic => (w, .panicked ("handler for " ++ record.kind ++ " panicked"))
        | some (.fail f) =>
          let (w, st) := w.settle q next record (.error f)
          goOn w st
        | none =>
          let (w, st) := w.settle q next record (.ok ())
          goOn w st
      | .round st next record req retries =>
        let (paused, client) := i.client.checkPaused w.depot.clock
        let w := w.modifyInst q fun i => { i with client := client }
        if paused then
          let (w, st) := w.settle q next record (.error (.http .paused))
          goOn w st
        else
          let (answer, transport) := w.transport.answer
          let w := { w with transport := transport, runLog := w.runLog ++ [Logged.sent req] }
          let (attempt, client) := client.decide w.depot.clock retries answer
          let w := w.modifyInst q fun i => { i with client := client }
          match attempt with
          | .finished (.ok _) =>
            let (w, st) := w.settle q next record (.ok ())
            goOn w st
          | .finished (.error f) =>
            let (w, st) := w.settle q next record (.error (.http f))
            goOn w st
          | .panicked m => (w, .panicked m)
          | .retryAfter d r =>
            passLoop fuel w q id (.sleep (w.sleepEnd d.ceilMillis) false
              (.round st next record req r))
      | .sleep deadline registered after =>
        match w.pollSleep id deadline registered with
        | (.over, w) => passLoop fuel w q id after
        | (.waiting, w) =>
          (w.modifySlot id fun s => { s with job := .pass q (.sleep deadline true after) }, .pending)
        | (.yielded, w) =>
          (w.modifySlot id fun s => { s with job := .pass q (.sleep deadline registered after) },
            .pending)

end World

end Outbox.Scenario
