import Outbox.Scenario.World

/-!
Running the agenda of a world until an awaited result arrives.

A run looks at the awaited result when it was woken, then gives turns to ready jobs: the first
line's next job, or the second line's on every 31st turn and whenever the first line is empty.
When no job is ready the agenda rests, and after 61 turns it rests without waiting; either way
it then looks again. Resting fires the timers due, and wakes the jobs that gave up their turn,
the last first; waiting moves virtual time to the wheel's next expiration first, unless the
agenda heard of something since it last rested. The run ends when the result arrives, or when
the agenda would wait with no timer left and nothing woken: nothing can happen any more.
-/

set_option autoImplicit false

namespace Outbox.Scenario

open Outbox.Queue Outbox.Json

/-- What a run of the agenda waits for. -/
inductive Awaited where
  /-- The completion of a pass of instance `q`, asked for at the first look (`asked` after). -/
  | pass (q : Nat) (asked : Bool)
  /-- The end of a sleep of `ms` milliseconds (`armed` once it started). -/
  | sleep (ms : Nat) (armed : Bool)
  /-- The end of job `id`. -/
  | job (id : Nat)

namespace World

/-- A timer job fires: an instance's timer starts a pass, the probe's records its label; a timer
of a past generation does nothing. -/
def fireTimer (w : World) (owner : TimerOwner) (generation : Nat) : World :=
  match owner with
  | .queue q =>
    match w.inst q with
    | some i =>
      let (fires, t) := i.timer.wake generation
      let w := w.modifyInst q fun i => { i with timer := t }
      if fires then w.trigger q .nothing else w
    | none => w
  | .probe label =>
    let (fires, t) := w.probe.wake generation
    let w := { w with probe := t }
    if fires then { w with fired := w.fired ++ [label] } else w

def debounce (w : World) : TimerOwner → Debounce
  | .queue q => ((w.inst q).map (·.timer)).getD Debounce.idle
  | .probe _ => w.probe

def setDebounce (w : World) (owner : TimerOwner) (t : Debounce) : World :=
  match owner with
  | .queue q => w.modifyInst q fun i => { i with timer := t }
  | .probe _ => { w with probe := t }

/-- Schedules the owner's timer to fire after `delay`, unless a firing is pending: whether it
did. -/
def schedule (w : World) (owner : TimerOwner) (delay : Time.Duration) : Bool × World :=
  let (ok, t) := (w.debounce owner).schedule w.nextJob
  if ok then (true, ((w.setDebounce owner t).spawn (.timer owner t.generation delay false)).2)
  else (false, w)

/-- Cancels the owner's timer, aborting the job waiting to fire: whether one was. -/
def cancelTimer (w : World) (owner : TimerOwner) : Bool × World :=
  let (pending, t) := (w.debounce owner).cancel
  let w := w.setDebounce owner t
  match pending with
  | some job => (true, w.abort job)
  | none => (false, w)

/-- A turn of a timer job: its first sleeps until the delay is over, and the next fires. -/
def pollTimer (w : World) (id : Nat) (owner : TimerOwner) (generation : Nat)
    (delay : Time.Duration) (armed : Bool) : World × Poll :=
  if armed then (w.fireTimer owner generation, .ready)
  else
    match w.wheel.insert (w.sleepEnd delay.ceilMillis) (.job id) with
    | (false, _) => (w.fireTimer owner generation, .ready)
    | (true, wheel) =>
      let w := { w with wheel := wheel }
      (w.modifySlot id fun s => { s with job := .timer owner generation delay true }, .pending)

/-- A turn of a watcher: a pass that panicked is ended for it. -/
def pollWatch (w : World) (id q target : Nat) : World × Poll :=
  match w.slot target with
  | some s =>
    match s.finished with
    | some (some _) => (w.completePass q, .ready)
    | some none => (w, .ready)
    | none => (w.modifySlot target fun s => { s with joiner := some (.job id) }, .pending)
  | none => (w, .ready)

def passFuel (w : World) : Nat :=
  4 * (w.depot.store.count .tasks + w.transport.script.length + 8)

def jobTurn (w : World) (id : Nat) : Job → World × Poll
  | .timer owner g delay armed => w.pollTimer id owner g delay armed
  | .pass q phase => World.passLoop w.passFuel w q id phase
  | .watch q target => w.pollWatch id q target

/-- Ends the turn of job `id` as it went: the job waits for its next turn, ends, or ends with
the message of its panic. -/
def endTurn (id : Nat) : World × Poll → World
  | (w, .pending) => w
  | (w, .ready) => w.finish id none
  | (w, .panicked m) => w.finish id (some m)

/-- Gives job `id` its turn. -/
def pollJob (w : World) (id : Nat) : World :=
  match w.slot id with
  | none => w
  | some s =>
    let w := w.modifySlot id fun s => { s with queued := false }
    if s.finished.isSome then w
    else if s.cancelled then { w with wheel := w.wheel.remove (· == Waker.job id) }.finish id none
    else endTurn id ({ w with budget := turnBudget }.jobTurn id s.job)

/-- The next ready job, taken out of its line. -/
def takeNext (w : World) : Option (Nat × World) :=
  let fromInject : Option (Nat × World) := match w.injectQueue with
    | id :: rest => some (id, { w with injectQueue := rest })
    | [] => none
  let fromLocal : Option (Nat × World) := match w.localQueue with
    | id :: rest => some (id, { w with localQueue := rest })
    | [] => none
  if w.tick % 31 = 0 then fromInject <|> fromLocal else fromLocal <|> fromInject

/-- Rings a timer that fired: a job's is made ready, and the awaiting step's wakes it. -/
def ring (w : World) : Waker → World
  | .job id => w.wake id
  | .main => { w.wakeMain with mainRang := true }

def rouse (w : World) : Waker → World
  | .job id => w.wake id
  | .main => w.wakeMain

/-- The agenda rests: `look` when it must only look, without waiting. Waiting moves time to the
wheel's next expiration, unless the agenda heard of something since it last rested; then it only
takes that news, as looking does, and as waiting does when no timer is left, whenever no timer is
due now. Then the timers due fire, in the wheel's order, and the jobs that gave up their turn are
woken, the last first. Waiting with no timer left gives none unless the awaiting step was woken:
nothing could wake it any more. -/
def rest (w : World) (look : Bool) : Option World :=
  let moved : Option (World × Nat) :=
    match w.wheel.nextTime with
    | some t =>
      if t ≤ w.now then some (w, w.now)
      else if look || w.unparked then some ({ w with unparked := false }, w.now)
      else some (w, t)
    | none =>
      if look || w.mainWoken then some ({ w with unparked := false }, w.now)
      else none
  moved.map fun (w, t) =>
    let (due, wheel) := w.wheel.poll t
    let w := due.foldl ring { w with wheel := wheel }
    w.deferred.foldl rouse { w with deferred := [] }

/-- Looks at the awaited result: whether it has arrived. -/
def pollAwaited (w : World) : Awaited → World × Awaited × Bool
  | .pass q false => (w.trigger q .signal, .pass q true, false)
  | .pass q true => (w, .pass q true, w.signalled)
  | .sleep ms false =>
    match w.wheel.insert (w.sleepEnd ms) .main with
    | (true, wheel) => ({ w with wheel := wheel }, .sleep ms true, false)
    | (false, _) => (w, .sleep ms false, true)
  | .sleep ms true => (w, .sleep ms true, w.mainRang)
  | .job id =>
    match w.slot id with
    | some s =>
      if s.finished.isSome then (w, .job id, true)
      else (w.modifySlot id fun s => { s with joiner := some .main }, .job id, false)
    | none => (w, .job id, true)

/-- The loop of a run: `turns` is none when the awaited result is due a look, else the turns
given since. -/
def runLoop : Nat → World → Awaited → Option Nat → World
  | 0, w, _, _ => w
  | fuel + 1, w, m, none =>
    if w.mainWoken then
      let (w, m, ready) := pollAwaited { w with mainWoken := false } m
      if ready then w else runLoop fuel w m (some 0)
    else runLoop fuel w m (some 0)
  | fuel + 1, w, m, some turns =>
    if turns ≥ 61 then
      match w.rest true with
      | some w => runLoop fuel w m none
      | none => w
    else
      let w := { w with tick := w.tick + 1 }
      match w.takeNext with
      | some (id, w) => runLoop fuel (w.pollJob id) m (some (turns + 1))
      | none =>
        match w.rest !w.deferred.isEmpty with
        | some w => runLoop fuel w m none
        | none => w

/-- The most a timer or a job can ask of a run: a look for each level a timer moves down, one for
each top-level slot span of the longest sleep, and a few to fire. -/
def timerWork : Nat :=
  Time.Wheel.levels + 4 + longestSleep / Time.Wheel.slotRange (Time.Wheel.levels - 1)

/-- The bound on the iterations of a run: a million at least, and 64 for each unit of work that the
timers, the jobs and the lines of the world can still ask for. -/
def runFuel (w : World) : Nat :=
  1000000 + 64 * timerWork * (w.wheel.entries.length + w.wheel.pending.length + w.jobs.length +
    w.localQueue.length + w.injectQueue.length + 2)

def runUntil (w : World) (m : Awaited) : World :=
  let start := { w with inside := true, mainWoken := true, signalled := false, mainRang := false }
  let w := runLoop (runFuel start) start m none
  { w with inside := false, wheel := w.wheel.remove (· == Waker.main) }

end World

end Outbox.Scenario
