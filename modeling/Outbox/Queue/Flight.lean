/-!
One pass in flight at a time. Whoever asks for a pass leaves a callback; the first to ask while
none is running starts one, later askers join it. When the pass completes, every callback left
so far is handed back, in the order they were left, and the flight is idle again: callbacks left
after that wait for the next pass.

Releasing the flight (`Flight.release`) completes it and then calls the callbacks handed back,
one after another. A callback may itself ask for a pass or look whether one is running; what it
does is given by a function `does`, so callbacks that ask again, to any depth, are covered. The
caller is told what happened as a list of `Note`s.

A `Debounce` holds at most one scheduled firing. Scheduling while a firing is pending does
nothing; otherwise it starts a new generation and a waiting job for it. Cancelling starts a new
generation too, so a waiting job that wakes up later sees that it is stale and does nothing.
A job that wakes up in the current generation clears the pending firing and fires.
-/

set_option autoImplicit false

namespace Outbox.Queue

/-- The state of the single pass in flight, with the callbacks waiting for it. -/
structure Flight (α : Type) where
  running : Bool
  waiting : List α
  deriving DecidableEq, Repr, Inhabited

namespace Flight

variable {α : Type}

def idle : Flight α := ⟨false, []⟩

/-- Asks for a pass, leaving a callback: tells whether one was already running (then the
caller joins it; otherwise the caller must start it). -/
def request (f : Flight α) (callback : α) : Bool × Flight α :=
  (f.running, ⟨true, f.waiting ++ [callback]⟩)

/-- The pass completed: the callbacks to call, in order, and the idle flight. -/
def complete (f : Flight α) : List α × Flight α :=
  (f.waiting, ⟨false, []⟩)

@[simp] theorem complete_running (f : Flight α) : f.complete.2.running = false := rfl

/-- What a caller does with the flight: asks for a pass leaving a callback, or looks whether one
is running. -/
inductive Act (α : Type) where
  | ask (callback : α)
  | look
  deriving Repr

/-- What a caller is told: the answer to an ask (whether it joined a pass already running) or to a
look, the start of a completion, and each callback the completion calls. -/
inductive Note (α : Type) where
  | asked (callback : α) (joined : Bool)
  | looked (running : Bool)
  | began
  | called (callback : α)
  deriving Repr

def act (f : Flight α) : Act α → Note α × Flight α
  | .ask c =>
    let (joined, f) := f.request c
    (.asked c joined, f)
  | .look => (.looked f.running, f)

/-- Acts on the flight in order. -/
def acts (f : Flight α) : List (Act α) → List (Note α) × Flight α
  | [] => ([], f)
  | a :: rest =>
    let (n, f) := f.act a
    let (ns, f) := f.acts rest
    (n :: ns, f)

/-- Calls callbacks in order; calling `c` does the acts `does c`. -/
def callEach (does : α → List (Act α)) : Flight α → List α → List (Note α) × Flight α
  | f, [] => ([], f)
  | f, c :: rest =>
    let (ns, f) := f.acts (does c)
    let (ns', f) := callEach does f rest
    (.called c :: ns ++ ns', f)

/-- The pass completed: the flight goes idle, and then the callbacks that waited for the pass are
called in the order they were left. -/
def release (does : α → List (Act α)) (f : Flight α) : List (Note α) × Flight α :=
  let (cbs, f) := f.complete
  let (ns, f) := callEach does f cbs
  (.began :: ns, f)

/-- A call on the flight from outside: an act, or the release of the pass. -/
inductive Call (α : Type) where
  | act (a : Act α)
  | release
  deriving Repr

def call (does : α → List (Act α)) (f : Flight α) : Call α → List (Note α) × Flight α
  | .act a =>
    let (n, f) := f.act a
    ([n], f)
  | .release => f.release does

end Flight

/-- A single-firing timer: its generation and the job waiting to fire, if any. -/
structure Debounce where
  generation : Nat
  pending : Option Nat
  deriving DecidableEq, Repr, Inhabited

namespace Debounce

def idle : Debounce := ⟨0, none⟩

def scheduled (t : Debounce) : Bool := t.pending.isSome

/-- Schedules a firing by the job `job`, unless one is pending: tells whether it did, and the
generation the job fires in. -/
def schedule (t : Debounce) (job : Nat) : Bool × Debounce :=
  if t.scheduled then (false, t) else (true, ⟨t.generation + 1, some job⟩)

/-- Cancels the pending firing: the job that was pending, if any, and the timer. -/
def cancel (t : Debounce) : Option Nat × Debounce :=
  (t.pending, ⟨t.generation + 1, none⟩)

/-- A job of generation `g` wakes up: whether it fires, and the timer after. -/
def wake (t : Debounce) (g : Nat) : Bool × Debounce :=
  if t.generation = g then (true, { t with pending := none }) else (false, t)

theorem schedule_scheduled (t : Debounce) (job : Nat) : (t.schedule job).2.scheduled = true := by
  unfold schedule scheduled
  split <;> simp_all

end Debounce

end Outbox.Queue
