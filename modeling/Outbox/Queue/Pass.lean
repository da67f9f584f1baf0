import Outbox.Queue.Shelf
import Outbox.Failure

/-!
A pass over the inventory: run each eligible task once, in inventory order.

A pass alternates two steps. `Pass.advance` chooses the next task (`Selection.next`) and reads
its record; it stops the pass when no task is left, when the record is lost (dropping the task
from the inventory first) or when the store cannot read it. The caller runs the task and hands
the outcome to `Pass.settle`: a task that succeeded is deleted; a failure that can never pass
deletes the task, and one that may pass later counts another run; both remember the task as the
last failure, so that the groups it opens are skipped for the rest of the pass. A failure while
requests are paused stops the pass. When the pass stops, its selection starts afresh.
-/

set_option autoImplicit false

namespace Outbox.Queue

open Outbox.Task

/-- What a pass remembers between tasks. -/
structure PassState where
  lastRan : Option Entry
  lastFailed : Option Entry
  deriving Repr, Inhabited

def PassState.start : PassState := ⟨none, none⟩

/-- What a pass does next. -/
inductive PassStep where
  | run (next : Entry) (record : Record)
  | stop
  deriving Repr

/-- Chooses the next task and reads its record, as described above. -/
def Pass.advance (sel : Selection) (sh : Shelf) (d : Depot) (st : PassState) :
    PassStep × Selection × Shelf × Depot :=
  let (inv, sh) := sh.inventory d
  let (next, sel) := sel.next inv st.lastRan st.lastFailed
  match next with
  | none => (.stop, sel, sh, d)
  | some e =>
    match Shelf.readTask d e.id with
    | .found r => (.run e r, sel, sh, d)
    | .missing =>
      let (_, sh, d) := sh.delete d e.id
      (.stop, sel, sh, d)
    | .unreadable => (.stop, sel, sh, d)

/-- Applies the outcome of running a task: the state to go on with, or none when the pass stops. -/
def Pass.settle (sh : Shelf) (d : Depot) (next : Entry) (record : Record)
    (outcome : Except RunFailure Unit) : Option PassState × Shelf × Depot :=
  match outcome with
  | .ok () =>
    let (_, sh, d) := sh.delete d next.id
    (some ⟨some next, none⟩, sh, d)
  | .error f =>
    match f.disposition with
    | .paused => (none, sh, d)
    | .terminal =>
      let (_, sh, d) := sh.delete d next.id
      (some ⟨some next, some next⟩, sh, d)
    | .retryable =>
      let (_, d) := Shelf.update d next.id (bumpRuns record.runs)
      (some ⟨some next, some next⟩, sh, d)

end Outbox.Queue
