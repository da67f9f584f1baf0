import Outbox.Task.Entry

/-!
Choosing the next task of a pass.

A pass remembers the tasks it has run and the groups whose opening task failed. Given the
inventory, the task run last and the task that failed last, `Selection.next` records both, then
takes the first entry after the last task run (from the start when it is not in the inventory)
that has not run in this pass and belongs to no excluded group. An empty inventory has no next
task, and then nothing is recorded.
-/

set_option autoImplicit false

namespace Outbox.Queue

open Outbox.Task

/-- What a pass remembers while it chooses tasks. -/
structure Selection where
  /-- Groups whose opening task failed in this pass, sorted. -/
  excluded : List String
  /-- Tasks run in this pass. -/
  ran : List TaskId
  deriving DecidableEq, Repr, Inhabited

namespace Selection

def fresh : Selection := ⟨[], []⟩

/-- The entries after the last task run, or all when it is not in the inventory. -/
def remaining (inventory : List Entry) (lastRan : Option Entry) : List Entry :=
  match lastRan with
  | none => inventory
  | some e =>
    match inventory.findIdx? (fun x => x.id == e.id) with
    | some i => inventory.drop (i + 1)
    | none => inventory

def eligible (s : Selection) (e : Entry) : Bool :=
  !s.ran.contains e.id && !e.memberOfAny s.excluded

/-- Records the task run last and the group of the task that failed last. -/
def record (s : Selection) (lastRan lastFailed : Option Entry) : Selection :=
  let ran := match lastRan with
    | some e => if s.ran.contains e.id then s.ran else s.ran ++ [e.id]
    | none => s.ran
  let excluded := match lastFailed.bind (·.groupStart) with
    | some g => insertTag g s.excluded
    | none => s.excluded
  ⟨excluded, ran⟩

/-- The next task and what the pass remembers after choosing it. -/
def next (s : Selection) (inventory : List Entry) (lastRan lastFailed : Option Entry) :
    Option Entry × Selection :=
  if inventory.isEmpty then (none, s)
  else
    let s := s.record lastRan lastFailed
    ((remaining inventory lastRan).find? s.eligible, s)

end Selection

end Outbox.Queue
