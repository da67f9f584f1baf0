import Outbox.Task.Id
import Outbox.Time.Instant

/-!
What the outbox keeps about a task. An `Entry` stands in the inventory, the ordered list of tasks
waiting to run: it names the task, when it was created, the group it opens (if any) and the
groups it belongs to. A `Record` is kept apart under the task's id and holds the task's payload
and how often it has run.

Groups order tasks: a task that belongs to a group waits while the task that opened the group
has failed in the current pass. Group tags are plain text; their members are kept as a sorted
list without repeats.
-/

set_option autoImplicit false

namespace Outbox.Task

/-- The most runs a count holds; adding a run beyond it keeps it there. -/
def maxRuns : Nat := Nat.pow 2 32 - 1

def bumpRuns (n : Nat) : Nat := Nat.min (n + 1) maxRuns

def profileGroup (identifier : String) : String := "identified_profile_" ++ identifier

def pushTokenGroup (token : String) : String := "registered_push_token_" ++ token

def insertTag (t : String) : List String → List String
  | [] => [t]
  | u :: rest =>
    if t < u then t :: u :: rest else if t = u then u :: rest else u :: insertTag t rest

def tagSet (ts : List String) : List String := ts.foldl (fun acc t => insertTag t acc) []

/-- An inventory entry. -/
structure Entry where
  id : TaskId
  kind : String
  createdAt : Time.Instant
  groupStart : Option String
  groupMembers : List String
  runs : Nat
  deriving DecidableEq, Repr, Inhabited

/-- A stored task. -/
structure Record where
  id : TaskId
  kind : String
  data : List UInt8
  runs : Nat
  deriving DecidableEq, Repr, Inhabited

def Entry.memberOfAny (e : Entry) (groups : List String) : Bool :=
  e.groupMembers.any (groups.contains ·)

end Outbox.Task
