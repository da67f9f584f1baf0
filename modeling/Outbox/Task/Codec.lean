import Outbox.Task.Entry
import Outbox.Json.Decode
import Outbox.Json.Write
import Outbox.Json.Read
import Outbox.Time.Stamp
import Outbox.Text.Base64

/-!
The stored forms of entries and records, as JSON.

An entry is the object `task_persisted_id`, `task_type`, `created_at`, `group_start` (left out
when there is none), `group_member` (left out when empty) and `run_history` (`total_runs`), in
that order. A record is `storage_id`, `type`, `data` (the payload in padded base64) and
`run_results` (`total_runs`). Ids are their 26-character text and times their RFC 3339 text.

Reading follows `Json.Decode`. The id, kind and creation time must be present; groups, run
counts and the payload default to none, zero and empty. A run count is a whole number below
`2^32`; base64 text must be exactly what encoding its bytes gives.
-/

set_option autoImplicit false

namespace Outbox.Task

open Json

def readId (n : Node) : Option TaskId :=
  n.string? >>= fun s => (TaskId.read? s).toOption

def readInstant (n : Node) : Option Time.Instant :=
  n.string? >>= Time.Instant.readStamp?

def readRuns (n : Node) : Option Nat := do
  let fs ← n.fields? ["total_runs"]
  match fs with
  | [r] => withDefault 0 Node.u32? r
  | _ => none

/-- A set of group tags: an array of text, sorted and without repeats. -/
def readTags (n : Node) : Option (List String) :=
  (n.items? Node.string?).map tagSet

def readData (n : Node) : Option (List UInt8) :=
  n.string? >>= Base64.decode?

/-- An entry read from its stored form. -/
def Entry.read? (n : Node) : Option Entry := do
  let fs ← n.fields?
    ["task_persisted_id", "task_type", "created_at", "group_start", "group_member", "run_history"]
  match fs with
  | [i, k, c, gs, gm, rh] =>
    pure ⟨← required readId i, ← required Node.string? k, ← required readInstant c,
      ← optional Node.string? gs, ← withDefault [] readTags gm, ← withDefault 0 readRuns rh⟩
  | _ => none

/-- A record read from its stored form. -/
def Record.read? (n : Node) : Option Record := do
  let fs ← n.fields? ["storage_id", "type", "data", "run_results"]
  match fs with
  | [i, k, d, r] =>
    pure ⟨← required readId i, ← required Node.string? k, ← withDefault [] readData d,
      ← withDefault 0 readRuns r⟩
  | _ => none

def readInventory (n : Node) : Option (List Entry) :=
  n.items? Entry.read?

def runsValue (runs : Nat) : Value := .object [("total_runs", .nat runs)]

/-- The stored form of an entry, as a value. -/
def Entry.toValue (e : Entry) : Value :=
  .object ([("task_persisted_id", .str e.id.text), ("task_type", .str e.kind),
    ("created_at", .str e.createdAt.stamp)] ++
    (match e.groupStart with | some g => [("group_start", .str g)] | none => []) ++
    (if e.groupMembers.isEmpty then [] else [("group_member", .array (e.groupMembers.map .str))]) ++
    [("run_history", runsValue e.runs)])

def Record.toValue (r : Record) : Value :=
  .object [("storage_id", .str r.id.text), ("type", .str r.kind),
    ("data", .str (Base64.encode r.data)), ("run_results", runsValue r.runs)]

def Entry.encode (e : Entry) : String := e.toValue.write

def Record.encode (r : Record) : String := r.toValue.write

def encodeInventory (es : List Entry) : String := (Value.array (es.map Entry.toValue)).write

def decodeBytes? {α : Type} (read : Node → Option α) (bytes : List UInt8) : Option α :=
  Json.read bytes >>= read

end Outbox.Task
