import Outbox.Failure

/-!
A record store held in memory: byte records under a kind and a key. Writes (saves and deletes)
and reads can be made to fail per kind, for testing how the outbox copes; a failing store
answers `StoreFailure.unavailable` with a message naming the kind.

Records are kept as a list in the order of their first save; a save to a key already present
replaces its bytes in place.
-/

set_option autoImplicit false

namespace Outbox.Store

/-- The two kinds of records: inventories (one per site) and tasks (one per task). -/
inductive RecordKind where
  | inventory
  | tasks
  deriving DecidableEq, Repr, Inhabited

def RecordKind.name : RecordKind → String
  | .inventory => "inventory"
  | .tasks => "tasks"

/-- A record: its kind, its key and its bytes. -/
structure StoredRecord where
  kind : RecordKind
  key : String
  bytes : List UInt8
  deriving DecidableEq, Repr

/-- A record store in memory. -/
structure MemoryStore where
  records : List StoredRecord
  failingWrites : List RecordKind
  failingReads : List RecordKind
  deriving Repr

namespace MemoryStore

def empty : MemoryStore := ⟨[], [], []⟩

def setFailingWrites (s : MemoryStore) (kind : RecordKind) (fail : Bool) : MemoryStore :=
  { s with failingWrites :=
      if fail then
        (if s.failingWrites.contains kind then s.failingWrites else kind :: s.failingWrites)
      else s.failingWrites.filter (· != kind) }

def setFailingReads (s : MemoryStore) (kind : RecordKind) (fail : Bool) : MemoryStore :=
  { s with failingReads :=
      if fail then (if s.failingReads.contains kind then s.failingReads else kind :: s.failingReads)
      else s.failingReads.filter (· != kind) }

def StoredRecord.at (kind : RecordKind) (key : String) (r : StoredRecord) : Bool :=
  r.kind == kind && r.key == key

def put (records : List StoredRecord) (kind : RecordKind) (key : String) (bytes : List UInt8) :
    List StoredRecord :=
  if records.any (StoredRecord.at kind key) then
    records.map fun r => if StoredRecord.at kind key r then { r with bytes := bytes } else r
  else records ++ [⟨kind, key, bytes⟩]

def save (s : MemoryStore) (kind : RecordKind) (key : String) (bytes : List UInt8) :
    Except StoreFailure MemoryStore :=
  if s.failingWrites.contains kind then
    .error (.unavailable ("writes to " ++ kind.name ++ " are failing"))
  else .ok { s with records := put s.records kind key bytes }

def get (s : MemoryStore) (kind : RecordKind) (key : String) :
    Except StoreFailure (Option (List UInt8)) :=
  if s.failingReads.contains kind then
    .error (.unavailable ("reads of " ++ kind.name ++ " are failing"))
  else .ok ((s.records.find? (StoredRecord.at kind key)).map (·.bytes))

/-- Deletes the record under a kind and key; tells whether there was one. -/
def delete (s : MemoryStore) (kind : RecordKind) (key : String) :
    Except StoreFailure (Bool × MemoryStore) :=
  if s.failingWrites.contains kind then
    .error (.unavailable ("writes to " ++ kind.name ++ " are failing"))
  else
    .ok (s.records.any (StoredRecord.at kind key),
      { s with records := s.records.filter (!StoredRecord.at kind key ·) })

def count (s : MemoryStore) (kind : RecordKind) : Nat :=
  (s.records.filter (·.kind == kind)).length

end MemoryStore

end Outbox.Store
