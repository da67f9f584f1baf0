import Outbox.Store.Memory
import Outbox.Task.Codec
import Outbox.Queue.Selection

/-!
The task shelf of one site: its inventory, kept in the record store under the site id, and one
record per task, kept under the task's id.

The shelf caches the inventory it last read or wrote. A read that finds no inventory caches the
empty one; a read that fails, or finds bytes that are not an inventory, yields the empty
inventory without caching it. A write caches the inventory only when it succeeds. The shelf never
reports a store failure: an operation that meets one answers `false`, nothing or the empty list.

The shelf works on a `Depot`: the record store, the clock and the count of ids issued so far. The
`k`-th id issued at time `t` has `t` (in milliseconds, at least zero) as its time and `k` as its
random part.
-/

set_option autoImplicit false

namespace Outbox.Queue

open Outbox.Task Outbox.Store

/-- What shelves share: the record store, the clock and the ids issued so far, in order. -/
structure Depot where
  store : MemoryStore
  clock : Time.Instant
  issued : List TaskId
  deriving Repr

def Depot.issueId (d : Depot) : TaskId × Depot :=
  let id := TaskId.ofParts d.clock.timestampMillis.toNat d.issued.length
  (id, { d with issued := d.issued ++ [id] })

/-- A site's shelf. -/
structure Shelf where
  siteId : String
  expiry : Time.Delta
  cache : Option (List Entry)
  deriving Repr

/-- The outcome of creating a task: whether it worked, the inventory after, and the new entry. -/
structure Created where
  success : Bool
  inventory : List Entry
  created : Option Entry
  deriving Repr

/-- How reading a task's record went. -/
inductive TaskRead where
  | found (r : Record)
  | missing
  | unreadable
  deriving DecidableEq, Repr

namespace Shelf

def fresh (siteId : String) (expiry : Time.Delta) : Shelf := ⟨siteId, expiry, none⟩

/-- The inventory, from the cache or the store. -/
def inventory (sh : Shelf) (d : Depot) : List Entry × Shelf :=
  match sh.cache with
  | some inv => (inv, sh)
  | none =>
    match d.store.get .inventory sh.siteId with
    | .ok none => ([], { sh with cache := some [] })
    | .error _ => ([], sh)
    | .ok (some bytes) =>
      match decodeBytes? readInventory bytes with
      | some inv => (inv, { sh with cache := some inv })
      | none => ([], sh)

def writeInventory (sh : Shelf) (d : Depot) (inv : List Entry) : Bool × Shelf × Depot :=
  match d.store.save .inventory sh.siteId (Utf8.encode (encodeInventory inv)) with
  | .ok store => (true, { sh with cache := some inv }, { d with store := store })
  | .error _ => (false, sh, d)

def saveRecord (d : Depot) (r : Record) : Bool × Depot :=
  match d.store.save .tasks r.id.text (Utf8.encode r.encode) with
  | .ok store => (true, { d with store := store })
  | .error _ => (false, d)

/-- Creates a task: issues its id, saves its record, then appends its entry to the inventory. -/
def create (sh : Shelf) (d : Depot) (kind : String) (data : List UInt8)
    (groupStart : Option String) (groups : List String) : Created × Shelf × Depot :=
  let (inv, sh) := sh.inventory d
  let (id, d) := d.issueId
  let (saved, d) := saveRecord d ⟨id, kind, data, 0⟩
  if !saved then (⟨false, inv, none⟩, sh, d)
  else
    let entry : Entry := ⟨id, kind, d.clock, groupStart, tagSet groups, 0⟩
    let (written, sh, d) := sh.writeInventory d (inv ++ [entry])
    if written then (⟨true, inv ++ [entry], some entry⟩, sh, d)
    else (⟨false, inv, none⟩, sh, d)

/-- Reads a task's record, telling a lost record from a store that failed. -/
def readTask (d : Depot) (id : TaskId) : TaskRead :=
  match d.store.get .tasks id.text with
  | .ok none => .missing
  | .error _ => .unreadable
  | .ok (some bytes) =>
    match decodeBytes? Record.read? bytes with
    | some r => .found r
    | none => .missing

def get (d : Depot) (id : TaskId) : Option Record :=
  match readTask d id with
  | .found r => some r
  | _ => none

/-- Replaces a task's run count; false when its record cannot be read or written. -/
def update (d : Depot) (id : TaskId) (runs : Nat) : Bool × Depot :=
  match get d id with
  | none => (false, d)
  | some r => saveRecord d { r with runs := runs }

/-- Drops a task from the inventory, then deletes its record. A record already gone counts as
deleted; a failed write of the inventory or delete of the record does not. -/
def delete (sh : Shelf) (d : Depot) (id : TaskId) : Bool × Shelf × Depot :=
  let (inv, sh) := sh.inventory d
  let kept := inv.filter (fun e => e.id != id)
  let (ok, sh, d) :=
    if kept.length != inv.length then sh.writeInventory d kept else (true, sh, d)
  if !ok then (false, sh, d)
  else
    match d.store.delete .tasks id.text with
    | .ok (_, store) => (true, sh, { d with store := store })
    | .error _ => (false, sh, d)

/-- Deletes every entry in `es` in turn, keeping those whose deletion worked. -/
def deleteAll (sh : Shelf) (d : Depot) : List Entry → List Entry × Shelf × Depot
  | [] => ([], sh, d)
  | e :: rest =>
    let (ok, sh, d) := sh.delete d e.id
    let (done, sh, d) := deleteAll sh d rest
    (if ok then e :: done else done, sh, d)

/-- Deletes the tasks created before the expiry age, group openers apart; the entries deleted.
When the expiry reaches past the calendar nothing expires. -/
def deleteExpired (sh : Shelf) (d : Depot) : List Entry × Shelf × Depot :=
  match d.clock.sub? sh.expiry with
  | none => ([], sh, d)
  | some cutoff =>
    let (inv, sh) := sh.inventory d
    deleteAll sh d (inv.filter fun e => e.groupStart.isNone && e.createdAt.lt cutoff)

end Shelf

end Outbox.Queue
