import Outbox.Store.Memory

/-!
A record store in a directory: each kind is a subdirectory and each record the file
`<key>.json` in it. A key must be non-empty and hold only ASCII letters, digits, `-` and `_`, so
that it names a file and nothing else; any other key is refused before the file system is
touched.

The file system refuses a file name longer than `maxNameLength` octets. A save writes
`<key>.json.tmp` first and renames it, so it fails when that name is too long; it creates the
kind's directory first in any case. Reading or deleting a key looks the name up in the kind's
directory: when the directory does not exist there is nothing to find, and otherwise a name that
is too long fails.
-/

set_option autoImplicit false

namespace Outbox.Store

def maxNameLength : Nat := 255

def validKey (key : String) : Bool :=
  !key.isEmpty && key.toList.all fun c => c.isAlphanum || c = '-' || c = '_'

/-- The records of a directory store: which kind directories exist, and the files. -/
structure FileStore where
  directories : List RecordKind
  records : List StoredRecord
  deriving Repr

namespace FileStore

def empty : FileStore := ⟨[], []⟩

def withDirectory (s : FileStore) (kind : RecordKind) : FileStore :=
  if s.directories.contains kind then s else { s with directories := kind :: s.directories }

/-- Saves bytes under a kind and key: whether it failed, and the store after. A valid key makes
the kind's directory first, which stays even when the file cannot be written. -/
def save (s : FileStore) (kind : RecordKind) (key : String) (bytes : List UInt8) :
    Except StoreFailure Unit × FileStore :=
  if !validKey key then (.error (.invalidKey key), s)
  else
    let s := s.withDirectory kind
    if key.utf8ByteSize + ".json.tmp".utf8ByteSize > maxNameLength then (.error .io, s)
    else (.ok (), { s with records := MemoryStore.put s.records kind key bytes })

/-- Looks a key up: nothing when the kind's directory is missing, a failure when the name is too
long, else whether the record is there. -/
def lookup (s : FileStore) (kind : RecordKind) (key : String) :
    Except StoreFailure (Option StoredRecord) :=
  if !validKey key then .error (.invalidKey key)
  else if !s.directories.contains kind then .ok none
  else if key.utf8ByteSize + ".json".utf8ByteSize > maxNameLength then .error .io
  else .ok (s.records.find? (MemoryStore.StoredRecord.at kind key))

def get (s : FileStore) (kind : RecordKind) (key : String) :
    Except StoreFailure (Option (List UInt8)) :=
  (s.lookup kind key).map (Option.map (·.bytes))

/-- Deletes the record under a kind and key; tells whether there was one. -/
def delete (s : FileStore) (kind : RecordKind) (key : String) :
    Except StoreFailure (Bool × FileStore) :=
  (s.lookup kind key).map fun
    | some _ => (true, { s with
        records := s.records.filter (!MemoryStore.StoredRecord.at kind key ·) })
    | none => (false, s)

end FileStore

end Outbox.Store
