/-!
Task ids. An id is a 128-bit number: a 48-bit creation time in milliseconds above 80 random
bits, so ids sort by creation time. Its text is 26 characters of Crockford's base 32 alphabet
(`0-9` and the capital letters without `I`, `L`, `O` and `U`), the most significant first; the
first character carries only three bits.

Reading text (`TaskId.read?`) checks the length in bytes first, then each character: lower-case
letters count as capitals and every other character is refused. Bits that do not fit in 128 are
dropped, so a first character above `7` loses its high bits.
-/

set_option autoImplicit false

namespace Outbox.Task

/-- A task id: a number below `2^128`. -/
structure TaskId where
  bits : Nat
  deriving DecidableEq, Repr, Inhabited

/-- Why text is not a task id. -/
inductive IdError where
  | invalidLength
  | invalidCharacter
  deriving DecidableEq, Repr

def IdError.message : IdError → String
  | .invalidLength => "invalid length"
  | .invalidCharacter => "invalid character"

def alphabet : List Char := "0123456789ABCDEFGHJKMNPQRSTVWXYZ".toList

def randomBits : Nat := 80

def timeBits : Nat := 48

namespace TaskId

/-- The id with a creation time and a random part, each cut to its width. -/
def ofParts (timestampMs random : Nat) : TaskId :=
  ⟨timestampMs % Nat.pow 2 timeBits * Nat.pow 2 randomBits + random % Nat.pow 2 randomBits⟩

def timestampMs (id : TaskId) : Nat := id.bits / Nat.pow 2 randomBits % Nat.pow 2 timeBits

def symbol (v : Nat) : Char := alphabet.getD v '0'

def text (id : TaskId) : String :=
  String.ofList ((List.range 26).map fun i => symbol (id.bits / Nat.pow 2 (5 * (25 - i)) % 32))

/-- The value of a symbol, either case; `I`, `L`, `O`, `U` and all else have none. -/
def symbolValue? (c : Char) : Option Nat :=
  alphabet.idxOf? c.toUpper

/-- The id of a text, as described above. -/
def read? (s : String) : Except IdError TaskId :=
  if s.utf8ByteSize ≠ 26 then .error .invalidLength
  else
    match s.toList.mapM symbolValue? with
    | none => .error .invalidCharacter
    | some vs => .ok ⟨vs.foldl (fun acc v => (acc * 32 + v) % Nat.pow 2 128) 0⟩

/-- Ids in the order of their numbers, which is the order of their texts. -/
def lt (a b : TaskId) : Bool := a.bits < b.bits

end TaskId

example : (TaskId.ofParts 1709283600000 0).text = "01HQWKVSM00000000000000000" := by decide

end Outbox.Task
