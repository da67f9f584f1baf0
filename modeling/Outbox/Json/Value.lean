/-!
JSON values. `Value` is a value to write: numbers are 64-bit integers or finite doubles (kept by
their bits, so values have decidable equality), and object members keep the order they are
given in. `Node` is a value as read, which may also hold what a reader can step over but not
use: text that is not valid UTF-8 or holds a lone surrogate escape, and numbers outside the range
of a double. `Node.toValue?` is the reading of a whole document as a value: it refuses those,
and it turns each object into a map, with members sorted by key and a repeated key keeping its
last value.
-/

set_option autoImplicit false

namespace Outbox.Json

/-- A number: an integer in `0 .. 2^64 - 1`, the negative integer `-n` for `1 ≤ n ≤ 2^63`, or a
finite double given by its bits. -/
inductive Number where
  | nat (n : Nat)
  | neg (n : Nat)
  | float (bits : UInt64)
  deriving DecidableEq, Repr, Inhabited

/-- A value to write. -/
inductive Value where
  | null
  | bool (b : Bool)
  | number (n : Number)
  | str (s : String)
  | array (items : List Value)
  | object (members : List (String × Value))
  deriving Repr, Inhabited

/-- A value as read. `text none` is text a reader may skip but not use; `number none` is a
number outside the range of a double; a member key is `none` when its text is not usable. -/
inductive Node where
  | null
  | bool (b : Bool)
  | number (n : Option Number)
  | text (s : Option String)
  | array (items : List Node)
  | object (members : List (Option String × Node))
  deriving Repr, Inhabited

/-- Inserts a member into members sorted by key, replacing a member with the same key. -/
def insertMember (k : String) (v : Value) : List (String × Value) → List (String × Value)
  | [] => [(k, v)]
  | (k', v') :: rest =>
    if k < k' then (k, v) :: (k', v') :: rest
    else if k = k' then (k, v) :: rest
    else (k', v') :: insertMember k v rest

/-- Members as a map: sorted by key, the last of repeated keys kept. -/
def toMap (members : List (String × Value)) : List (String × Value) :=
  members.foldl (fun acc m => insertMember m.1 m.2 acc) []

mutual
/-- A node as a value: fails on unusable text or numbers; objects become maps. -/
def Node.toValue? : Node → Option Value
  | .null => some .null
  | .bool b => some (.bool b)
  | .number n => n.map .number
  | .text s => s.map .str
  | .array items => (Node.itemsToValues? items).map .array
  | .object members => (Node.membersToValues? members).map (fun ms => .object (toMap ms))

/-- Each item as a value. -/
def Node.itemsToValues? : List Node → Option (List Value)
  | [] => some []
  | n :: rest => do
    let v ← n.toValue?
    let vs ← Node.itemsToValues? rest
    pure (v :: vs)

/-- Each member as a keyed value. -/
def Node.membersToValues? : List (Option String × Node) → Option (List (String × Value))
  | [] => some []
  | (k, n) :: rest => do
    let k ← k
    let v ← n.toValue?
    let vs ← Node.membersToValues? rest
    pure ((k, v) :: vs)
end

mutual
/-- A value as a node, as a reader hands it on: usable text, numbers in range, every key usable. -/
def Value.toNode : Value → Node
  | .null => .null
  | .bool b => .bool b
  | .number n => .number (some n)
  | .str s => .text (some s)
  | .array items => .array (Value.itemsToNodes items)
  | .object members => .object (Value.membersToNodes members)

def Value.itemsToNodes : List Value → List Node
  | [] => []
  | v :: rest => v.toNode :: Value.itemsToNodes rest

def Value.membersToNodes : List (String × Value) → List (Option String × Node)
  | [] => []
  | (k, v) :: rest => (some k, v.toNode) :: Value.membersToNodes rest
end

mutual
/-- How deeply arrays and objects nest in a node: zero for a scalar. -/
def Node.nesting : Node → Nat
  | .array items => Node.itemsNesting items + 1
  | .object members => Node.membersNesting members + 1
  | _ => 0

def Node.itemsNesting : List Node → Nat
  | [] => 0
  | n :: rest => max n.nesting (Node.itemsNesting rest)

def Node.membersNesting : List (Option String × Node) → Nat
  | [] => 0
  | (_, n) :: rest => max n.nesting (Node.membersNesting rest)
end

def maxNesting : Nat := 127

/-- A whole document read as a value: usable everywhere and nested at most `maxNesting` deep. -/
def Node.document? (n : Node) : Option Value :=
  if n.nesting ≤ maxNesting then n.toValue? else none

def Value.get? (v : Value) (k : String) : Option Value :=
  match v with
  | .object members => (members.find? (fun m => m.1 == k)).map (·.2)
  | _ => none

def Value.getStr? : Value → Option String
  | .str s => some s
  | _ => none

def Value.getNat? : Value → Option Nat
  | .number (.nat n) => some n
  | _ => none

def Value.getInt? : Value → Option Int
  | .number (.nat n) => some n
  | .number (.neg n) => some (-(n : Int))
  | _ => none

def Value.getArray? : Value → Option (List Value)
  | .array items => some items
  | _ => none

def Value.getBool? : Value → Option Bool
  | .bool b => some b
  | _ => none

def Value.nat (n : Nat) : Value := .number (.nat n)

def Value.int (i : Int) : Value :=
  if i < 0 then .number (.neg i.natAbs) else .number (.nat i.toNat)

def Value.opt {α : Type} (f : α → Value) : Option α → Value
  | some a => f a
  | none => .null

end Outbox.Json
