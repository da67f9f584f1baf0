import Outbox.Json.Value

/-!
Reading typed data from a node, with the rules of the on-disk and payload formats.

A record (a fixed set of named fields) is read from an object or, field by field in order, from
an array. In an object, a field may appear once; members with other names are stepped over
whatever they hold, and so is their text even when it is not usable. An array may be shorter than
the record, leaving the last fields absent, but not longer. A field that is absent takes its
default, when it has one.

Text, numbers and nested values are read whole: text must be usable, and a nested value counts
its depth from the document's root, which may hold at most `maxNesting` levels.
-/

set_option autoImplicit false

namespace Outbox.Json

def Node.string? : Node → Option String
  | .text (some s) => some s
  | _ => none

def Node.u32? : Node → Option Nat
  | .number (some (.nat n)) => if n < Nat.pow 2 32 then some n else none
  | _ => none

/-- The members with the given names, each at most once; other members are stepped over. -/
def collectFields (names : List String) :
    List (Option String × Node) → List (String × Node) → Option (List (String × Node))
  | [], acc => some acc
  | (none, _) :: _, _ => none
  | (some k, v) :: rest, acc =>
    if names.contains k then
      if acc.any (·.1 == k) then none else collectFields names rest ((k, v) :: acc)
    else collectFields names rest acc

/-- The fields of a record with the given names, in their order, from an object or an array. -/
def Node.fields? (names : List String) : Node → Option (List (Option Node))
  | .object members => do
    let found ← collectFields names members []
    pure (names.map fun n => found.lookup n)
  | .array items =>
    if items.length ≤ names.length then
      some (items.map some ++ List.replicate (names.length - items.length) none)
    else none
  | _ => none

def required {α : Type} (read : Node → Option α) : Option Node → Option α
  | some n => read n
  | none => none

def withDefault {α : Type} (d : α) (read : Node → Option α) : Option Node → Option α
  | some n => read n
  | none => some d

def optional {α : Type} (read : Node → Option α) : Option Node → Option (Option α)
  | some .null => some none
  | some n => (read n).map some
  | none => some none

def Node.valueWithin? (budget : Nat) (n : Node) : Option Value :=
  if n.nesting ≤ budget then n.toValue? else none

/-- An object read as a map, sorted by key with the last of repeated keys kept, when it sits
`depth` levels below the root. -/
def Node.mapAt? (depth : Nat) (n : Node) : Option (List (String × Value)) :=
  match n with
  | .object _ =>
    match n.valueWithin? (maxNesting - depth) with
    | some (.object ms) => some ms
    | _ => none
  | _ => none

def Node.items? {α : Type} (read : Node → Option α) : Node → Option (List α)
  | .array items => items.mapM read
  | _ => none

end Outbox.Json
