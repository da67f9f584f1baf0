/-!
A hierarchical timing wheel over whole milliseconds, as an event loop keeps its timers.

The wheel has six levels of 64 slots. A slot of level `l` spans `64^l` milliseconds, so a level
spans `64^(l+1)`. A timer due at `when` sits in the lowest level whose span holds both `when`
and the time the wheel has reached (`elapsed`), in the slot of `when` at that level; a timer
further away than the top level reaches sits in the top level, whose slots are then used round
and round.

The wheel does not look at timers one by one. It finds the next *expiration*: the first level
holding timers, and in it the occupied slot due first, a slot being due at its start in the
level's current round or, once that is past, in the next round. Processing an expiration takes
every timer out of the slot, oldest first: a timer due by then moves to the pending line, where
it fires; any other goes back into the wheel at the level it now belongs to. So reaching a timer
far away takes several expirations, one per level it moves down, and each of them is a moment
at which the loop wakes with nothing to do.
-/

set_option autoImplicit false

namespace Outbox.Time

/-- A timer in the wheel: when it is due, where it sits, and the order it was put there in. -/
structure Slotted (α : Type) where
  when : Nat
  level : Nat
  slot : Nat
  order : Nat
  item : α
  deriving Repr

/-- A timing wheel of timers carrying items of type `α`. -/
structure Wheel (α : Type) where
  /-- The time the wheel has reached. -/
  elapsed : Nat
  /-- The timers in the slots. -/
  entries : List (Slotted α)
  /-- Timers due and not yet fired, in the order they fire. -/
  pending : List α
  /-- The order the next timer put in a slot gets. -/
  nextOrder : Nat
  deriving Repr

namespace Wheel

def levels : Nat := 6

def slotsPerLevel : Nat := 64

def maxDuration : Nat := Nat.pow 2 36 - 1

def slotRange (l : Nat) : Nat := Nat.pow slotsPerLevel l

def levelRange (l : Nat) : Nat := Nat.pow slotsPerLevel (l + 1)

/-- The level a timer due at `when` belongs to when the wheel stands at `elapsed`: the level of
the highest bit in which the two differ (the low six bits counted as differing), the top level
for anything further. -/
def levelFor (elapsed when : Nat) : Nat :=
  let masked := (elapsed ^^^ when) ||| (slotsPerLevel - 1)
  let masked := if masked ≥ maxDuration then maxDuration - 1 else masked
  Nat.log2 masked / levels

def slotFor (when l : Nat) : Nat := when / slotRange l % slotsPerLevel

def empty {α : Type} : Wheel α := ⟨0, [], [], 0⟩

variable {α : Type}

def place (w : Wheel α) (base : Nat) (when : Nat) (item : α) : Wheel α :=
  let l := levelFor base when
  let e : Slotted α := ⟨when, l, slotFor when l, w.nextOrder, item⟩
  { w with entries := w.entries ++ [e], nextOrder := w.nextOrder + 1 }

/-- Adds a timer due at `when`; a timer due by now is refused (`false`), to fire at once. -/
def insert (w : Wheel α) (when : Nat) (item : α) : Bool × Wheel α :=
  if when ≤ w.elapsed then (false, w) else (true, w.place w.elapsed when item)

def remove (w : Wheel α) (p : α → Bool) : Wheel α :=
  { w with entries := w.entries.filter (fun e => !p e.item), pending := w.pending.filter (!p ·) }

def holds (w : Wheel α) (p : α → Bool) : Bool :=
  w.entries.any (fun e => p e.item) || w.pending.any p

def isEmpty (w : Wheel α) : Bool := w.entries.isEmpty && w.pending.isEmpty

/-- The next expiration of level `l`: its slot and when it is due; none when the level is empty. -/
def levelExpiration (w : Wheel α) (l : Nat) : Option (Nat × Nat) :=
  match (w.entries.filter (·.level = l)).map (·.slot) with
  | [] => none
  | s :: rest =>
    let start := w.elapsed - w.elapsed % levelRange l
    let due := fun (s : Nat) =>
      let d := start + s * slotRange l
      if d ≤ w.elapsed then d + levelRange l else d
    let best := rest.foldl (fun b s => if due s < due b then s else b) s
    some (best, due best)

/-- The first level from `l` on with an expiration, for `n` levels. -/
def firstExpiration (w : Wheel α) : Nat → Nat → Option (Nat × Nat × Nat)
  | 0, _ => none
  | n + 1, l =>
    match w.levelExpiration l with
    | some (s, d) => some (l, s, d)
    | none => firstExpiration w n (l + 1)

/-- The next expiration: its level, slot and time. Pending timers are due at once. -/
def nextExpiration (w : Wheel α) : Option (Nat × Nat × Nat) :=
  if w.pending.isEmpty then w.firstExpiration levels 0 else some (0, 0, w.elapsed)

def nextTime (w : Wheel α) : Option Nat := (w.nextExpiration).map fun (_, _, d) => d

/-- Processes the expiration of slot `s` of level `l` at `deadline`: its timers, oldest first,
either become pending or move to the level they now belong to. -/
def process (w : Wheel α) (l s deadline : Nat) : Wheel α :=
  let taken := (w.entries.filter fun e => e.level = l ∧ e.slot = s).mergeSort
    fun a b => decide (a.order ≤ b.order)
  let w := { w with entries := w.entries.filter fun e => ¬(e.level = l ∧ e.slot = s) }
  taken.foldl (fun w e =>
    if e.when ≤ deadline then { w with pending := w.pending ++ [e.item] }
    else w.place deadline e.when e.item) w

/-- Brings the wheel to `now`: the items of the timers that fire, in order, and the wheel after;
`fuel` bounds the expirations processed. -/
def advanceTo : Nat → Wheel α → Nat → List α × Wheel α
  | 0, w, now => ([], { w with elapsed := max w.elapsed now })
  | fuel + 1, w, now =>
    match w.pending with
    | item :: rest =>
      let (fired, w) := advanceTo fuel { w with pending := rest } now
      (item :: fired, w)
    | [] =>
      match w.nextExpiration with
      | some (l, s, d) =>
        if d ≤ now then advanceTo fuel { w.process l s d with elapsed := max w.elapsed d } now
        else ([], { w with elapsed := max w.elapsed now })
      | none => ([], { w with elapsed := max w.elapsed now })

/-- The bound on the expirations one call of `poll` processes: each timer moves down at most
once per level and fires once. -/
def pollFuel (w : Wheel α) : Nat := (levels + 2) * (w.entries.length + w.pending.length + 1)

def poll (w : Wheel α) (now : Nat) : List α × Wheel α := advanceTo w.pollFuel w now

end Wheel

end Outbox.Time
