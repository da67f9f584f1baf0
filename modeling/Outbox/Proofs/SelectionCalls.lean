import Mathlib
import Outbox.Proofs.PassOrder

/-!
The selection of a pass over any sequence of calls.

A caller asks the selection for the next task again and again, each time with an inventory, the
task run last and the task that failed last, and resets it when a pass ends. Main statement: after
every call the selection remembers exactly the tasks named as run last, and the groups opened by
the tasks named as failed last, in the calls since the latest reset that saw a non-empty
inventory; and each call answers with the first entry after the task run last (of the whole
inventory when that task is not in it) that has not run and belongs to no excluded group.

The proof carries `Remembers`, the two membership equations, from one call to the next; the answer
of a call is then read off the state after its own bookkeeping.
-/

set_option autoImplicit false

namespace Outbox.Queue

open Outbox.Task

/-- A call on the selection of a pass. -/
inductive Selection.Call where
  /-- Choose the next task of an inventory, given the task run last and the task failed last. -/
  | next (inventory : List Entry) (lastRan lastFailed : Option Entry)
  /-- Forget the pass. -/
  | reset
  deriving DecidableEq, Repr

namespace Selection.Call

def isReset : Call → Bool
  | .next .. => false
  | .reset => true

/-- The task a call names as run last, when it sees a non-empty inventory. -/
def ranId : Call → Option TaskId
  | .next inv lastRan _ => if inv = [] then none else lastRan.map (·.id)
  | .reset => none

/-- The group opened by the task a call names as failed last, when it sees a non-empty
inventory. -/
def failedGroup : Call → Option String
  | .next inv _ lastFailed => if inv = [] then none else lastFailed.bind (·.groupStart)
  | .reset => none

end Selection.Call

open Selection (Call)

def sinceReset (cs : List Call) : List Call := (cs.reverse.takeWhile (!·.isReset)).reverse

def ranSince (cs : List Call) : List TaskId := (sinceReset cs).filterMap Call.ranId

/-- The groups of the tasks named as failed last since the latest reset. -/
def failedSince (cs : List Call) : List String := (sinceReset cs).filterMap Call.failedGroup

/-- The calls leave an entry free to run: its task has not run, and it belongs to no group
whose opening task failed. -/
def Free (cs : List Call) (e : Entry) : Prop :=
  e.id ∉ ranSince cs ∧ ∀ g ∈ e.groupMembers, g ∉ failedSince cs

instance (cs : List Call) : DecidablePred (Free cs) := fun e =>
  inferInstanceAs (Decidable (e.id ∉ ranSince cs ∧ ∀ g ∈ e.groupMembers, g ∉ failedSince cs))

/-- The entries after the first one with a given id, if there is one. -/
def after (id : TaskId) (inv : List Entry) : Option (List Entry) :=
  (inv.dropWhile (·.id ≠ id)).tail?

/-- Where a call scans: after the task run last, or the whole inventory when it is not there. -/
def scanned (inv : List Entry) (lastRan : Option Entry) : List Entry :=
  (lastRan.bind fun e => after e.id inv).getD inv

namespace Selection

def perform (s : Selection) : Call → Selection
  | .next inv lastRan lastFailed => (s.next inv lastRan lastFailed).2
  | .reset => fresh

def replay (cs : List Call) : Selection := cs.foldl perform fresh

variable {s : Selection} {inv : List Entry} {lastRan lastFailed : Option Entry}

theorem next_of_ne_nil (h : inv ≠ []) :
    s.next inv lastRan lastFailed =
      ((remaining inv lastRan).find? (s.record lastRan lastFailed).eligible,
        s.record lastRan lastFailed) := by
  simp [next, List.isEmpty_iff, h]

@[simp] theorem perform_reset (s : Selection) : s.perform .reset = fresh := rfl

@[simp] theorem perform_next_nil (s : Selection) (lastRan lastFailed : Option Entry) :
    s.perform (.next [] lastRan lastFailed) = s := rfl

theorem perform_next_of_ne_nil (h : inv ≠ []) :
    s.perform (.next inv lastRan lastFailed) = s.record lastRan lastFailed := by
  simp [perform, next_of_ne_nil h]

theorem after_eq_findIdx? (id : TaskId) (inv : List Entry) :
    after id inv = (inv.findIdx? (·.id == id)).map fun i => inv.drop (i + 1) := by
  induction inv with
  | nil => rfl
  | cons x rest ih =>
    unfold after at ih ⊢
    rw [List.dropWhile_cons, List.findIdx?_cons]
    by_cases hx : x.id = id
    · simp [hx]
    · rw [if_pos (by simpa using hx), ih, if_neg (by simpa using hx), Option.map_map]
      rfl

theorem remaining_eq_scanned (inv : List Entry) (lastRan : Option Entry) :
    remaining inv lastRan = scanned inv lastRan := by
  cases lastRan with
  | none => rfl
  | some e =>
    simp only [remaining, scanned, Option.bind_some, after_eq_findIdx?]
    cases inv.findIdx? (·.id == e.id) <;> rfl

end Selection

@[simp] theorem sinceReset_nil : sinceReset [] = [] := rfl

@[simp] theorem sinceReset_append_reset (cs : List Call) : sinceReset (cs ++ [.reset]) = [] := by
  simp [sinceReset, Call.isReset]

@[simp] theorem sinceReset_append_next (cs : List Call) (inv : List Entry)
    (lastRan lastFailed : Option Entry) :
    sinceReset (cs ++ [.next inv lastRan lastFailed]) =
      sinceReset cs ++ [.next inv lastRan lastFailed] := by
  simp [sinceReset, Call.isReset]

@[simp] theorem ranSince_append_reset (cs : List Call) : ranSince (cs ++ [.reset]) = [] := by
  simp [ranSince]

@[simp] theorem failedSince_append_reset (cs : List Call) : failedSince (cs ++ [.reset]) = [] := by
  simp [failedSince]

section Append

variable {cs : List Call} {inv : List Entry} {lastRan lastFailed : Option Entry}

@[simp] theorem mem_ranSince_append_next {x : TaskId} :
    x ∈ ranSince (cs ++ [.next inv lastRan lastFailed]) ↔
      x ∈ ranSince cs ∨ inv ≠ [] ∧ lastRan.map (·.id) = some x := by
  by_cases hinv : inv = [] <;> simp [ranSince, Call.ranId, hinv]

@[simp] theorem mem_failedSince_append_next {g : String} :
    g ∈ failedSince (cs ++ [.next inv lastRan lastFailed]) ↔
      g ∈ failedSince cs ∨ inv ≠ [] ∧ lastFailed.bind (·.groupStart) = some g := by
  by_cases hinv : inv = [] <;> simp [failedSince, Call.failedGroup, hinv]

end Append

/-- The selection remembers what the calls since the latest reset recorded. -/
structure Remembers (cs : List Call) (s : Selection) : Prop where
  ran : ∀ x, x ∈ s.ran ↔ x ∈ ranSince cs
  excluded : ∀ g, g ∈ s.excluded ↔ g ∈ failedSince cs

namespace Remembers

variable {cs : List Call} {s : Selection}

theorem fresh : Remembers [] Selection.fresh where
  ran := by simp [Selection.fresh, ranSince]
  excluded := by simp [Selection.fresh, failedSince]

theorem eligible_eq (h : Remembers cs s) : s.eligible = fun e => decide (Free cs e) := by
  funext e
  rw [Bool.eq_iff_iff, decide_eq_true_iff]
  simp [Selection.eligible, Entry.memberOfAny, Free, h.ran, h.excluded]

/-- One call keeps the selection in step with the calls: a reset forgets everything, a call on an
empty inventory records nothing, and any other call records its task run last and the group of
its task failed last. -/
theorem perform (h : Remembers cs s) (c : Call) : Remembers (cs ++ [c]) (s.perform c) := by
  cases c with
  | reset => exact ⟨by simp [Selection.fresh], by simp [Selection.fresh]⟩
  | next inv lastRan lastFailed =>
    by_cases hinv : inv = []
    · -- an empty inventory ends the call before its bookkeeping
      subst hinv
      exact ⟨fun x => by simp [h.ran], fun g => by simp [h.excluded]⟩
    · rw [Selection.perform_next_of_ne_nil hinv]
      refine ⟨fun x => ?_, fun g => ?_⟩
      · rw [Selection.mem_record_ran, h.ran, mem_ranSince_append_next]
        simp [hinv]
      · rw [Selection.mem_record_excluded, h.excluded, mem_failedSince_append_next]
        simp [hinv]

theorem foldl (h : Remembers cs s) (more : List Call) :
    Remembers (cs ++ more) (more.foldl Selection.perform s) := by
  induction more generalizing cs s with
  | nil => simpa using h
  | cons c more ih =>
    simpa using ih (h.perform c)

theorem replay (cs : List Call) : Remembers cs (Selection.replay cs) := by
  simpa [Selection.replay] using fresh.foldl cs

theorem next_fst (h : Remembers cs s) (inv : List Entry) (lastRan lastFailed : Option Entry) :
    (s.next inv lastRan lastFailed).1 =
      if inv = [] then none
      else (scanned inv lastRan).find? fun e =>
        decide (Free (cs ++ [.next inv lastRan lastFailed]) e) := by
  by_cases hinv : inv = []
  · subst hinv
    rfl
  · have hnext :
        Remembers (cs ++ [.next inv lastRan lastFailed]) (s.record lastRan lastFailed) := by
      simpa [Selection.perform_next_of_ne_nil hinv] using h.perform (.next inv lastRan lastFailed)
    rw [Selection.next_of_ne_nil hinv, if_neg hinv, hnext.eligible_eq,
      Selection.remaining_eq_scanned]

end Remembers

/-- Over any sequence of calls from a fresh selection: after each call the selection remembers
exactly the tasks named as run last and the groups of the tasks named as failed last, by the
calls since the latest reset that saw a non-empty inventory; and the next call answers nothing
for an empty inventory, else the first entry after the task run last (of the whole inventory
when that task is not in it) whose id has not run and whose groups are none of the excluded
ones, counting that call's own task run last and failed last. -/
theorem selection_follows_calls (cs : List Call) :
    (∀ x, x ∈ (Selection.replay cs).ran ↔ x ∈ ranSince cs) ∧
    (∀ g, g ∈ (Selection.replay cs).excluded ↔ g ∈ failedSince cs) ∧
    ∀ inv lastRan lastFailed, ((Selection.replay cs).next inv lastRan lastFailed).1 =
      if inv = [] then none
      else (scanned inv lastRan).find? fun e =>
        decide (Free (cs ++ [.next inv lastRan lastFailed]) e) :=
  ⟨(Remembers.replay cs).ran, (Remembers.replay cs).excluded, (Remembers.replay cs).next_fst⟩

-- A failed opening task keeps the members of its group out of the pass until the reset.
example :
    let a : Entry := ⟨⟨1⟩, "t", default, some "g", [], 0⟩
    let b : Entry := ⟨⟨2⟩, "t", default, none, ["g"], 0⟩
    let d : Entry := ⟨⟨4⟩, "t", default, none, [], 0⟩
    ((Selection.replay [.next [a, b, d] none none]).next [a, b, d] (some a) (some a)).1 = some d ∧
    ((Selection.replay [.next [a, b, d] none none, .next [a, b, d] (some a) (some a), .reset]).next
      [a, b, d] (some a) none).1 = some b := by
  decide

end Outbox.Queue
