import Mathlib
import Outbox.Proofs.DelayTimer
import Outbox.Proofs.ScenarioRuns

/-!
What an add does to the passes and the delay timer of its outbox.

An add that stores its task and leaves at least the configured number of tasks disarms the timer
and asks for a pass at once; one that leaves fewer arms the timer unless a firing is pending
already, and one that stores nothing touches neither passes nor timers. `TimerSound.add` says what
an add makes of the pending firing and the time before which it cannot fire.
-/

set_option autoImplicit false

namespace Outbox.Scenario

open Outbox.Queue Outbox.Time

namespace World

variable {q : Nat} {p : Option (Nat × Nat)} {w w' : World}

/-! ### Shelf steps -/

theorem onShelf_some {α : Type} {q' : Nat} {f : Shelf → Depot → α × Shelf × Depot} {a : α}
    (h : w.onShelf q' f = some (a, w')) :
    ∃ i d sh, w.inst q' = some i ∧
      w' = { w with depot := d }.modifyInst q' fun i => { i with shelf := sh } := by
  unfold onShelf at h
  obtain ⟨i, hi, he⟩ := Option.map_eq_some_iff.1 h
  generalize f i.shelf w.depot = r at he
  obtain ⟨a₁, sh, d⟩ := r
  simp only [Prod.mk.injEq] at he
  exact ⟨i, d, sh, hi, he.2.symm⟩

theorem inst_onShelf_self {q' : Nat} {i : Instance} (hi : w.inst q' = some i) (d : Depot)
    (sh : Shelf) :
    ({ w with depot := d }.modifyInst q' fun i => { i with shelf := sh }).inst q' =
      some { i with shelf := sh } := by
  rw [inst_modifyInst, if_pos rfl]
  show (w.inst q').map _ = _
  rw [hi]
  rfl

theorem add_some {kind : String} {data : List UInt8} {groupStart : Option String}
    {groups : List String} {c : Created} (h : w.add kind data groupStart groups = some (c, w')) :
    ∃ w₁, w.onShelf w.newest (fun sh d => sh.create d kind data groupStart groups) = some (c, w₁) ∧
      w' = if c.success then w₁.afterAdd w.newest c.inventory.length else w₁ := by
  unfold add at h
  obtain ⟨⟨c₁, w₁⟩, hs, he⟩ := Option.map_eq_some_iff.1 h
  simp only [Prod.mk.injEq] at he
  obtain ⟨rfl, rfl⟩ := he
  exact ⟨w₁, hs, rfl⟩

/-! ### The reaction to a count -/

theorem isSome_inst_of_flights {q' : Nat}
    (h : (w'.inst q').map (·.flight) = (w.inst q').map (·.flight)) :
    (w'.inst q').isSome = (w.inst q').isSome := by
  simpa using congrArg Option.isSome h

theorem debounce_setDebounce_self {t : Debounce} (hi : (w.inst q).isSome) :
    (w.setDebounce (.queue q) t).debounce (.queue q) = t := by
  obtain ⟨i, hi⟩ := Option.isSome_iff_exists.1 hi
  simp [setDebounce, debounce, inst_modifyInst, hi]

theorem afterAdd_of_le {count : Nat} {i : Instance} (hi : w.inst q = some i)
    (hc : i.minTasks ≤ count) :
    w.afterAdd q count = (w.cancelTimer (.queue q)).2.trigger q .nothing := by
  simp only [afterAdd, hi, ge_iff_le, hc, ↓reduceIte]

theorem afterAdd_of_lt {count : Nat} {i : Instance} (hi : w.inst q = some i)
    (hc : count < i.minTasks) : w.afterAdd q count = (w.schedule (.queue q) i.runDelay).2 := by
  simp only [afterAdd, hi, ge_iff_le, Nat.not_le.2 hc, ↓reduceIte]

theorem afterAdd_arms {count : Nat} {i : Instance} (hi : w.inst q = some i)
    (hc : count < i.minTasks) :
    ((w.afterAdd q count).debounce (.queue q)).pending.isSome ∧
      ((w.debounce (.queue q)).pending.isSome → w.afterAdd q count = w) := by
  rw [afterAdd_of_lt hi hc, schedule_queue]
  by_cases hp : (w.debounce (.queue q)).pending.isSome
  · simp only [hp, ↓reduceIte, implies_true, and_true]
  · simp only [hp, Bool.false_eq_true, ↓reduceIte, false_implies, and_true]
    rw [spawn_setDebounce, debounce_setDebounce_self]
    · rfl
    · exact (isSome_inst_of_flights ((spawn_quiet w _).flights q)).trans (congrArg Option.isSome hi)

namespace TimerSound

theorem onShelf (h : TimerSound q p w) {α : Type} {q' : Nat}
    {f : Shelf → Depot → α × Shelf × Depot} {a : α} (hs : w.onShelf q' f = some (a, w')) :
    TimerSound q p w' := by
  obtain ⟨i, d, sh, -, rfl⟩ := onShelf_some hs
  have h₁ : TimerSound q p { w with depot := d } := h.of_flags rfl
  exact h₁.modifyInst q' _ fun _ => rfl

theorem afterAdd_le (h : TimerSound q p w) {count : Nat} {i : Instance} (hi : w.inst q = some i)
    (hc : i.minTasks ≤ count) : TimerSound q none (w.afterAdd q count) := by
  rw [afterAdd_of_le hi hc]
  exact h.cancelOwn.trigger q .nothing

theorem afterAdd_lt (h : TimerSound q p w) {count : Nat} {i : Instance} (hi : w.inst q = some i)
    (hc : count < i.minTasks) :
    TimerSound q (p <|> some (w.nextJob, w.now + min i.runDelay.ceilMillis longestSleep))
      (w.afterAdd q count) := by
  cases p with
  | none => rw [afterAdd_of_lt hi hc]; exact h.arming hi _
  | some je =>
    obtain ⟨hpend, -⟩ := h.awaits je.1 je.2 rfl
    rw [(afterAdd_arms hi hc).2 (by rw [hpend]; rfl)]
    exact h

end TimerSound

/-! ### Adds -/

section Adds

variable {kind : String} {data : List UInt8} {groupStart : Option String} {groups : List String}
  {c : Created} {i : Instance}

theorem add_stored (hi : w.inst w.newest = some i)
    (ha : w.add kind data groupStart groups = some (c, w')) (hs : c.success = true) :
    ∃ w₁ sh, Quiet w w₁ ∧ (∀ q p, TimerSound q p w → TimerSound q p w₁) ∧
      w₁.inst w.newest = some { i with shelf := sh } ∧ w₁.now = w.now ∧
      w' = w₁.afterAdd w.newest c.inventory.length := by
  obtain ⟨w₁, hsh, rfl⟩ := add_some ha
  have hq := onShelf_quiet hsh
  have ht : ∀ q p, TimerSound q p w → TimerSound q p w₁ := fun _ _ h => h.onShelf hsh
  obtain ⟨i₀, d, sh, hi₀, rfl⟩ := onShelf_some hsh
  obtain rfl : i₀ = i := Option.some.inj (hi₀.symm.trans hi)
  exact ⟨_, sh, hq, ht, inst_onShelf_self hi d sh, rfl, if_pos hs⟩

theorem TimerSound.add (h : TimerSound q p w) (hq : w.newest = q) (hi : w.inst q = some i)
    (ha : w.add kind data groupStart groups = some (c, w')) :
    TimerSound q (if c.success then
      (if i.minTasks ≤ c.inventory.length then none
        else p <|> some (w.nextJob, w.now + min i.runDelay.ceilMillis longestSleep)) else p) w' := by
  subst hq
  cases hs : c.success
  · obtain ⟨w₁, hsh, rfl⟩ := add_some ha
    rw [hs, if_neg Bool.false_ne_true]
    exact h.onShelf hsh
  · obtain ⟨w₁, sh, hquiet, ht, hi₁, hnow, rfl⟩ := add_stored hi ha hs
    rw [if_pos rfl]
    by_cases hc : i.minTasks ≤ c.inventory.length
    · rw [if_pos hc]
      exact (ht _ _ h).afterAdd_le hi₁ hc
    · rw [if_neg hc, ← hnow, ← hquiet.nextJob]
      -- the shelf step changed the instance's shelf only, not its run delay
      have h₁ := (ht _ _ h).afterAdd_lt hi₁ (Nat.lt_of_not_le hc)
      exact h₁

end Adds

end World

end Outbox.Scenario
