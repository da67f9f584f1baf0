import Mathlib
import Outbox.Time.Wheel

/-!
A timing wheel never lets a timer go before it is due. Processing a slot keeps every timer's due
time: a timer goes back into the wheel with the time it had or, once the expiration being
processed has reached that time, to the pending line, from which it fires. The wheel's time only
moves forward, to the time it is brought to. So if every timer of an item is due at `e` or later,
that stays so however far the wheel is brought, and the item fires only once the wheel's time has
reached `e` (`NotBefore.poll`).

Nothing here depends on the levels and slots a timer is filed under: they decide when a timer
fires, not whether it can fire early.
-/

set_option autoImplicit false

namespace Outbox.Time.Wheel

variable {α : Type}

/-- No timer of item `x` goes before `e`: each one in a slot is due at `e` or later, and `x` is
pending only once the wheel's time has reached `e`. -/
def NotBefore (w : Wheel α) (x : α) (e : Nat) : Prop :=
  (∀ y ∈ w.entries, y.item = x → e ≤ y.when) ∧ (x ∈ w.pending → e ≤ w.elapsed)

@[simp] theorem place_entries (w : Wheel α) (base when : Nat) (x : α) :
    (w.place base when x).entries =
      w.entries ++ [⟨when, levelFor base when, slotFor when (levelFor base when), w.nextOrder, x⟩] :=
  rfl

@[simp] theorem place_pending (w : Wheel α) (base when : Nat) (x : α) :
    (w.place base when x).pending = w.pending := rfl

@[simp] theorem place_elapsed (w : Wheel α) (base when : Nat) (x : α) :
    (w.place base when x).elapsed = w.elapsed := rfl

theorem NotBefore.place {w : Wheel α} {x : α} {e : Nat} (h : NotBefore w x e) (base when : Nat)
    (z : α) (hz : z = x → e ≤ when) : NotBefore (w.place base when z) x e := by
  refine ⟨fun y hy hx => ?_, h.2⟩
  rcases List.mem_append.1 hy with hy | hy
  · exact h.1 y hy hx
  · rw [List.mem_singleton.1 hy] at hx ⊢
    exact hz hx

theorem insert_cases (w : Wheel α) (when : Nat) (x : α) :
    (when ≤ w.elapsed ∧ w.insert when x = (false, w)) ∨
      (w.elapsed < when ∧ w.insert when x = (true, w.place w.elapsed when x)) := by
  unfold insert
  by_cases h : when ≤ w.elapsed
  · exact .inl ⟨h, if_pos h⟩
  · exact .inr ⟨Nat.lt_of_not_le h, if_neg h⟩

theorem NotBefore.remove {w : Wheel α} {x : α} {e : Nat} (h : NotBefore w x e) (p : α → Bool) :
    NotBefore (w.remove p) x e :=
  ⟨fun y hy => h.1 y (List.mem_filter.1 hy).1, fun hx => h.2 (List.mem_filter.1 hx).1⟩

/-! ### Processing a slot -/

/-- What processing does with one timer taken out of a slot expiring at `deadline`. -/
def settleTimer (deadline : Nat) (w : Wheel α) (y : Slotted α) : Wheel α :=
  if y.when ≤ deadline then { w with pending := w.pending ++ [y.item] }
  else w.place deadline y.when y.item

theorem process_eq (w : Wheel α) (l s deadline : Nat) :
    w.process l s deadline =
      ((w.entries.filter fun e => e.level = l ∧ e.slot = s).mergeSort
        fun a b => decide (a.order ≤ b.order)).foldl (settleTimer deadline)
        { w with entries := w.entries.filter fun e => ¬(e.level = l ∧ e.slot = s) } := rfl

/-- Settling the timers taken out of a slot keeps the wheel's time; every timer then in a slot was
there before or is a taken one with its due time, and every item then pending was pending before
or is a taken timer due by the deadline. -/
theorem foldl_settleTimer (deadline : Nat) (taken : List (Slotted α)) (w : Wheel α) :
    (taken.foldl (settleTimer deadline) w).elapsed = w.elapsed ∧
      (∀ z ∈ (taken.foldl (settleTimer deadline) w).entries,
        z ∈ w.entries ∨ ∃ y ∈ taken, z.item = y.item ∧ z.when = y.when) ∧
      (∀ x ∈ (taken.foldl (settleTimer deadline) w).pending,
        x ∈ w.pending ∨ ∃ y ∈ taken, x = y.item ∧ y.when ≤ deadline) := by
  induction taken generalizing w with
  | nil => exact ⟨rfl, fun _ h => .inl h, fun _ h => .inl h⟩
  | cons y rest ih =>
    obtain ⟨h₁, h₂, h₃⟩ := ih (settleTimer deadline w y)
    have hs : (settleTimer deadline w y).elapsed = w.elapsed ∧
        (∀ z ∈ (settleTimer deadline w y).entries,
          z ∈ w.entries ∨ z.item = y.item ∧ z.when = y.when) ∧
        (∀ x ∈ (settleTimer deadline w y).pending, x ∈ w.pending ∨ x = y.item ∧ y.when ≤ deadline) := by
      unfold settleTimer
      split
      · refine ⟨rfl, fun z hz => .inl hz, fun x hx => ?_⟩
        rcases List.mem_append.1 hx with hx | hx
        · exact .inl hx
        · exact .inr ⟨List.mem_singleton.1 hx, by assumption⟩
      · refine ⟨rfl, fun z hz => ?_, fun x hx => .inl hx⟩
        rcases List.mem_append.1 hz with hz | hz
        · exact .inl hz
        · rw [List.mem_singleton.1 hz]
          exact .inr ⟨rfl, rfl⟩
    refine ⟨h₁.trans hs.1, fun z hz => ?_, fun x hx => ?_⟩
    · rcases h₂ z hz with hz | ⟨u, hu, hi, hw⟩
      · rcases hs.2.1 z hz with hz | ⟨hi, hw⟩
        · exact .inl hz
        · exact .inr ⟨y, List.mem_cons_self, hi, hw⟩
      · exact .inr ⟨u, List.mem_cons_of_mem _ hu, hi, hw⟩
    · rcases h₃ x hx with hx | ⟨u, hu, hi, hw⟩
      · rcases hs.2.2 x hx with hx | ⟨hi, hw⟩
        · exact .inl hx
        · exact .inr ⟨y, List.mem_cons_self, hi, hw⟩
      · exact .inr ⟨u, List.mem_cons_of_mem _ hu, hi, hw⟩

theorem NotBefore.process {w : Wheel α} {x : α} {e : Nat} (h : NotBefore w x e) (l s deadline : Nat) :
    NotBefore { w.process l s deadline with elapsed := max w.elapsed deadline } x e := by
  obtain ⟨-, h₂, h₃⟩ := foldl_settleTimer deadline
    ((w.entries.filter fun e => e.level = l ∧ e.slot = s).mergeSort
      fun a b => decide (a.order ≤ b.order))
    { w with entries := w.entries.filter fun e => ¬(e.level = l ∧ e.slot = s) }
  rw [← process_eq] at h₂ h₃
  refine ⟨fun z hz hx => ?_, fun hx => ?_⟩
  · rcases h₂ z hz with hz | ⟨y, hy, hi, hw⟩
    · exact h.1 z (List.mem_filter.1 hz).1 hx
    · rw [hw]
      exact h.1 y (List.mem_filter.1 (List.mem_mergeSort.1 hy)).1 (hi ▸ hx)
  · rcases h₃ x hx with hx | ⟨y, hy, rfl, hd⟩
    · exact (h.2 hx).trans (le_max_left _ _)
    · exact (h.1 y (List.mem_filter.1 (List.mem_mergeSort.1 hy)).1 rfl).trans
        (hd.trans (le_max_right _ _))

/-! ### Bringing the wheel to a time -/

theorem elapsed_advanceTo (fuel : Nat) (w : Wheel α) (now : Nat) :
    (advanceTo fuel w now).2.elapsed = max w.elapsed now := by
  induction fuel generalizing w with
  | zero => rfl
  | succ fuel ih =>
    unfold advanceTo
    split
    · rw [ih]
    · split
      · split
        · -- an expiration due by `now` is processed, and the time moves to it first
          rw [ih]
          simp only
          omega
        · rfl
      · rfl

theorem NotBefore.stay {w : Wheel α} {x : α} {e : Nat} (h : NotBefore w x e) (now : Nat) :
    NotBefore { w with elapsed := max w.elapsed now } x e ∧
      (x ∈ ([] : List α) → e ≤ max w.elapsed now) :=
  ⟨⟨h.1, fun hx => (h.2 hx).trans (le_max_left _ _)⟩, fun hx => absurd hx List.not_mem_nil⟩

/-- Bringing the wheel to a time keeps `x` from going early, and fires it only once the wheel's
time has reached `e`. The induction follows the expirations processed. -/
theorem NotBefore.advanceTo {w : Wheel α} {x : α} {e : Nat} (h : NotBefore w x e) (fuel now : Nat) :
    NotBefore (Wheel.advanceTo fuel w now).2 x e ∧
      (x ∈ (Wheel.advanceTo fuel w now).1 → e ≤ (Wheel.advanceTo fuel w now).2.elapsed) := by
  induction fuel generalizing w with
  | zero => exact h.stay now
  | succ fuel ih =>
    unfold Wheel.advanceTo
    split
    · -- the first pending item fires; the rest of the line stays pending
      rename_i item rest hp
      have ht := elapsed_advanceTo fuel { w with pending := rest } now
      have h' : NotBefore { w with pending := rest } x e :=
        ⟨h.1, fun hx => h.2 (by rw [hp]; exact List.mem_cons_of_mem _ hx)⟩
      obtain ⟨h₁, h₂⟩ := ih h'
      refine ⟨h₁, fun hx => ?_⟩
      rcases List.mem_cons.1 hx with rfl | hx
      · have hw := h.2 (by rw [hp]; exact List.mem_cons_self)
        simp only [ht]
        omega
      · exact h₂ hx
    · split
      · split
        · exact ih (h.process _ _ _)
        · exact h.stay now
      · exact h.stay now

theorem elapsed_poll (w : Wheel α) (now : Nat) : (w.poll now).2.elapsed = max w.elapsed now :=
  elapsed_advanceTo _ _ _

theorem NotBefore.poll {w : Wheel α} {x : α} {e : Nat} (h : NotBefore w x e) (now : Nat) :
    NotBefore (w.poll now).2 x e ∧ (x ∈ (w.poll now).1 → e ≤ (w.poll now).2.elapsed) :=
  h.advanceTo _ _

end Outbox.Time.Wheel
