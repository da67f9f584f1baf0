import Mathlib
import Outbox.Proofs.ProbeTimer
import Outbox.Proofs.WheelOnTime

/-!
The agenda keeps timer jobs to their deadlines. Virtual time moves only when no job is ready, and
then only to the time the wheel next needs attention, where the wheel fires exactly the timers
due. So a timer job that is ready, or armed with its timer in the wheel, wakes at its deadline and
not later. `DueAt` says what holds of such a job between two actions of the agenda, and a rest keeps
it (`DueAt.rest`).
-/

set_option autoImplicit false

namespace Outbox.Scenario

open Outbox.Time

namespace World

variable {w w' : World} {id e : Nat}

/-- Timer job `id` wakes at `e`: it is live and not put aside; virtual time has not passed `e`; its
timers in the wheel are all due at `e`; and it is in line, with `e` the end of its delay from now
while unarmed and now once armed, or it is armed and out of line with a timer in the wheel. -/
structure DueAt (w : World) (id e : Nat) : Prop where
  clock : w.now ≤ e
  aside : Waker.job id ∉ w.deferred
  timers : ∀ y ∈ w.wheel.entries, y.item = .job id → y.when = e
  state : ∃ s o g d a, w.slot id = some s ∧ s.job = .timer o g d a ∧ s.finished = none ∧
    ((id ∈ w.ready ∧ (a = false → e = w.now + min d.ceilMillis longestSleep) ∧
        (a = true → e = w.now)) ∨
      (a = true ∧ s.queued = false ∧ ∃ y ∈ w.wheel.entries, y.item = .job id))

theorem DueAt.frame (h : w.DueAt id e) (hs : w'.slot id = w.slot id)
    (hr : id ∈ w.ready → id ∈ w'.ready)
    (hw : ∀ y : Slotted Waker, y.item = .job id → (y ∈ w'.wheel.entries ↔ y ∈ w.wheel.entries))
    (hn : w'.now = w.now) (hd : Waker.job id ∉ w'.deferred) : w'.DueAt id e := by
  obtain ⟨hc, -, hall, s, o, g, d, a, hsl, hjob, hf, hst⟩ := h
  refine ⟨hn ▸ hc, hd, fun y hy hyi => hall y ((hw y hyi).1 hy) hyi, s, o, g, d, a, hs ▸ hsl, hjob,
    hf, ?_⟩
  rw [hn]
  rcases hst with ⟨hin, hun, harm⟩ | ⟨ha, hq, y, hy, hyi⟩
  · exact .inl ⟨hr hin, hun, harm⟩
  · exact .inr ⟨ha, hq, y, (hw y hyi).2 hy, hyi⟩

/-! ### Waking -/

theorem slot_enqueue (w : World) (k j : Nat) : (w.enqueue k).slot j = w.slot j := by
  rcases enqueue_cases w k with he | he <;> rw [he] <;> rfl

theorem enqueue_wheel (w : World) (k : Nat) :
    (w.enqueue k).wheel = w.wheel ∧ (w.enqueue k).deferred = w.deferred := by
  rcases enqueue_cases w k with he | he <;> rw [he] <;> exact ⟨rfl, rfl⟩

theorem wake_keeps (w : World) (k : Nat) :
    (∀ j, j ≠ k → (w.wake k).slot j = w.slot j) ∧ (∀ j ∈ w.ready, j ∈ (w.wake k).ready) ∧
      (w.wake k).wheel = w.wheel ∧ (w.wake k).now = w.now ∧ (w.wake k).deferred = w.deferred := by
  rcases wake_cases w k with hw | ⟨s, -, -, -, hw⟩ <;> rw [hw]
  · exact ⟨fun _ _ => rfl, fun _ h => h, rfl, rfl, rfl⟩
  · obtain ⟨hwh, hd⟩ := enqueue_wheel (w.modifySlot k fun s => { s with queued := true }) k
    refine ⟨fun j hj => ?_, fun j hj => mem_ready_enqueue.2 (.inl hj), hwh, ?_, hd⟩
    · rw [slot_enqueue]
      exact slot_modifySlot_ne hj
    · simp only [now, hwh]
      rfl

theorem wake_self {k : Nat} {s : JobSlot} (hs : w.slot k = some s) (hf : s.finished = none)
    (hq : s.queued = false) :
    (w.wake k).slot k = some { s with queued := true } ∧ k ∈ (w.wake k).ready := by
  have he : w.wake k = (w.modifySlot k fun s => { s with queued := true }).enqueue k := by
    simp only [wake, hs, hf, hq, Option.isSome_none, Bool.or_false, Bool.false_eq_true, ↓reduceIte]
  rw [he]
  refine ⟨?_, mem_ready_enqueue.2 (.inr rfl)⟩
  rw [slot_enqueue]
  exact slot_modifySlot_of hs _

theorem wake_of_queued {k : Nat} {s : JobSlot} (hs : w.slot k = some s) (hq : s.queued = true) :
    w.wake k = w := by
  simp only [wake, hs, hq, Bool.or_true, ↓reduceIte]

section Wakers

variable {f : World → Waker → World}

/-- Ringing or rousing: a job is woken, and the awaiting step only changes flags. -/
structure Wakes (f : World → Waker → World) : Prop where
  job : ∀ w k, f w (.job k) = w.wake k
  main : ∀ w, (f w .main).jobs = w.jobs ∧ (f w .main).ready = w.ready ∧
    (f w .main).wheel = w.wheel ∧ (f w .main).deferred = w.deferred

theorem wakes_ring : Wakes ring := ⟨fun _ _ => rfl, fun _ => ⟨rfl, rfl, rfl, rfl⟩⟩

theorem wakes_rouse : Wakes rouse := ⟨fun _ _ => rfl, fun _ => ⟨rfl, rfl, rfl, rfl⟩⟩

/-- Waking in turn keeps every job not woken, every job in line, the wheel and what is put aside. -/
theorem Wakes.foldl (hf : Wakes f) (L : List Waker) (w : World) :
    (∀ j, Waker.job j ∉ L → (L.foldl f w).slot j = w.slot j) ∧
      (∀ j ∈ w.ready, j ∈ (L.foldl f w).ready) ∧ (L.foldl f w).wheel = w.wheel ∧
      (L.foldl f w).deferred = w.deferred := by
  induction L generalizing w with
  | nil => exact ⟨fun _ _ => rfl, fun _ h => h, rfl, rfl⟩
  | cons x rest ih =>
    have hx : (∀ j, Waker.job j ≠ x → (f w x).slot j = w.slot j) ∧ (∀ j ∈ w.ready, j ∈ (f w x).ready) ∧
        (f w x).wheel = w.wheel ∧ (f w x).deferred = w.deferred := by
      cases x with
      | job k =>
        rw [hf.job]
        obtain ⟨hs, hr, hwh, -, hd⟩ := wake_keeps w k
        exact ⟨fun j hj => hs j fun h => hj (h ▸ rfl), hr, hwh, hd⟩
      | main =>
        obtain ⟨hj, hr, hwh, hd⟩ := hf.main w
        exact ⟨fun j _ => by simp only [slot, hj], fun j h => hr ▸ h, hwh, hd⟩
    obtain ⟨h₁, h₂, h₃, h₄⟩ := ih (f w x)
    refine ⟨fun j hj => ?_, fun j hj => h₂ j (hx.2.1 j hj), h₃.trans hx.2.2.1, h₄.trans hx.2.2.2⟩
    rw [List.foldl_cons, h₁ j fun h => hj (List.mem_cons_of_mem _ h)]
    exact hx.1 j fun h => hj (h ▸ List.mem_cons_self)

theorem Wakes.foldl_lined (hf : Wakes f) (L : List Waker) {j : Nat} {s : JobSlot}
    (hs : w.slot j = some s) (hq : s.queued = true) (hj : j ∈ w.ready) :
    (L.foldl f w).slot j = some s ∧ j ∈ (L.foldl f w).ready := by
  induction L generalizing w with
  | nil => exact ⟨hs, hj⟩
  | cons x rest ih =>
    refine ih ?_ ?_
    · cases x with
      | job k =>
        rw [hf.job]
        by_cases hjk : j = k
        · subst hjk
          rw [wake_of_queued hs hq]
          exact hs
        · rw [(wake_keeps w k).1 j hjk]
          exact hs
      | main => simp only [slot, (hf.main w).1, ← hs]
    · exact (hf.foldl [x] w).2.1 j hj

theorem Wakes.foldl_woken (hf : Wakes f) {L : List Waker} {j : Nat} {s : JobSlot}
    (hj : Waker.job j ∈ L) (hs : w.slot j = some s) (hfin : s.finished = none)
    (hq : s.queued = false) :
    (L.foldl f w).slot j = some { s with queued := true } ∧ j ∈ (L.foldl f w).ready := by
  induction L generalizing w with
  | nil => cases hj
  | cons x rest ih =>
    by_cases hx : x = .job j
    · subst hx
      rw [List.foldl_cons, hf.job]
      obtain ⟨hs', hr'⟩ := wake_self hs hfin hq
      exact hf.foldl_lined rest hs' rfl hr'
    · have hj' : Waker.job j ∈ rest := (List.mem_cons.1 hj).resolve_left fun h => hx h.symm
      have hs' : (f w x).slot j = some s := by
        have := (hf.foldl [x] w).1 j (by simpa using fun h => hx h.symm)
        rw [List.foldl_cons, List.foldl_nil] at this
        rw [this, hs]
      exact ih hj' hs'

end Wakers

/-! ### Resting -/

/-- The world after a rest polls the wheel at `t`: the timers due ring, then what was put aside
is roused. -/
def polledAt (w : World) (t : Nat) : World :=
  ((w.wheel.poll t).1.foldl ring { w with wheel := (w.wheel.poll t).2 }).deferred.foldl rouse
    { ((w.wheel.poll t).1.foldl ring { w with wheel := (w.wheel.poll t).2 }) with deferred := [] }

theorem polledAt_wheel (w : World) (t : Nat) : (w.polledAt t).wheel = (w.wheel.poll t).2 := by
  unfold polledAt
  rw [(wakes_rouse.foldl _ _).2.2.1, (wakes_ring.foldl _ _).2.2.1]

theorem polledAt_of_idle (hd : w.deferred = []) (t : Nat) :
    w.polledAt t =
      { (w.wheel.poll t).1.foldl ring { w with wheel := (w.wheel.poll t).2 } with deferred := [] } := by
  unfold polledAt
  have h₁ : ((w.wheel.poll t).1.foldl ring { w with wheel := (w.wheel.poll t).2 }).deferred = [] := by
    rw [(wakes_ring.foldl _ _).2.2.2]
    exact hd
  rw [h₁]
  rfl

/-- A rest takes its news or waits: the wheel is polled at the time reached, which is now or, when
it waits, the time the wheel next needs attention. -/
theorem rest_cases {look : Bool} (hr : w.rest look = some w') :
    ∃ (w₁ : World) (t : Nat), w₁.jobs = w.jobs ∧ w₁.ready = w.ready ∧ w₁.wheel = w.wheel ∧
      w₁.deferred = w.deferred ∧ w₁.probe = w.probe ∧ w₁.mainRang = w.mainRang ∧
      (t = w.now ∨ look = false ∧ w.wheel.nextTime = some t) ∧ w' = w₁.polledAt t := by
  unfold World.rest at hr
  obtain ⟨⟨w₁, t⟩, hm, he⟩ := Option.map_eq_some_iff.1 hr
  refine ⟨w₁, t, ?_⟩
  have hw₁ : w₁.jobs = w.jobs ∧ w₁.ready = w.ready ∧ w₁.wheel = w.wheel ∧ w₁.deferred = w.deferred ∧
      w₁.probe = w.probe ∧ w₁.mainRang = w.mainRang ∧
      (t = w.now ∨ look = false ∧ w.wheel.nextTime = some t) := by
    split at hm
    · rename_i t' ht'
      split at hm
      · simp only [Option.some.injEq, Prod.mk.injEq] at hm
        obtain ⟨rfl, rfl⟩ := hm
        exact ⟨rfl, rfl, rfl, rfl, rfl, rfl, .inl rfl⟩
      · split at hm
        · simp only [Option.some.injEq, Prod.mk.injEq] at hm
          obtain ⟨rfl, rfl⟩ := hm
          exact ⟨rfl, rfl, rfl, rfl, rfl, rfl, .inl rfl⟩
        · rename_i hl
          simp only [Option.some.injEq, Prod.mk.injEq] at hm
          obtain ⟨rfl, rfl⟩ := hm
          simp only [Bool.or_eq_true, not_or, Bool.not_eq_true] at hl
          exact ⟨rfl, rfl, rfl, rfl, rfl, rfl, .inr ⟨hl.1, ht'⟩⟩
    · split at hm
      · simp only [Option.some.injEq, Prod.mk.injEq] at hm
        obtain ⟨rfl, rfl⟩ := hm
        exact ⟨rfl, rfl, rfl, rfl, rfl, rfl, .inl rfl⟩
      · cases hm
  refine ⟨hw₁.1, hw₁.2.1, hw₁.2.2.1, hw₁.2.2.2.1, hw₁.2.2.2.2.1, hw₁.2.2.2.2.2.1, hw₁.2.2.2.2.2.2, ?_⟩
  rw [← he]
  rfl

theorem rest_time_le {t : Nat} (hw : w.wheel.OnTime) (ht : t = w.now ∨ w.wheel.nextTime = some t) :
    ∀ y ∈ w.wheel.entries, t ≤ Wheel.slotDue w.wheel.elapsed y.level y.slot := by
  rcases ht with rfl | ht
  · exact fun y hy => (Wheel.slotDue_spec _ _ (hw.filed y hy).slot_lt).1.le
  · exact hw.nextTime_le ht

theorem rest_onTime {look : Bool} (hw : w.wheel.OnTime) (hr : w.rest look = some w') :
    w'.wheel.OnTime := by
  obtain ⟨w₁, t, -, -, hwh, -, -, -, ht, rfl⟩ := rest_cases hr
  have hp := (hwh ▸ hw).poll (hwh ▸ rest_time_le hw (ht.imp_right And.right))
  rw [polledAt_wheel]
  exact hp.1

/-- Polling the wheel at now, or, with no job ready, at the time it next needs attention, then
ringing the timers that fired and rousing the jobs put aside, keeps a timer job due at `e`: time
moves no further than `e`, and the job's timers fire, waking it, once time has reached `e`. -/
theorem DueAt.afterPoll (h : w.DueAt id e) (hw : w.wheel.OnTime) {t : Nat}
    (ht : t = w.now ∨ w.ready = [] ∧ w.wheel.nextTime = some t) : (w.polledAt t).DueAt id e := by
  unfold polledAt
  obtain ⟨hc, haside, hall, s, o, g, d, a, hs, hjob, hf, hst⟩ := h
  have hle := rest_time_le hw (ht.imp_right And.right)
  have hclock : t ≤ e := by
    rcases hst with ⟨hin, -, -⟩ | ⟨-, -, y, hy, hyi⟩
    · rcases ht with rfl | ⟨hr, -⟩
      · exact hc
      · rw [hr] at hin
        cases hin
    · exact (hle y hy).trans ((hw.filed y hy).due_le.trans (hall y hy hyi).le)
  obtain ⟨-, hel, hfired, hfrom, hto⟩ := hw.poll hle
  generalize w.wheel.poll t = r at hel hfired hfrom hto
  obtain ⟨due, wheel⟩ := r
  dsimp only at hel hfired hfrom hto ⊢
  have hs₂ : ({ w with wheel := wheel } : World).slot id = some s := hs
  obtain ⟨hkeep₂, hready₂, hwheel₂, hdef₂⟩ := wakes_ring.foldl due { w with wheel := wheel }
  set w₂ := due.foldl ring { w with wheel := wheel } with hw₂
  have haside₂ : Waker.job id ∉ w₂.deferred := by rw [hdef₂]; exact haside
  obtain ⟨hkeep₃, hready₃, hwheel₃, hdef₃⟩ := wakes_rouse.foldl w₂.deferred { w₂ with deferred := [] }
  have hnow : (w₂.deferred.foldl rouse { w₂ with deferred := [] }).now = max w.now t := by
    simp only [now, hwheel₃]
    rw [hwheel₂]
    exact hel
  have hslot : (w₂.deferred.foldl rouse { w₂ with deferred := [] }).slot id = w₂.slot id :=
    hkeep₃ id haside₂
  have hentries : (w₂.deferred.foldl rouse { w₂ with deferred := [] }).wheel.entries = wheel.entries := by
    rw [hwheel₃]
    exact congrArg Wheel.entries hwheel₂
  have hready : ∀ k, k ∈ w₂.ready → k ∈ (w₂.deferred.foldl rouse { w₂ with deferred := [] }).ready :=
    fun k hk => hready₃ k hk
  -- the job's timers that stay are due as before
  have htimers : ∀ z ∈ (w₂.deferred.foldl rouse { w₂ with deferred := [] }).wheel.entries,
      z.item = .job id → z.when = e := by
    intro z hz hzi
    obtain ⟨y', hy', hi', hw', -⟩ := hfrom z (hentries ▸ hz)
    rw [hw']
    exact hall y' hy' (hi'.symm.trans hzi)
  refine ⟨by rw [hnow]; exact max_le hc hclock, by simp [hdef₃], htimers, ?_⟩
  rcases hst with ⟨hin, hun, harm⟩ | ⟨ha, hq, y, hy, hyi⟩
  · -- in line: time stays, and nothing fires, every timer being due later
    have hn : t = w.now := by
      rcases ht with rfl | ⟨hr, -⟩
      · rfl
      · rw [hr] at hin
        cases hin
    have hnot : Waker.job id ∉ due := fun hx => by
      obtain ⟨y, hy, -, hyw⟩ := (hfired _).1 hx
      have := (hw.filed y hy).lt_when
      simp only [now] at hn
      omega
    rw [hnow, hn, max_self]
    exact ⟨s, o, g, d, a, hslot.trans ((hkeep₂ id hnot).trans hs₂), hjob, hf,
      .inl ⟨hready id (hready₂ id hin), hun, harm⟩⟩
  · by_cases het : e = t
    · -- its timers are due now: they fire and wake it
      have hx : Waker.job id ∈ due := (hfired _).2 ⟨y, hy, hyi, het ▸ hall y hy hyi⟩
      obtain ⟨hs₃, hin₃⟩ := wakes_ring.foldl_woken hx hs₂ hf hq
      refine ⟨{ s with queued := true }, o, g, d, a, hslot.trans hs₃, hjob, hf,
        .inl ⟨hready id hin₃, fun h => absurd ha (by rw [h]; decide), fun _ => ?_⟩⟩
      rw [hnow, het]
      exact (max_eq_right (het ▸ hc)).symm
    · -- its timers are due later: they stay, due as before
      have hnot : Waker.job id ∉ due := fun hx => by
        obtain ⟨y', hy', hyi', hyw'⟩ := (hfired _).1 hx
        exact het ((hall y' hy' hyi').symm.trans hyw')
      have hlt : t < e := Nat.lt_of_le_of_ne hclock fun h => het h.symm
      obtain ⟨z, hz, hzi, -⟩ := hto y hy (hall y hy hyi ▸ hlt)
      exact ⟨s, o, g, d, a, hslot.trans ((hkeep₂ id hnot).trans hs₂), hjob, hf,
        .inr ⟨ha, hq, z, hentries ▸ hz, hzi.trans hyi⟩⟩

theorem DueAt.rest (h : w.DueAt id e) (hw : w.wheel.OnTime) {look : Bool}
    (hlook : look = false → w.ready = []) (hr : w.rest look = some w') : w'.DueAt id e := by
  obtain ⟨w₁, t, hj, hrd, hwh, hd, -, -, ht, rfl⟩ := rest_cases hr
  have hn : w₁.now = w.now := by simp only [now, hwh]
  have h₁ : w₁.DueAt id e := h.frame (by simp only [slot, hj]) (fun hk => hrd ▸ hk)
    (fun y _ => by rw [hwh]) hn (by rw [hd]; exact h.aside)
  refine h₁.afterPoll (hwh ▸ hw) ?_
  rcases ht with rfl | ⟨hl, ht⟩
  · exact .inl hn.symm
  · exact .inr ⟨hrd.trans (hlook hl), hwh ▸ ht⟩

end World

end Outbox.Scenario
