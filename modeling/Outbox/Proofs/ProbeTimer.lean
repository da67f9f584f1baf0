import Mathlib
import Outbox.Proofs.WheelDue
import Outbox.Proofs.ScenarioRuns

/-!
The safety of the timer scenario's single-schedule timer, over every action of the agenda.

The proof keeps one invariant, `ProbeSound`, of the world between any two actions of the agenda:
every job is a timer job of the probe, in line at most once, and the callback pending is the one
job of the current generation that can still fire, which gets its turn only once it is due. Every
action `Moves` the world: it keeps the invariant, moves the clock forward, and fires nothing or the
pending callback, once it is due. `Proofs.SleepRuns` builds on it the exact timing of sleeps and
firings.
-/

set_option autoImplicit false

namespace Outbox.Scenario

open Outbox.Queue Outbox.Json Outbox.Time

namespace World

/-! ### Histories -/

/-- A step of the timer scenario as it went: its index, its call, its answer, the labels fired
during it, and the virtual time after it. -/
structure Probed where
  index : Nat
  call : ProbeCall
  reply : Value
  fired : List Nat
  now : Nat

/-- The steps of the timer scenario from the `index`-th, as they went, and the world after. -/
def probeSession (w : World) (index : Nat) : List ProbeCall → List Probed × World
  | [] => ([], w)
  | c :: rest =>
    let r := w.clearLogs.probeCall index c
    let s := probeSession r.2 (index + 1) rest
    (⟨index, c, r.1, r.2.fired, r.2.now⟩ :: s.1, s.2)

def Probed.value (p : Probed) : Value :=
  .object [("result", p.reply), ("fired", .array (p.fired.map Value.nat))]

theorem probeSteps_eq (w : World) (index : Nat) (steps : List Value) :
    w.probeSteps index steps =
      (w.probeSession index (steps.map ProbeCall.ofStep)).1.map Probed.value := by
  induction steps generalizing w index with
  | nil => rfl
  | cons step rest ih =>
    simp only [probeSteps, probeStep, List.map_cons, probeSession, ih]
    rfl

/-- The deadline of a callback scheduled at virtual time `t` after `delay`: the delay in whole
milliseconds, rounded up and at most thirty years, after `t`. -/
def deadline (t : Nat) (delay : Time.Duration) : Nat := t + min delay.ceilMillis longestSleep

/-! ### The invariant -/

def ready (w : World) : List Nat := w.localQueue ++ w.injectQueue

/-- Job `id` is the pending callback's, to fire label `l` no earlier than `e`: a timer job of
the probe's generation, neither ended nor cancelled, none of whose timers goes before `e`;
unarmed, it files its timer at `e` or later or fires at once only once `e` is reached; armed, it
is in line only once `e` is reached. -/
def Awaits (w : World) (id l e : Nat) : Prop :=
  ∃ s d a, w.slot id = some s ∧ s.job = .timer (.probe l) w.probe.generation d a ∧
    s.finished = none ∧ s.cancelled = false ∧ w.wheel.NotBefore (.job id) e ∧
    (a = false → e ≤ w.now + min d.ceilMillis longestSleep) ∧
    (a = true → s.queued = true → e ≤ w.now)

/-- The world of the timer scenario, between two actions, keeping the promise that the callback
`p` is pending: it has no outbox; its jobs are timer jobs of the probe, of its generation or
earlier, with no one waiting for them; no timer belongs to a job not yet started; the jobs in line
are in line once and marked so; nothing gave up its turn; only the pending callback's job can
still fire in the current generation; and the probe's pending callback is `p`'s. -/
structure ProbeSound (p : Option (Nat × Nat)) (w : World) : Prop where
  alone : w.instances = []
  jobs : ∀ id s, w.slot id = some s → id < w.nextJob ∧ s.joiner = none ∧
    ∃ l g d a, s.job = .timer (.probe l) g d a ∧ g ≤ w.probe.generation
  fresh : ∀ j e, w.nextJob ≤ j → w.wheel.NotBefore (.job j) e
  lined : ∀ id ∈ w.ready, ∃ s, w.slot id = some s ∧ s.queued = true
  nodup : w.ready.Nodup
  idle : w.deferred = []
  live : ∀ id s l d a, w.slot id = some s → s.job = .timer (.probe l) w.probe.generation d a →
    s.finished = none → s.cancelled = false → w.probe.pending = some id
  none_of : p = none → w.probe.pending = none
  awaits : ∀ l e, p = some (l, e) → ∃ id, w.probe.pending = some id ∧ w.Awaits id l e

/-- An action of the agenda keeps the invariant, moves the clock forward, and fires nothing or
the pending callback, once it is due. -/
structure Moves (p : Option (Nat × Nat)) (w : World) (p' : Option (Nat × Nat)) (w' : World) :
    Prop where
  sound : ProbeSound p' w'
  clock : w.now ≤ w'.now
  fires : (p' = p ∧ w'.fired = w.fired) ∨
    ∃ l e, p = some (l, e) ∧ p' = none ∧ w'.fired = w.fired ++ [l] ∧ e ≤ w'.now

namespace Moves

variable {p p₁ p₂ : Option (Nat × Nat)} {w w₁ w₂ : World}

theorem quiet (h : ProbeSound p w₁) (hc : w.now ≤ w₁.now) (hf : w₁.fired = w.fired) :
    Moves p w p w₁ :=
  ⟨h, hc, .inl ⟨rfl, hf⟩⟩

theorem trans (h₁ : Moves p w p₁ w₁) (h₂ : Moves p₁ w₁ p₂ w₂) : Moves p w p₂ w₂ := by
  refine ⟨h₂.sound, h₁.clock.trans h₂.clock, ?_⟩
  rcases h₁.fires with ⟨rfl, hf₁⟩ | ⟨l, e, rfl, rfl, hf₁, he⟩
  · rcases h₂.fires with ⟨rfl, hf₂⟩ | ⟨l, e, rfl, rfl, hf₂, he⟩
    · exact .inl ⟨rfl, hf₂.trans hf₁⟩
    · exact .inr ⟨l, e, rfl, rfl, by rw [hf₂, hf₁], he⟩
  · -- a callback fired: none is pending, so nothing fires after it
    rcases h₂.fires with ⟨rfl, hf₂⟩ | ⟨l', e', h, -⟩
    · exact .inr ⟨l, e, rfl, rfl, by rw [hf₂, hf₁], he.trans h₂.clock⟩
    · cases h

end Moves

/-! ### The invariant under the agenda's primitives -/

variable {p : Option (Nat × Nat)} {w w' : World}

theorem slot_modifySlot_of {id : Nat} {s : JobSlot} (hs : w.slot id = some s)
    (f : JobSlot → JobSlot) : (w.modifySlot id f).slot id = some (f s) := by
  rw [slot_modifySlot, if_pos rfl, hs]
  rfl

theorem slot_modifySlot_ne {id j : Nat} {f : JobSlot → JobSlot} (hji : j ≠ id) :
    (w.modifySlot id f).slot j = w.slot j := by
  rw [slot_modifySlot, if_neg hji]

namespace ProbeSound

/-- A change of the world that keeps all the invariant reads but the lines keeps the invariant,
if every job it puts in line is marked and none is in line twice. -/
theorem same_fields (h : ProbeSound p w) (hi : w'.instances = w.instances) (hj : w'.jobs = w.jobs)
    (hn : w'.nextJob = w.nextJob) (hp : w'.probe = w.probe) (hd : w'.deferred = w.deferred)
    (hw : w'.wheel = w.wheel)
    (hr : ∀ id ∈ w'.ready, id ∈ w.ready ∨ ∃ s, w.slot id = some s ∧ s.queued = true)
    (hnd : w'.ready.Nodup) : ProbeSound p w' := by
  have hs : w'.slot = w.slot := by
    funext j
    simp only [slot, hj]
  have ha : ∀ id l e, w'.Awaits id l e ↔ w.Awaits id l e := by
    intro id l e
    simp only [Awaits, now, hs, hp, hw]
  refine ⟨hi ▸ h.alone, ?_, ?_, ?_, hnd, hd ▸ h.idle, ?_, ?_, ?_⟩
  · intro id s hs'
    rw [hn, hp]
    exact h.jobs id s (hs ▸ hs')
  · intro j e hj'
    rw [hw]
    exact h.fresh j e (hn ▸ hj')
  · intro id hid
    rw [hs]
    rcases hr id hid with hid | hq
    · exact h.lined id hid
    · exact hq
  · intro id s l d a hs' hjob
    rw [hp] at hjob ⊢
    exact h.live id s l d a (hs ▸ hs') hjob
  · intro hp'
    rw [hp]
    exact h.none_of hp'
  · intro l e he
    obtain ⟨id, hid, haw⟩ := h.awaits l e he
    exact ⟨id, hp ▸ hid, (ha id l e).2 haw⟩

theorem of_flags (h : ProbeSound p w) (hw : w' = { w with
    tick := w'.tick, budget := w'.budget, inside := w'.inside, mainWoken := w'.mainWoken,
    unparked := w'.unparked, signalled := w'.signalled, mainRang := w'.mainRang,
    fired := w'.fired, runLog := w'.runLog }) : ProbeSound p w' := by
  rw [hw]
  exact h.same_fields rfl rfl rfl rfl rfl rfl (fun id hid => .inl hid) h.nodup

end ProbeSound

theorem enqueue_cases (w : World) (id : Nat) :
    w.enqueue id = { w with localQueue := w.localQueue ++ [id] } ∨
      w.enqueue id = { w with injectQueue := w.injectQueue ++ [id], unparked := true } := by
  unfold enqueue
  split
  · exact .inl rfl
  · exact .inr rfl

theorem ready_enqueue_perm (w : World) (id : Nat) :
    (w.enqueue id).ready.Perm (w.ready ++ [id]) := by
  rcases enqueue_cases w id with he | he <;> rw [he]
  · simp only [ready, List.append_assoc]
    exact List.Perm.append_left _ List.perm_append_comm
  · simp only [ready, List.append_assoc, List.Perm.refl]

theorem mem_ready_enqueue {j id : Nat} : j ∈ (w.enqueue id).ready ↔ j ∈ w.ready ∨ j = id := by
  rw [(ready_enqueue_perm w id).mem_iff, List.mem_append, List.mem_singleton]

theorem nodup_ready_enqueue {id : Nat} (hnd : w.ready.Nodup) (hid : id ∉ w.ready) :
    (w.enqueue id).ready.Nodup :=
  (ready_enqueue_perm w id).nodup_iff.2 (List.nodup_append.2 ⟨hnd, List.nodup_singleton _,
    fun a ha b hb hab => hid (by rw [List.mem_singleton.1 hb] at hab; exact hab ▸ ha)⟩)

namespace ProbeSound

theorem enqueue (h : ProbeSound p w) {id : Nat} (hq : ∃ s, w.slot id = some s ∧ s.queued = true)
    (hid : id ∉ w.ready) : ProbeSound p (w.enqueue id) := by
  have hr : ∀ j ∈ (w.enqueue id).ready, j ∈ w.ready ∨ ∃ s, w.slot j = some s ∧ s.queued = true :=
    fun j hj => (mem_ready_enqueue.1 hj).imp_right fun hj => by subst hj; exact hq
  have hnd := nodup_ready_enqueue h.nodup hid
  rcases enqueue_cases w id with he | he <;> rw [he] at hr hnd ⊢ <;>
    exact h.same_fields rfl rfl rfl rfl rfl rfl hr hnd

theorem jobs_modifySlot (h : ProbeSound p w) (id : Nat) (f : JobSlot → JobSlot)
    (hf : ∀ s, (f s).job = s.job ∧ (f s).joiner = s.joiner) :
    ∀ j s, (w.modifySlot id f).slot j = some s → j < w.nextJob ∧ s.joiner = none ∧
      ∃ l g d a, s.job = .timer (.probe l) g d a ∧ g ≤ w.probe.generation := by
  intro j s hs
  rw [slot_modifySlot] at hs
  split at hs
  · obtain ⟨s₀, hs₀, rfl⟩ := Option.map_eq_some_iff.1 hs
    rw [(hf s₀).1, (hf s₀).2]
    exact h.jobs j s₀ hs₀
  · exact h.jobs j s hs

theorem lined_modifySlot (h : ProbeSound p w) (id : Nat) (f : JobSlot → JobSlot)
    (hf : ∀ s, (f s).queued = s.queued) :
    ∀ j ∈ w.ready, ∃ s, (w.modifySlot id f).slot j = some s ∧ s.queued = true := by
  intro j hj
  obtain ⟨s, hs, hq⟩ := h.lined j hj
  by_cases hji : j = id
  · subst hji
    exact ⟨f s, slot_modifySlot_of hs f, (hf s).trans hq⟩
  · exact ⟨s, (slot_modifySlot_ne hji).trans hs, hq⟩

/-- Marking a job as in line, or as not, keeps the invariant: a job is unmarked only once out of
line, and the pending callback's job is marked only once it is due. -/
theorem setQueued (h : ProbeSound p w) (id : Nat) (b : Bool) (hb : b = false → id ∉ w.ready)
    (hdue : b = true → ∀ l e, p = some (l, e) → w.probe.pending = some id → e ≤ w.now) :
    ProbeSound p (w.modifySlot id fun s => { s with queued := b }) := by
  refine ⟨h.alone, h.jobs_modifySlot id _ fun _ => ⟨rfl, rfl⟩, h.fresh, fun j hj => ?_, h.nodup,
    h.idle, fun j s l d a hs hjob hf hc => ?_, h.none_of, fun l e he => ?_⟩
  · rw [slot_modifySlot]
    split
    · rename_i hji
      subst hji
      cases b with
      | false => exact absurd hj (hb rfl)
      | true =>
        obtain ⟨s, hs, -⟩ := h.lined j hj
        exact ⟨_, by rw [hs]; rfl, rfl⟩
    · exact h.lined j hj
  · rw [slot_modifySlot] at hs
    split at hs
    · obtain ⟨s₀, hs₀, rfl⟩ := Option.map_eq_some_iff.1 hs
      exact h.live j s₀ l d a hs₀ hjob hf hc
    · exact h.live j s l d a hs hjob hf hc
  · obtain ⟨j, hj, s, d, a, hs, hjob, hf, hc, hnb, hun, harm⟩ := h.awaits l e he
    refine ⟨j, hj, ?_⟩
    by_cases hji : j = id
    · subst hji
      refine ⟨{ s with queued := b }, d, a, slot_modifySlot_of hs _, hjob, hf,
        hc, hnb, hun, fun ha hq => hdue hq l e he hj⟩
    · exact ⟨s, d, a, (slot_modifySlot_ne hji).trans hs, hjob, hf, hc, hnb, hun, harm⟩

end ProbeSound

theorem wake_cases (w : World) (id : Nat) :
    w.wake id = w ∨ ∃ s, w.slot id = some s ∧ s.finished = none ∧ s.queued = false ∧
      w.wake id = (w.modifySlot id fun s => { s with queued := true }).enqueue id := by
  unfold wake
  split
  · rename_i s hs
    split
    · exact .inl rfl
    · rename_i hc
      simp only [Bool.or_eq_true, Option.isSome_iff_ne_none, not_or, ne_eq, not_not,
        Bool.not_eq_true] at hc
      exact .inr ⟨s, hs, hc.1, hc.2, rfl⟩
  · exact .inl rfl

theorem ProbeSound.wake (h : ProbeSound p w) (id : Nat)
    (hdue : ∀ l e, p = some (l, e) → w.probe.pending = some id → e ≤ w.now) :
    ProbeSound p (w.wake id) := by
  rcases wake_cases w id with hw | ⟨s, hs, -, hq, hw⟩
  · rw [hw]
    exact h
  rw [hw]
  have hid : id ∉ w.ready := fun hid => by
    obtain ⟨s', hs', hq'⟩ := h.lined id hid
    rw [hs] at hs'
    cases hs'
    rw [hq] at hq'
    cases hq'
  exact (h.setQueued id true (fun h => by cases h) fun _ => hdue).enqueue
    ⟨_, slot_modifySlot_of hs _, rfl⟩ hid

theorem ProbeSound.awaits_of (h : ProbeSound p w) {l e id : Nat} (he : p = some (l, e))
    (hid : w.probe.pending = some id) : w.Awaits id l e := by
  obtain ⟨j, hj, ha⟩ := h.awaits l e he
  obtain rfl := Option.some.inj (hj.symm.trans hid)
  exact ha

theorem ProbeSound.awaits_at (h : ProbeSound p w) {l' e id : Nat} {s : JobSlot} {l g : Nat}
    {d : Time.Duration} {a : Bool} (he : p = some (l', e)) (hid : w.probe.pending = some id)
    (hs : w.slot id = some s) (hjob : s.job = .timer (.probe l) g d a) :
    l = l' ∧ g = w.probe.generation ∧ s.finished = none ∧ s.cancelled = false ∧
      w.wheel.NotBefore (.job id) e ∧ (a = false → e ≤ w.now + min d.ceilMillis longestSleep) ∧
      (a = true → s.queued = true → e ≤ w.now) := by
  obtain ⟨s₁, d₁, a₁, hs₁, hjob₁, hf, hc, hnb, hun, harm⟩ := h.awaits_of he hid
  rw [hs] at hs₁
  obtain rfl := Option.some.inj hs₁
  rw [hjob] at hjob₁
  simp only [Job.timer.injEq, TimerOwner.probe.injEq] at hjob₁
  obtain ⟨rfl, rfl, rfl, rfl⟩ := hjob₁
  exact ⟨rfl, rfl, hf, hc, hnb, hun, harm⟩

theorem ProbeSound.wheel (h : ProbeSound p w) (wh : Time.Wheel Waker)
    (hnb : ∀ j e, w.wheel.NotBefore (.job j) e →
      (w.nextJob ≤ j ∨ ∃ l, p = some (l, e) ∧ w.probe.pending = some j) → wh.NotBefore (.job j) e)
    (hel : w.wheel.elapsed ≤ wh.elapsed) : ProbeSound p { w with wheel := wh } := by
  refine ⟨h.alone, h.jobs, fun j e hj => hnb j e (h.fresh j e hj) (.inl hj), h.lined, h.nodup,
    h.idle, h.live, h.none_of, fun l e he => ?_⟩
  obtain ⟨id, hid, s, d, a, hs, hjob, hf, hc, hnb', hun, harm⟩ := h.awaits l e he
  refine ⟨id, hid, s, d, a, hs, hjob, hf, hc, hnb id e hnb' (.inr ⟨l, he, hid⟩),
    fun ha => (hun ha).trans ?_, fun ha hq => (harm ha hq).trans hel⟩
  simp only [now]
  omega

/-! ### Ending, cancelling, firing and arming jobs -/

theorem finish_eq (w : World) (id : Nat) (panic : Option String)
    (hj : ∀ s, w.slot id = some s → s.joiner = none) :
    w.finish id panic = w.modifySlot id fun s => { s with finished := some panic } := by
  have hb : ((w.modifySlot id fun s => { s with finished := some panic }).slot id).bind
      (·.joiner) = none := by
    rw [slot_modifySlot, if_pos rfl]
    cases hs : w.slot id with
    | none => rfl
    | some s => exact hj s hs
  unfold finish
  simp only [hb]

theorem ProbeSound.retire (h : ProbeSound p w) (id : Nat) (f : JobSlot → JobSlot)
    (hf : ∀ s, (f s).job = s.job ∧ (f s).joiner = s.joiner ∧ (f s).queued = s.queued)
    (hlive : ∀ s, (f s).finished = none → (f s).cancelled = false →
      s.finished = none ∧ s.cancelled = false)
    (hnot : ∀ l e, p = some (l, e) → w.probe.pending ≠ some id) :
    ProbeSound p (w.modifySlot id f) := by
  refine ⟨h.alone, h.jobs_modifySlot id f fun s => ⟨(hf s).1, (hf s).2.1⟩, h.fresh,
    h.lined_modifySlot id f fun s => (hf s).2.2, h.nodup, h.idle,
    fun j s l d a hs hjob hfin hc => ?_, h.none_of, fun l e he => ?_⟩
  · rw [slot_modifySlot] at hs
    split at hs
    · obtain ⟨s₀, hs₀, rfl⟩ := Option.map_eq_some_iff.1 hs
      obtain ⟨hfin₀, hc₀⟩ := hlive s₀ hfin hc
      exact h.live j s₀ l d a hs₀ ((hf s₀).1 ▸ hjob) hfin₀ hc₀
    · exact h.live j s l d a hs hjob hfin hc
  · obtain ⟨j, hj, s, d, a, hs, hrest⟩ := h.awaits l e he
    have hji : j ≠ id := fun hji => hnot l e he (hji ▸ hj)
    exact ⟨j, hj, s, d, a, (slot_modifySlot_ne hji).trans hs, hrest⟩

theorem ProbeSound.finish (h : ProbeSound p w) (id : Nat) (panic : Option String)
    (hnot : ∀ l e, p = some (l, e) → w.probe.pending ≠ some id) :
    Moves p w p (w.finish id panic) := by
  rw [finish_eq w id panic fun s hs => (h.jobs id s hs).2.1]
  exact .quiet (h.retire id _ (fun _ => ⟨rfl, rfl, rfl⟩) (fun _ hf => by cases hf) hnot) le_rfl rfl

theorem enqueue_frame (w : World) (id : Nat) :
    (w.enqueue id).probe = w.probe ∧ (w.enqueue id).now = w.now ∧
      (w.enqueue id).fired = w.fired := by
  rcases enqueue_cases w id with he | he <;> rw [he] <;> exact ⟨rfl, rfl, rfl⟩

theorem spawn_frame (w : World) (job : Job) :
    (w.spawn job).2.now = w.now ∧ (w.spawn job).2.fired = w.fired :=
  ⟨(enqueue_frame _ _).2.1, (enqueue_frame _ _).2.2⟩

theorem wake_frame (w : World) (id : Nat) :
    (w.wake id).probe = w.probe ∧ (w.wake id).now = w.now ∧ (w.wake id).fired = w.fired := by
  rcases wake_cases w id with hw | ⟨s, -, -, -, hw⟩ <;> rw [hw]
  · exact ⟨rfl, rfl, rfl⟩
  · exact enqueue_frame _ id

theorem ProbeSound.abort (h : ProbeSound p w) (id : Nat)
    (hnot : ∀ l e, p = some (l, e) → w.probe.pending ≠ some id) :
    ProbeSound p (w.abort id) ∧ (w.abort id).now = w.now ∧ (w.abort id).fired = w.fired := by
  unfold World.abort
  split
  · split
    · exact ⟨h, rfl, rfl⟩
    · have h₁ := h.retire id (fun s => { s with cancelled := true }) (fun _ => ⟨rfl, rfl, rfl⟩)
        (fun _ _ hc => by cases hc) hnot
      obtain ⟨-, hn, hf⟩ := wake_frame (w.modifySlot id fun s => { s with cancelled := true }) id
      exact ⟨h₁.wake id fun l e he hp => absurd hp (hnot l e he), hn, hf⟩
  · exact ⟨h, rfl, rfl⟩

theorem fireTimer_probe (w : World) (l g : Nat) :
    w.fireTimer (.probe l) g = if w.probe.generation = g then
      { w with probe := { w.probe with pending := none }, fired := w.fired ++ [l] } else w := by
  by_cases hg : w.probe.generation = g <;> simp only [fireTimer, Debounce.wake, hg, if_true]
  rfl

theorem ProbeSound.fired (h : ProbeSound p w) {id : Nat} (hid : w.probe.pending = some id)
    (f : List Nat) :
    ProbeSound none (({ w with probe := { w.probe with pending := none }, fired := f } : World).modifySlot
      id fun s => { s with finished := some none }) := by
  refine ⟨h.alone, h.jobs_modifySlot id (fun s => { s with finished := some none })
    fun _ => ⟨rfl, rfl⟩, h.fresh, h.lined_modifySlot id (fun s => { s with finished := some none })
    fun _ => rfl, h.nodup, h.idle, fun j s l d a hs hjob hfin hc => ?_,
    fun _ => rfl, fun l e he => by cases he⟩
  · -- the job that fired has ended, and no other job of the generation could fire
    rw [slot_modifySlot] at hs
    split at hs
    · obtain ⟨s₀, -, rfl⟩ := Option.map_eq_some_iff.1 hs
      cases hfin
    · rename_i hji
      have := hid.symm.trans (h.live j s l d a hs hjob hfin hc)
      exact absurd (Option.some.inj this).symm hji

/-- A live timer job of the probe fires in its turn and ends: the pending callback fires if it
is the job's, and then it is due. -/
theorem ProbeSound.fire (h : ProbeSound p w) {id : Nat} {s : JobSlot} {l g : Nat}
    {d : Time.Duration} {a : Bool} (hs : w.slot id = some s)
    (hjob : s.job = .timer (.probe l) g d a) (hf : s.finished = none) (hc : s.cancelled = false)
    (hdue : g = w.probe.generation → ∀ l' e, p = some (l', e) → e ≤ w.now) :
    ∃ p', Moves p w p' ((w.fireTimer (.probe l) g).finish id none) := by
  rw [fireTimer_probe]
  split
  · rename_i hg
    have hid := h.live id s l d a hs (by rw [hjob, hg]) hf hc
    cases p with
    | none => exact absurd (h.none_of rfl) (by rw [hid]; exact Option.some_ne_none id)
    | some pe =>
      obtain ⟨l', e⟩ := pe
      obtain ⟨rfl, -⟩ := h.awaits_at rfl hid hs hjob
      rw [finish_eq ({ w with probe := { w.probe with pending := none }, fired := w.fired ++ [l] } :
        World) id none fun s hs => (h.jobs id s hs).2.1]
      exact ⟨none, h.fired hid _, le_rfl, .inr ⟨l, e, rfl, rfl, rfl, hdue hg.symm l e rfl⟩⟩
  · -- a timer of a past generation: it is not the pending callback's
    rename_i hg
    have hnot : ∀ l' e, p = some (l', e) → w.probe.pending ≠ some id := fun l' e he hid =>
      hg (h.awaits_at he hid hs hjob).2.1.symm
    exact ⟨p, h.finish id none hnot⟩

/-- A timer job of the probe out of line is marked armed. -/
theorem ProbeSound.armSlot (h : ProbeSound p w) {id : Nat} {s : JobSlot} {l g : Nat}
    {d : Time.Duration} (hs : w.slot id = some s) (hjob : s.job = .timer (.probe l) g d false)
    (hq : s.queued = false) :
    ProbeSound p (w.modifySlot id fun s => { s with job := .timer (.probe l) g d true }) := by
  obtain ⟨hlt, -, l₀, g₀, d₀, a₀, hjob₀, hg₀⟩ := h.jobs id s hs
  rw [hjob] at hjob₀
  simp only [Job.timer.injEq, TimerOwner.probe.injEq] at hjob₀
  obtain ⟨-, rfl, -, -⟩ := hjob₀
  refine ⟨h.alone, fun j s' hs' => ?_, h.fresh, h.lined_modifySlot id _ fun _ => rfl, h.nodup,
    h.idle, fun j s' l' d' a' hs' hjob' hfin hc => ?_, h.none_of, fun l' e he => ?_⟩
  · by_cases hji : j = id
    · subst hji
      rw [slot_modifySlot_of hs] at hs'
      obtain rfl := Option.some.inj hs'
      exact ⟨hlt, (h.jobs j s hs).2.1, l, g, d, true, rfl, hg₀⟩
    · rw [slot_modifySlot_ne hji] at hs'
      exact h.jobs j s' hs'
  · by_cases hji : j = id
    · -- armed in the current generation, it was unarmed in it
      subst hji
      rw [slot_modifySlot_of hs] at hs'
      obtain rfl := Option.some.inj hs'
      simp only [Job.timer.injEq] at hjob'
      have hg : g = w.probe.generation := hjob'.2.1
      exact h.live j s l d false hs (by rw [hjob, hg]) hfin hc
    · rw [slot_modifySlot_ne hji] at hs'
      exact h.live j s' l' d' a' hs' hjob' hfin hc
  · obtain ⟨j, hj, haw⟩ := h.awaits l' e he
    by_cases hji : j = id
    · -- the pending callback's job, armed out of line
      subst hji
      obtain ⟨rfl, rfl, hf₁, hc₁, hnb, -⟩ := h.awaits_at he hj hs hjob
      refine ⟨j, hj, _, d, true, slot_modifySlot_of hs _, rfl, hf₁, hc₁, hnb,
        (fun ha => by cases ha), fun _ hq' => ?_⟩
      rw [hq] at hq'
      cases hq'
    · obtain ⟨s₁, d₁, a₁, hs₁, hrest⟩ := haw
      exact ⟨j, hj, s₁, d₁, a₁, (slot_modifySlot_ne hji).trans hs₁, hrest⟩

theorem ProbeSound.arm (h : ProbeSound p w) {id : Nat} {s : JobSlot} {l g : Nat}
    {d : Time.Duration} (hs : w.slot id = some s) (hjob : s.job = .timer (.probe l) g d false)
    (hq : s.queued = false) :
    ProbeSound p (({ w with
      wheel := (w.wheel.place w.wheel.elapsed (w.sleepEnd d.ceilMillis) (.job id)) } : World).modifySlot
        id fun s => { s with job := .timer (.probe l) g d true }) := by
  have h₀ : ProbeSound p { w with
      wheel := (w.wheel.place w.wheel.elapsed (w.sleepEnd d.ceilMillis) (.job id)) } := by
    refine h.wheel _ (fun j e hnb hj => hnb.place _ _ _ fun hx => ?_) le_rfl
    obtain rfl := Waker.job.inj hx
    rcases hj with hj | ⟨l', he, hid⟩
    · exact absurd hj (not_le.2 (h.jobs _ s hs).1)
    · obtain ⟨-, -, -, -, -, hun, -⟩ := h.awaits_at he hid hs hjob
      exact hun rfl
  exact h₀.armSlot hs hjob hq

/-- The turn of a live timer job of the probe, out of line: it fires at once, or files its
timer and waits. -/
theorem ProbeSound.timerTurn (h : ProbeSound p w) {id : Nat} {s : JobSlot} {l g : Nat}
    {d : Time.Duration} {a : Bool} (hs : w.slot id = some s)
    (hjob : s.job = .timer (.probe l) g d a) (hf : s.finished = none) (hc : s.cancelled = false)
    (hq : s.queued = false)
    (hdue : a = true → g = w.probe.generation → ∀ l' e, p = some (l', e) → e ≤ w.now) :
    ∃ p', Moves p w p' (endTurn id (w.pollTimer id (.probe l) g d a)) := by
  cases a with
  | true => exact h.fire hs hjob hf hc (hdue rfl)
  | false =>
    rcases Time.Wheel.insert_cases w.wheel (w.sleepEnd d.ceilMillis) (.job id) with
      ⟨hle, hi⟩ | ⟨-, hi⟩
    · -- its delay is over already: it fires, and its callback, if pending, is due
      have he : w.pollTimer id (.probe l) g d false = (w.fireTimer (.probe l) g, .ready) := by
        simp only [pollTimer, hi, Bool.false_eq_true, ↓reduceIte]
      rw [he]
      refine h.fire hs hjob hf hc fun hg l' e he' => ?_
      have hid := h.live id s l d false hs (by rw [hjob, hg]) hf hc
      obtain ⟨-, -, -, -, -, hun, -⟩ := h.awaits_at he' hid hs hjob
      exact (hun rfl).trans hle
    · have he : w.pollTimer id (.probe l) g d false = (({ w with
          wheel := (w.wheel.place w.wheel.elapsed (w.sleepEnd d.ceilMillis) (.job id)) } :
            World).modifySlot id fun s => { s with job := .timer (.probe l) g d true }, .pending) := by
        simp only [pollTimer, hi, Bool.false_eq_true, ↓reduceIte]
      rw [he]
      exact ⟨p, .quiet (h.arm hs hjob hq) le_rfl rfl⟩

/-! ### Turns of the agenda -/

theorem takeNext_cases {id : Nat} (ht : w.takeNext = some (id, w')) :
    w.ready.Perm (id :: w'.ready) ∧
      w' = { w with localQueue := w'.localQueue, injectQueue := w'.injectQueue } := by
  unfold takeNext at ht
  cases hi : w.injectQueue <;> cases hl : w.localQueue <;>
    simp only [hi, hl, HOrElse.hOrElse, OrElse.orElse, Option.orElse, ite_self] at ht <;>
    (try split at ht) <;> simp only [Option.some.injEq, Prod.mk.injEq, reduceCtorEq] at ht <;>
    obtain ⟨rfl, rfl⟩ := ht <;> refine ⟨?_, rfl⟩ <;> simp only [ready, hi, hl] <;>
    first | exact List.Perm.refl _ | exact List.perm_middle

/-- The next job taken out of its line keeps the invariant; the job is marked, and in line no
more. -/
theorem ProbeSound.takeNext (h : ProbeSound p w) {id : Nat} (ht : w.takeNext = some (id, w')) :
    Moves p w p w' ∧ id ∉ w'.ready ∧ ∀ s, w'.slot id = some s → s.queued = true := by
  obtain ⟨hperm, hw'⟩ := takeNext_cases ht
  have hnd : (id :: w'.ready).Nodup := hperm.nodup_iff.1 h.nodup
  have hslot : w'.slot = w.slot := by
    rw [hw']
    rfl
  obtain ⟨s, hs, hq⟩ := h.lined id (hperm.mem_iff.2 List.mem_cons_self)
  have hn : w'.now = w.now := by
    rw [hw']
    rfl
  have hf : w'.fired = w.fired := by
    rw [hw']
  refine ⟨.quiet ?_ hn.ge hf, (List.nodup_cons.1 hnd).1, fun s' hs' => ?_⟩
  · rw [hw']
    exact h.same_fields rfl rfl rfl rfl rfl rfl
      (fun j hj => .inl (hperm.mem_iff.2 (List.mem_cons_of_mem _ hj))) (List.nodup_cons.1 hnd).2
  · rw [hslot, hs] at hs'
    obtain rfl := Option.some.inj hs'
    exact hq

/-- The turn of a job taken out of its line keeps the invariant, and fires at most the pending
callback, once it is due. -/
theorem ProbeSound.pollJob (h : ProbeSound p w) {id : Nat} (hid : id ∉ w.ready)
    (hq : ∀ s, w.slot id = some s → s.queued = true) : ∃ p', Moves p w p' (w.pollJob id) := by
  cases hs : w.slot id with
  | none =>
    rw [pollJob_of_none hs]
    exact ⟨p, .quiet h le_rfl rfl⟩
  | some s =>
    have h₁ := h.setQueued id false (fun _ => hid) fun hb => by cases hb
    cases hfin : s.finished with
    | some r =>
      have he : w.pollJob id = w.modifySlot id fun s => { s with queued := false } := by
        simp only [World.pollJob, hs, hfin, Option.isSome_some, ↓reduceIte]
      rw [he]
      exact ⟨p, .quiet h₁ le_rfl rfl⟩
    | none =>
      obtain ⟨-, -, l, g, d, a, hjob, -⟩ := h.jobs id s hs
      cases hc : s.cancelled with
      | true =>
        have hnot : ∀ l' e, p = some (l', e) → w.probe.pending ≠ some id := fun l' e he hp => by
          obtain ⟨-, -, -, hc', -⟩ := h.awaits_at he hp hs hjob
          rw [hc] at hc'
          cases hc'
        have h₂ := h₁.wheel ((w.modifySlot id fun s => { s with queued := false }).wheel.remove
          (· == Waker.job id)) (fun j e hj _ => hj.remove _) le_rfl
        simp only [World.pollJob, hs, hfin, hc, Option.isSome_none, Bool.false_eq_true, ↓reduceIte]
        exact ⟨p, Moves.trans (.quiet h₂ le_rfl rfl) (h₂.finish id none hnot)⟩
      | false =>
        have hdue : a = true → g = w.probe.generation → ∀ l' e, p = some (l', e) → e ≤ w.now := by
          intro ha hg l' e he
          have hid' := h.live id s l d a hs (by rw [hjob, hg]) hfin hc
          obtain ⟨-, -, -, -, -, -, harm⟩ := h.awaits_at he hid' hs hjob
          exact harm ha (hq s hs)
        rw [pollJob_live hs hfin hc, hjob]
        have h₂ : ProbeSound p { w.modifySlot id (fun s => { s with queued := false }) with
          budget := turnBudget } := h₁.of_flags rfl
        obtain ⟨p', hp'⟩ := h₂.timerTurn (slot_modifySlot_of hs fun s => { s with queued := false })
          hjob hfin hc rfl hdue
        exact ⟨p', Moves.trans (.quiet h₂ le_rfl rfl) hp'⟩

/-! ### Resting -/

theorem ProbeSound.ring (h : ProbeSound p w) (x : Waker)
    (hdue : ∀ id, x = .job id → ∀ l e, p = some (l, e) → w.probe.pending = some id → e ≤ w.now) :
    ProbeSound p (w.ring x) ∧ (w.ring x).probe = w.probe ∧ (w.ring x).now = w.now ∧
      (w.ring x).fired = w.fired := by
  cases x with
  | job id => exact ⟨h.wake id (hdue id rfl), wake_frame w id⟩
  | main => exact ⟨h.of_flags rfl, rfl, rfl, rfl⟩

theorem ProbeSound.foldl_ring (due : List Waker) (h : ProbeSound p w)
    (hdue : ∀ id, .job id ∈ due → ∀ l e, p = some (l, e) → w.probe.pending = some id → e ≤ w.now) :
    ProbeSound p (due.foldl World.ring w) ∧ (due.foldl World.ring w).now = w.now ∧
      (due.foldl World.ring w).fired = w.fired := by
  induction due generalizing w with
  | nil => exact ⟨h, rfl, rfl⟩
  | cons x rest ih =>
    obtain ⟨h₁, hp, hn, hf⟩ := h.ring x fun id hx => hdue id (by rw [← hx]; exact List.mem_cons_self)
    obtain ⟨h₂, hn₂, hf₂⟩ := ih h₁ fun id hid l e he hpend =>
      hn ▸ hdue id (List.mem_cons_of_mem _ hid) l e he (hp ▸ hpend)
    exact ⟨h₂, hn₂.trans hn, hf₂.trans hf⟩

theorem ProbeSound.poll (h : ProbeSound p w) (t : Nat) :
    ProbeSound p { w with wheel := (w.wheel.poll t).2 } ∧
      ∀ id, .job id ∈ (w.wheel.poll t).1 → ∀ l e, p = some (l, e) → w.probe.pending = some id →
        e ≤ (w.wheel.poll t).2.elapsed := by
  refine ⟨h.wheel _ (fun j e hj _ => (hj.poll t).1) ?_, fun id hid l e he hp => ?_⟩
  · rw [Time.Wheel.elapsed_poll]
    exact le_max_left _ _
  · obtain ⟨_, _, _, -, -, -, -, hnb, -⟩ := h.awaits_of he hp
    exact (hnb.poll t).2 hid

/-- A rest keeps the invariant, moves the clock forward and fires nothing. -/
theorem ProbeSound.rest (h : ProbeSound p w) {look : Bool} (hr : w.rest look = some w') :
    Moves p w p w' := by
  unfold World.rest at hr
  obtain ⟨⟨w₁, t⟩, hm, he⟩ := Option.map_eq_some_iff.1 hr
  have h₁ : ProbeSound p w₁ ∧ w₁.now = w.now ∧ w₁.fired = w.fired := by
    split at hm <;> (try split at hm) <;> (try split at hm) <;>
      simp only [Option.some.injEq, Prod.mk.injEq, reduceCtorEq] at hm <;>
      (rw [← hm.1]; exact ⟨h.of_flags rfl, rfl, rfl⟩)
  obtain ⟨h₂, hdue⟩ := h₁.1.poll t
  have hel := Time.Wheel.elapsed_poll w₁.wheel t
  rw [← he]
  dsimp only
  generalize w₁.wheel.poll t = r at h₂ hdue hel ⊢
  obtain ⟨due, wheel⟩ := r
  dsimp only at h₂ hdue hel ⊢
  obtain ⟨h₃, hn, hf⟩ := h₂.foldl_ring due hdue
  rw [h₃.idle, List.foldl_nil]
  refine .quiet (h₃.same_fields rfl rfl rfl rfl h₃.idle.symm rfl (fun id hid => .inl hid) h₃.nodup)
    ?_ (hf.trans h₁.2.2)
  calc w.now = w₁.now := h₁.2.1.symm
    _ ≤ wheel.elapsed := hel ▸ le_max_left _ _
    _ = _ := hn.symm

/-! ### The calls of the scenario -/

theorem schedule_probe (w : World) (l : Nat) (delay : Time.Duration) :
    w.schedule (.probe l) delay = if w.probe.pending.isSome then (false, w) else
      (true, (({ w with probe := ⟨w.probe.generation + 1, some w.nextJob⟩ } : World).spawn
        (.timer (.probe l) (w.probe.generation + 1) delay false)).2) := by
  cases hp : w.probe.pending <;>
    simp only [World.schedule, debounce, setDebounce, Debounce.schedule, Debounce.scheduled, hp,
      Option.isSome_none, Option.isSome_some, Bool.false_eq_true, ↓reduceIte]

theorem cancelTimer_probe (w : World) (l : Nat) :
    w.cancelTimer (.probe l) = match w.probe.pending with
      | some job => (true, ({ w with probe := ⟨w.probe.generation + 1, none⟩ } : World).abort job)
      | none => (false, { w with probe := ⟨w.probe.generation + 1, none⟩ }) := rfl

theorem slot_added {n : Nat} {s : JobSlot} (hj : w'.jobs = w.jobs ++ [(n, s)])
    (hn : w.slot n = none) (j : Nat) : w'.slot j = if j = n then some s else w.slot j := by
  simp only [slot, hj, List.lookup_append, lookup_cons_nat, List.lookup_nil]
  split
  · rename_i hjn
    subst hjn
    simp only [slot] at hn
    rw [hn]
    rfl
  · cases w.jobs.lookup j <;> rfl

/-- Scheduling when no callback is pending starts the callback's timer job, in line, in a new
generation: the callback is pending, to fire no earlier than its delay after now. -/
theorem ProbeSound.spawnProbe (h : ProbeSound none w) (l : Nat) (delay : Time.Duration) :
    ProbeSound (some (l, deadline w.now delay))
      (({ w with probe := ⟨w.probe.generation + 1, some w.nextJob⟩ } : World).spawn
        (.timer (.probe l) (w.probe.generation + 1) delay false)).2 := by
  have hfree : w.slot w.nextJob = none := by
    cases hs : w.slot w.nextJob with
    | none => rfl
    | some s => exact absurd (h.jobs _ s hs).1 (lt_irrefl _)
  have hnot : w.nextJob ∉ w.ready := fun hin => by
    obtain ⟨s, hs, -⟩ := h.lined _ hin
    rw [hfree] at hs
    cases hs
  set s₀ : JobSlot := ⟨.timer (.probe l) (w.probe.generation + 1) delay false, true, none, false,
    none⟩ with hs₀
  show ProbeSound _ (World.enqueue { w with
    probe := ⟨w.probe.generation + 1, some w.nextJob⟩, jobs := w.jobs ++ [(w.nextJob, s₀)],
    nextJob := w.nextJob + 1 } w.nextJob)
  generalize hW : ({ w with
    probe := ⟨w.probe.generation + 1, some w.nextJob⟩, jobs := w.jobs ++ [(w.nextJob, s₀)],
    nextJob := w.nextJob + 1 } : World) = W
  have hslot := slot_added (by rw [← hW] : W.jobs = w.jobs ++ [(w.nextJob, s₀)]) hfree
  have hn : W.nextJob = w.nextJob + 1 := by rw [← hW]
  have hp : W.probe = ⟨w.probe.generation + 1, some w.nextJob⟩ := by rw [← hW]
  have hwh : W.wheel = w.wheel := by rw [← hW]
  have hr : W.ready = w.ready := by rw [← hW]; rfl
  have h₁ : ProbeSound (some (l, deadline w.now delay)) W := by
    refine ⟨(by rw [← hW]; exact h.alone), fun j s hs => ?_, fun j e hj => ?_, fun j hj => ?_,
      hr ▸ h.nodup, (by rw [← hW]; exact h.idle), fun j s l' d a hs hjob hf hc => ?_,
      fun he => (by cases he), fun l' e he => ?_⟩
    · rw [hslot] at hs
      rw [hn, hp]
      split at hs
      · obtain rfl := Option.some.inj hs
        exact ⟨by omega, rfl, l, _, delay, false, rfl, le_rfl⟩
      · obtain ⟨hlt, hjo, l', g, d, a, hjob, hg⟩ := h.jobs j s hs
        exact ⟨by omega, hjo, l', g, d, a, hjob, Nat.le_succ_of_le hg⟩
    · rw [hwh]
      rw [hn] at hj
      exact h.fresh j e (by omega)
    · rw [hr] at hj
      obtain ⟨s, hs, hq⟩ := h.lined j hj
      refine ⟨s, ?_, hq⟩
      rw [hslot, if_neg]
      · exact hs
      · rintro rfl
        rw [hfree] at hs
        cases hs
    · -- only the new job is of the new generation
      rw [hp]
      rw [hslot] at hs
      split at hs
      · rename_i hjn
        rw [hjn]
      · obtain ⟨-, -, l'', g, d', a', hjob', hg⟩ := h.jobs j s hs
        rw [hjob, hp] at hjob'
        simp only [Job.timer.injEq] at hjob'
        omega
    · obtain ⟨rfl, rfl⟩ := Prod.mk.inj (Option.some.inj he)
      refine ⟨w.nextJob, (by rw [hp]), s₀, delay, false, (by rw [hslot, if_pos rfl]), (by rw [hp]),
        rfl, rfl, (by rw [hwh]; exact h.fresh _ _ le_rfl), fun _ => ?_, fun ha => by cases ha⟩
      simp only [deadline, now, hwh, le_refl]
  exact h₁.enqueue ⟨s₀, by rw [hslot, if_pos rfl], rfl⟩ (hr ▸ hnot)

theorem ProbeSound.bump (h : ProbeSound p w) :
    ProbeSound none { w with probe := ⟨w.probe.generation + 1, none⟩ } := by
  refine ⟨h.alone, fun j s hs => ?_, h.fresh, h.lined, h.nodup, h.idle,
    fun j s l d a hs hjob _ _ => ?_, fun _ => rfl, fun l e he => by cases he⟩
  · obtain ⟨hlt, hjo, l, g, d, a, hjob, hg⟩ := h.jobs j s hs
    exact ⟨hlt, hjo, l, g, d, a, hjob, Nat.le_succ_of_le hg⟩
  · -- every job is of an older generation
    obtain ⟨-, -, l', g, d', a', hjob', hg⟩ := h.jobs j s hs
    rw [hjob] at hjob'
    simp only [Job.timer.injEq] at hjob'
    have : w.probe.generation + 1 = g := hjob'.2.1
    omega

theorem probeSession_calls (w : World) (index : Nat) (calls : List ProbeCall) :
    (w.probeSession index calls).1.map Probed.call = calls := by
  induction calls generalizing w index with
  | nil => rfl
  | cons c rest ih => exact congrArg (c :: ·) (ih _ _)

theorem probeSound_init (depot : Depot) (runnerKind : RunnerKind) (transport : Transport) :
    ProbeSound none (World.init depot runnerKind transport) := by
  refine ⟨rfl, fun _ _ h => ?_, fun _ _ _ => ⟨fun _ h => ?_, fun h => ?_⟩, fun _ h => ?_,
    List.nodup_nil, rfl, fun _ _ _ _ _ h => ?_, fun _ => rfl, fun _ _ h => ?_⟩ <;> cases h

end World

end Outbox.Scenario
