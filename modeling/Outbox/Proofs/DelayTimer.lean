import Mathlib
import Outbox.Proofs.ProbeTimer

/-!
The delay timer of an outbox never fires before it is due.

An add below the threshold arms the timer of its instance unless a firing is pending; the job
that is to fire is then in line, and its first turn files a timer at the end of the run delay,
rounded up to whole milliseconds and at most thirty years. One invariant, `TimerSound`, says what
holds of the world between any two actions of the agenda while instance `q`'s firing `p` is
pending: its job is of the timer's current generation, no other job of that generation can still
fire, nothing wakes it but its own timer, and that timer is due no earlier than `p`'s deadline.
Every action keeps it, and a run of the agenda either leaves the firing pending or fires it once
virtual time has reached its deadline (`TimerSound.runUntil`).

Passes, their watchers and the timers of other owners all run on the same agenda; what they may do
is said once for each primitive of the world (a wake, an end, a cancel, a slot change, a timer
filed) and each composite action is assembled from those.
-/

set_option autoImplicit false

namespace Outbox.Scenario

open Outbox.Queue Outbox.Time

namespace World

/-! ### The invariant -/

/-- Job `j` is the pending firing of instance `q`'s timer, due no earlier than `e`: a timer job
of the timer's generation, neither ended nor cancelled, neither put aside nor waited for by any
job, none of whose timers goes before `e`; unarmed, it files its timer at `e` or later, or fires at
once only once `e` is reached; armed, it is marked in line only once `e` is reached. -/
def Delayed (w : World) (q j e : Nat) : Prop :=
  ∃ s d a, w.slot j = some s ∧ s.job = .timer (.queue q) (w.debounce (.queue q)).generation d a ∧
    s.finished = none ∧ s.cancelled = false ∧ Waker.job j ∉ w.deferred ∧
    (∀ k s', w.slot k = some s' → s'.joiner ≠ some (.job j)) ∧ w.wheel.NotBefore (.job j) e ∧
    (a = false → e ≤ w.now + min d.ceilMillis longestSleep) ∧
    (a = true → s.queued = true → e ≤ w.now)

/-- The world between two actions of the agenda, keeping the promise that the firing `p` of
instance `q`'s timer is pending (its job, and the time before which it does not fire): a job not
yet started has no slot, no timer, no place aside and no job waiting for it; the jobs in line are
in line once and marked so; every instance's pending firing is a timer job of its own; the timer
jobs of `q` are of its generation or earlier, and while a firing is pending no other job of the
generation can still fire; and `q`'s pending firing is `p`'s. -/
structure TimerSound (q : Nat) (p : Option (Nat × Nat)) (w : World) : Prop where
  fresh : ∀ k, w.nextJob ≤ k → w.slot k = none ∧ (∀ e, w.wheel.NotBefore (.job k) e) ∧
    Waker.job k ∉ w.deferred ∧ ∀ k' s, w.slot k' = some s → s.joiner ≠ some (.job k)
  lined : ∀ k ∈ w.ready, ∃ s, w.slot k = some s ∧ s.queued = true
  nodup : w.ready.Nodup
  owned : ∀ q' k, (w.debounce (.queue q')).pending = some k →
    ∃ s g d a, w.slot k = some s ∧ s.job = .timer (.queue q') g d a
  gens : ∀ k s g d a, w.slot k = some s → s.job = .timer (.queue q) g d a →
    g ≤ (w.debounce (.queue q)).generation
  live : ∀ j k s d a, (w.debounce (.queue q)).pending = some j → w.slot k = some s →
    s.job = .timer (.queue q) (w.debounce (.queue q)).generation d a → s.finished = none →
    s.cancelled = false → k = j
  none_of : p = none → (w.debounce (.queue q)).pending = none
  awaits : ∀ j e, p = some (j, e) → (w.debounce (.queue q)).pending = some j ∧ w.Delayed q j e

/-- An action of the agenda keeps the invariant and moves the clock forward; the firing pending
stays so, or fires once it is due. -/
structure TimerMoves (q : Nat) (p : Option (Nat × Nat)) (w : World) (p' : Option (Nat × Nat))
    (w' : World) : Prop where
  sound : TimerSound q p' w'
  clock : w.now ≤ w'.now
  fires : p' = p ∨ ∃ j e, p = some (j, e) ∧ p' = none ∧ e ≤ w'.now

namespace TimerMoves

variable {q : Nat} {p p₁ p₂ : Option (Nat × Nat)} {w w₁ w₂ : World}

theorem quiet (h : TimerSound q p w₁) (hc : w.now ≤ w₁.now) : TimerMoves q p w p w₁ :=
  ⟨h, hc, .inl rfl⟩

theorem trans (h₁ : TimerMoves q p w p₁ w₁) (h₂ : TimerMoves q p₁ w₁ p₂ w₂) :
    TimerMoves q p w p₂ w₂ := by
  refine ⟨h₂.sound, h₁.clock.trans h₂.clock, ?_⟩
  rcases h₁.fires with rfl | ⟨j, e, rfl, rfl, he⟩
  · exact h₂.fires
  · -- the firing went off: none is pending, so nothing fires after it
    rcases h₂.fires with rfl | ⟨j', e', h, -⟩
    · exact .inr ⟨j, e, rfl, rfl, he.trans h₂.clock⟩
    · cases h

end TimerMoves

/-! ### Frames -/

variable {q : Nat} {p : Option (Nat × Nat)} {w w' : World}

theorem debounce_congr (ht : ∀ q', (w'.inst q').map (·.timer) = (w.inst q').map (·.timer))
    (q' : Nat) : w'.debounce (.queue q') = w.debounce (.queue q') := by
  simp only [debounce, ht]

namespace TimerSound

/-- A change of the world that keeps all the invariant reads but the lines keeps the invariant,
if every job it puts in line is marked and none is in line twice. -/
theorem same_fields (h : TimerSound q p w)
    (ht : ∀ q', (w'.inst q').map (·.timer) = (w.inst q').map (·.timer)) (hj : w'.jobs = w.jobs)
    (hn : w'.nextJob = w.nextJob) (hd : w'.deferred = w.deferred) (hw : w'.wheel = w.wheel)
    (hr : ∀ k ∈ w'.ready, k ∈ w.ready ∨ ∃ s, w.slot k = some s ∧ s.queued = true)
    (hnd : w'.ready.Nodup) : TimerSound q p w' := by
  have hs : w'.slot = w.slot := by
    funext k
    simp only [slot, hj]
  have hdb := debounce_congr ht
  have hdl : ∀ j e, w'.Delayed q j e ↔ w.Delayed q j e := by
    intro j e
    simp only [Delayed, now, hs, hdb, hd, hw]
  refine ⟨fun k hk => ?_, fun k hk => ?_, hnd, fun q' k hk => ?_, fun k s g d a hk hjob => ?_,
    fun j k s d a hj hk hjob => ?_, fun hp => ?_, fun j e he => ?_⟩
  · rw [hs, hw, hd]
    exact h.fresh k (hn ▸ hk)
  · rw [hs]
    rcases hr k hk with hk | hq
    · exact h.lined k hk
    · exact hq
  · rw [hs]
    exact h.owned q' k (hdb q' ▸ hk)
  · rw [hdb]
    exact h.gens k s g d a (hs ▸ hk) hjob
  · rw [hdb] at hj hjob
    exact h.live j k s d a hj (hs ▸ hk) hjob
  · rw [hdb]
    exact h.none_of hp
  · obtain ⟨hj, hdel⟩ := h.awaits j e he
    exact ⟨hdb q ▸ hj, (hdl j e).2 hdel⟩

theorem of_flags (h : TimerSound q p w) (hw : w' = { w with
    tick := w'.tick, budget := w'.budget, inside := w'.inside, mainWoken := w'.mainWoken,
    unparked := w'.unparked, signalled := w'.signalled, mainRang := w'.mainRang,
    fired := w'.fired, runLog := w'.runLog, depot := w'.depot, transport := w'.transport,
    probe := w'.probe }) :
    TimerSound q p w' := by
  rw [hw]
  exact h.same_fields (fun _ => rfl) rfl rfl rfl rfl (fun k hk => .inl hk) h.nodup

theorem modifyInst (h : TimerSound q p w) (q' : Nat) (f : Instance → Instance)
    (hf : ∀ i, (f i).timer = i.timer) : TimerSound q p (w.modifyInst q' f) := by
  refine h.same_fields (fun q'' => ?_) rfl rfl rfl rfl (fun k hk => .inl hk) h.nodup
  rw [inst_modifyInst]
  split <;> cases w.inst q'' <;> simp [hf]

theorem enqueue (h : TimerSound q p w) {k : Nat} (hq : ∃ s, w.slot k = some s ∧ s.queued = true)
    (hk : k ∉ w.ready) : TimerSound q p (w.enqueue k) := by
  have hr : ∀ j ∈ (w.enqueue k).ready, j ∈ w.ready ∨ ∃ s, w.slot j = some s ∧ s.queued = true :=
    fun j hj => (mem_ready_enqueue.1 hj).imp_right fun hj => by subst hj; exact hq
  have hnd := nodup_ready_enqueue h.nodup hk
  rcases enqueue_cases w k with he | he <;> rw [he] at hr hnd ⊢ <;>
    exact h.same_fields (fun _ => rfl) rfl rfl rfl rfl hr hnd

end TimerSound

theorem slot_of_modifySlot {k k' : Nat} {f : JobSlot → JobSlot} {s' : JobSlot}
    (hs : (w.modifySlot k f).slot k' = some s') :
    (k' = k ∧ ∃ s, w.slot k = some s ∧ s' = f s) ∨ (k' ≠ k ∧ w.slot k' = some s') := by
  rw [slot_modifySlot] at hs
  split at hs
  · rename_i hk
    subst hk
    obtain ⟨s, hs₀, rfl⟩ := Option.map_eq_some_iff.1 hs
    exact .inl ⟨rfl, s, hs₀, rfl⟩
  · exact .inr ⟨‹_›, hs⟩

namespace TimerSound

/-- What a change of one job may do and keep the invariant. It keeps what the job runs, arms an
unarmed timer job out of line, or moves a pass on; it marks the job in line only if the job is
not the pending firing's or that is due, and unmarks it only out of line; it makes no job live
that was not, and leaves the pending firing's job live; and it makes the job wait only for a job
already started that is not the pending firing's. -/
theorem modifySlot (h : TimerSound q p w) (k : Nat) (f : JobSlot → JobSlot)
    (hjob : ∀ s, w.slot k = some s → (f s).job = s.job ∨
      (∃ o g d, s.job = .timer o g d false ∧ (f s).job = .timer o g d true ∧
        (f s).queued = false) ∨
      ∃ q₁ ph₁ q₂ ph₂, s.job = .pass q₁ ph₁ ∧ (f s).job = .pass q₂ ph₂)
    (hqueued : ∀ s, w.slot k = some s → (f s).queued = s.queued ∨
      ((f s).queued = false ∧ k ∉ w.ready) ∨
      ((f s).queued = true ∧ ∀ e, p = some (k, e) → e ≤ w.now))
    (hlive : ∀ s, w.slot k = some s → (f s).finished = none → (f s).cancelled = false →
      s.finished = none ∧ s.cancelled = false)
    (hpending : ∀ s e, w.slot k = some s → p = some (k, e) →
      (f s).finished = s.finished ∧ (f s).cancelled = s.cancelled)
    (hjoin : ∀ s y, w.slot k = some s → (f s).joiner = some (.job y) →
      s.joiner = some (.job y) ∨ (y < w.nextJob ∧ ∀ e, p ≠ some (y, e))) :
    TimerSound q p (w.modifySlot k f) := by
  have htimer : ∀ s o g d a, w.slot k = some s → (f s).job = .timer o g d a →
      ∃ a', s.job = .timer o g d a' := by
    intro s o g d a hs hf
    rcases hjob s hs with he | ⟨o', g', d', hs', hf', -⟩ | ⟨q₁, ph₁, q₂, ph₂, -, hf'⟩
    · exact ⟨a, he ▸ hf⟩
    · rw [hf] at hf'
      simp only [Job.timer.injEq] at hf'
      obtain ⟨rfl, rfl, rfl, -⟩ := hf'
      exact ⟨false, hs'⟩
    · rw [hf] at hf'
      cases hf'
  refine ⟨fun k' hk' => ?_, fun k' hk' => ?_, h.nodup, fun q' k' hk' => ?_,
    fun k' s' g d a hs' hj' => ?_, fun j k' s' d a hj hs' hj' hf hc => ?_, h.none_of,
    fun j e he => ?_⟩
  · have hk'' : w.nextJob ≤ k' := hk'
    obtain ⟨hnone, hnb, hdef, hjoins⟩ := h.fresh k' hk'
    refine ⟨?_, hnb, hdef, fun k'' s' hs' => ?_⟩
    · rw [slot_modifySlot]
      split <;> simp [hnone]
    · rcases slot_of_modifySlot hs' with ⟨rfl, s, hs, rfl⟩ | ⟨-, hs'⟩
      · intro hj
        rcases hjoin s k' hs hj with hj | ⟨hlt, -⟩
        · exact hjoins _ _ hs hj
        · omega
      · exact hjoins k'' s' hs'
  · obtain ⟨s, hs, hq⟩ := h.lined k' hk'
    by_cases hk : k' = k
    · subst hk
      refine ⟨f s, slot_modifySlot_of hs f, ?_⟩
      rcases hqueued s hs with he | ⟨-, hout⟩ | ⟨he, -⟩
      · rw [he, hq]
      · exact absurd hk' hout
      · exact he
    · exact ⟨s, (slot_modifySlot_ne hk).trans hs, hq⟩
  · obtain ⟨s, g, d, a, hs, hj⟩ := h.owned q' k' hk'
    by_cases hk : k' = k
    · subst hk
      rcases hjob s hs with he | ⟨o, g', d', hs', hf', -⟩ | ⟨q₁, ph₁, -, -, hs', -⟩
      · exact ⟨f s, g, d, a, slot_modifySlot_of hs f, he.trans hj⟩
      · rw [hj] at hs'
        simp only [Job.timer.injEq] at hs'
        obtain ⟨rfl, rfl, rfl, -⟩ := hs'
        exact ⟨f s, g, d, true, slot_modifySlot_of hs f, hf'⟩
      · rw [hj] at hs'
        cases hs'
    · exact ⟨s, g, d, a, (slot_modifySlot_ne hk).trans hs, hj⟩
  · rcases slot_of_modifySlot hs' with ⟨rfl, s, hs, rfl⟩ | ⟨-, hs'⟩
    · obtain ⟨a', ha'⟩ := htimer s _ g d a hs hj'
      exact h.gens k' s g d a' hs ha'
    · exact h.gens k' s' g d a hs' hj'
  · rcases slot_of_modifySlot hs' with ⟨rfl, s, hs, rfl⟩ | ⟨-, hs'⟩
    · obtain ⟨a', ha'⟩ := htimer s _ _ d a hs hj'
      obtain ⟨hf₀, hc₀⟩ := hlive s hs hf hc
      exact h.live j k' s d a' hj hs ha' hf₀ hc₀
    · exact h.live j k' s' d a hj hs' hj' hf hc
  · obtain ⟨hpend, s, d, a, hs, hj, hf, hc, hdef, hjoins, hnb, hun, harm⟩ := h.awaits j e he
    -- no job waits for the pending firing's afterwards either
    have hjoins' : ∀ k' s', (w.modifySlot k f).slot k' = some s' → s'.joiner ≠ some (.job j) := by
      intro k' s' hs'
      rcases slot_of_modifySlot hs' with ⟨rfl, s₀, hs₀, rfl⟩ | ⟨-, hs'⟩
      · intro hjn
        rcases hjoin s₀ j hs₀ hjn with hjn | ⟨-, hne⟩
        · exact hjoins _ _ hs₀ hjn
        · exact hne e he
      · exact hjoins k' s' hs'
    refine ⟨hpend, ?_⟩
    by_cases hjk : j = k
    · subst hjk
      obtain ⟨hf', hc'⟩ := hpending s e hs he
      rcases hjob s hs with hjob' | ⟨o, g, d', hs', hf'', hq''⟩ | ⟨q₁, ph₁, -, -, hs', -⟩
      · refine ⟨f s, d, a, slot_modifySlot_of hs f, hjob'.trans hj, hf'.trans hf, hc'.trans hc,
          hdef, hjoins', hnb, hun, fun ha hq => ?_⟩
        rcases hqueued s hs with hq' | ⟨hq', -⟩ | ⟨-, hdue⟩
        · exact harm ha (hq' ▸ hq)
        · rw [hq'] at hq
          cases hq
        · exact hdue e he
      · -- armed out of line, its timer already filed
        rw [hj] at hs'
        simp only [Job.timer.injEq] at hs'
        obtain ⟨rfl, rfl, rfl, rfl⟩ := hs'
        refine ⟨f s, d, true, slot_modifySlot_of hs f, hf'', hf'.trans hf, hc'.trans hc, hdef,
          hjoins', hnb, (fun ha => by cases ha), fun _ hq => ?_⟩
        rw [hq''] at hq
        cases hq
      · rw [hj] at hs'
        cases hs'
    · exact ⟨s, d, a, (slot_modifySlot_ne hjk).trans hs, hj, hf, hc, hdef, hjoins', hnb, hun,
        harm⟩

theorem setQueued (h : TimerSound q p w) (k : Nat) (b : Bool) (hb : b = false → k ∉ w.ready)
    (hdue : b = true → ∀ e, p = some (k, e) → e ≤ w.now) :
    TimerSound q p (w.modifySlot k fun s => { s with queued := b }) := by
  refine h.modifySlot k _ (fun _ _ => .inl rfl) (fun _ _ => ?_) (fun _ _ hf hc => ⟨hf, hc⟩)
    (fun _ _ _ _ => ⟨rfl, rfl⟩) (fun _ _ _ hy => .inl hy)
  cases b with
  | false => exact .inr (.inl ⟨rfl, hb rfl⟩)
  | true => exact .inr (.inr ⟨rfl, hdue rfl⟩)

theorem wake (h : TimerSound q p w) (k : Nat) (hdue : ∀ e, p = some (k, e) → e ≤ w.now) :
    TimerSound q p (w.wake k) := by
  rcases wake_cases w k with hw | ⟨s, hs, -, hq, hw⟩
  · rw [hw]
    exact h
  rw [hw]
  -- the job is not in line, since it is not marked
  have hk : k ∉ w.ready := fun hk => by
    obtain ⟨s', hs', hq'⟩ := h.lined k hk
    rw [hs] at hs'
    cases hs'
    rw [hq] at hq'
    cases hq'
  exact (h.setQueued k true (fun h => by cases h) fun _ => hdue).enqueue
    ⟨_, slot_modifySlot_of hs _, rfl⟩ hk

theorem setJoiner (h : TimerSound q p w) (k : Nat) (x : Waker)
    (hx : ∀ y, x = .job y → y < w.nextJob ∧ ∀ e, p ≠ some (y, e)) :
    TimerSound q p (w.modifySlot k fun s => { s with joiner := some x }) :=
  h.modifySlot k _ (fun _ _ => .inl rfl) (fun _ _ => .inl rfl) (fun _ _ hf hc => ⟨hf, hc⟩)
    (fun _ _ _ _ => ⟨rfl, rfl⟩) fun _ y _ hy => .inr (hx y (Option.some.inj hy))

theorem finish (h : TimerSound q p w) (k : Nat) (panic : Option String)
    (hnot : ∀ j e, p = some (j, e) → k ≠ j) : TimerSound q p (w.finish k panic) := by
  have h₁ : TimerSound q p (w.modifySlot k fun s => { s with finished := some panic }) :=
    h.modifySlot k _ (fun _ _ => .inl rfl) (fun _ _ => .inl rfl) (fun _ _ hf => by cases hf)
      (fun _ e _ he => absurd rfl (hnot k e he)) (fun _ _ _ hy => .inl hy)
  unfold World.finish
  dsimp only
  split
  · rename_i x hx
    refine h₁.wake x fun e he => ?_
    -- a job waits for the one ending, so it is not the pending firing's
    obtain ⟨s, hs, hjx⟩ := Option.bind_eq_some_iff.1 hx
    obtain ⟨-, -, -, -, -, -, -, -, -, hjoins, -⟩ := h₁.awaits x e he
    exact absurd hjx (hjoins k s hs)
  · exact h₁.of_flags rfl
  · exact h₁

theorem abort (h : TimerSound q p w) (k : Nat) (hnot : ∀ j e, p = some (j, e) → k ≠ j) :
    TimerSound q p (w.abort k) := by
  unfold World.abort
  split
  · split
    · exact h
    · have h₁ : TimerSound q p (w.modifySlot k fun s => { s with cancelled := true }) :=
        h.modifySlot k _ (fun _ _ => .inl rfl) (fun _ _ => .inl rfl)
          (fun _ _ _ hc => by cases hc) (fun _ e _ he => absurd rfl (hnot k e he))
          (fun _ _ _ hy => .inl hy)
      exact h₁.wake k fun e he => absurd rfl (hnot k e he)
  · exact h

theorem putAside (h : TimerSound q p w) (x : Waker)
    (hx : ∀ k, x = .job k → k < w.nextJob ∧ ∀ j e, p = some (j, e) → k ≠ j) :
    TimerSound q p { w with deferred := x :: w.deferred } := by
  refine ⟨fun k hk => ?_, h.lined, h.nodup, h.owned, h.gens, h.live, h.none_of,
    fun j e he => ?_⟩
  · have hk' : w.nextJob ≤ k := hk
    obtain ⟨hnone, hnb, hdef, hjoins⟩ := h.fresh k hk
    refine ⟨hnone, hnb, fun hmem => ?_, hjoins⟩
    rcases List.mem_cons.1 hmem with hx' | hmem
    · have := (hx k hx'.symm).1
      omega
    · exact hdef hmem
  · obtain ⟨hpend, s, d, a, hs, hj, hf, hc, hdef, hrest⟩ := h.awaits j e he
    refine ⟨hpend, s, d, a, hs, hj, hf, hc, fun hmem => ?_, hrest⟩
    rcases List.mem_cons.1 hmem with hx' | hmem
    · exact (hx j hx'.symm).2 j e he rfl
    · exact hdef hmem

theorem defer (h : TimerSound q p w) (x : Waker)
    (hx : ∀ k, x = .job k → k < w.nextJob ∧ ∀ j e, p = some (j, e) → k ≠ j) :
    TimerSound q p (w.defer x) := by
  unfold World.defer
  split
  · split
    · exact h
    · exact h.putAside x hx
  · rename_i hd
    have h₁ := h.putAside x hx
    rw [hd] at h₁
    exact h₁

theorem wheel (h : TimerSound q p w) (wh : Time.Wheel Waker)
    (hnb : ∀ k e, w.wheel.NotBefore (.job k) e → (w.nextJob ≤ k ∨ ∃ j, p = some (j, e) ∧ j = k) →
      wh.NotBefore (.job k) e)
    (hel : w.wheel.elapsed ≤ wh.elapsed) : TimerSound q p { w with wheel := wh } := by
  refine ⟨fun k hk => ?_, h.lined, h.nodup, h.owned, h.gens, h.live, h.none_of, fun j e he => ?_⟩
  · obtain ⟨hnone, hnb', hdef, hjoins⟩ := h.fresh k hk
    exact ⟨hnone, fun e => hnb k e (hnb' e) (.inl hk), hdef, hjoins⟩
  · obtain ⟨hpend, s, d, a, hs, hj, hf, hc, hdef, hjoins, hnb', hun, harm⟩ := h.awaits j e he
    refine ⟨hpend, s, d, a, hs, hj, hf, hc, hdef, hjoins, hnb j e hnb' (.inr ⟨j, he, rfl⟩),
      fun ha => (hun ha).trans ?_, fun ha hq => (harm ha hq).trans hel⟩
    simp only [now]
    omega

end TimerSound

theorem slot_of_added {n : Nat} {s₀ s : JobSlot} (hj : w'.jobs = w.jobs ++ [(n, s₀)])
    (hfree : w.slot n = none) {k : Nat} (hs : w'.slot k = some s) :
    (k = n ∧ s = s₀) ∨ w.slot k = some s := by
  rw [slot_added hj hfree] at hs
  split at hs
  · exact .inl ⟨‹_›, (Option.some.inj hs).symm⟩
  · exact .inr hs

theorem slot_added_of {n : Nat} {s₀ s : JobSlot} (hj : w'.jobs = w.jobs ++ [(n, s₀)])
    (hfree : w.slot n = none) {k : Nat} (hs : w.slot k = some s) : w'.slot k = some s := by
  rw [slot_added hj hfree, if_neg fun hk => by rw [hk, hfree] at hs; cases hs]
  exact hs

namespace TimerSound

theorem free (h : TimerSound q p w) : w.slot w.nextJob = none ∧ w.nextJob ∉ w.ready := by
  refine ⟨(h.fresh _ le_rfl).1, fun hin => ?_⟩
  obtain ⟨s, hs, -⟩ := h.lined _ hin
  rw [(h.fresh _ le_rfl).1] at hs
  cases hs

theorem joiners_added {n x : Nat} {s₀ : JobSlot} (hj : w'.jobs = w.jobs ++ [(n, s₀)])
    (hfree : w.slot n = none) (hs₀ : s₀.joiner = none)
    (hx : ∀ k s, w.slot k = some s → s.joiner ≠ some (.job x)) :
    ∀ k s, w'.slot k = some s → s.joiner ≠ some (.job x) := by
  intro k s hs
  rcases slot_of_added hj hfree hs with ⟨-, rfl⟩ | hs
  · rw [hs₀]
    exact fun h => by cases h
  · exact hx k s hs

/-- Starting a job that is not a timer job of `q` keeps the invariant. -/
theorem spawn (h : TimerSound q p w) (job : Job) (hjob : ∀ g d a, job ≠ .timer (.queue q) g d a) :
    TimerSound q p (w.spawn job).2 := by
  obtain ⟨hfree, hnot⟩ := h.free
  set s₀ : JobSlot := ⟨job, true, none, false, none⟩ with hs₀
  show TimerSound q p (World.enqueue
    { w with jobs := w.jobs ++ [(w.nextJob, s₀)], nextJob := w.nextJob + 1 } w.nextJob)
  generalize hW : ({ w with jobs := w.jobs ++ [(w.nextJob, s₀)], nextJob := w.nextJob + 1 } :
    World) = W
  have hj : W.jobs = w.jobs ++ [(w.nextJob, s₀)] := by rw [← hW]
  have hn : W.nextJob = w.nextJob + 1 := by rw [← hW]
  have hdb : ∀ q', W.debounce (.queue q') = w.debounce (.queue q') := fun _ => by rw [← hW]; rfl
  have hwh : W.wheel = w.wheel := by rw [← hW]
  have hd : W.deferred = w.deferred := by rw [← hW]
  have hr : W.ready = w.ready := by rw [← hW]; rfl
  have h₁ : TimerSound q p W := by
    refine ⟨fun k hk => ?_, fun k hk => ?_, hr ▸ h.nodup, fun q' k hk => ?_,
      fun k s g d a hs hj' => ?_, fun j k s d a hp hs hj' hf hc => ?_,
      fun hp => by rw [hdb]; exact h.none_of hp, fun j e he => ?_⟩
    · rw [hn] at hk
      obtain ⟨hnone, hnb, hdef, hjo⟩ := h.fresh k (by omega)
      refine ⟨?_, hwh ▸ hnb, hd ▸ hdef, joiners_added hj hfree rfl hjo⟩
      rw [slot_added hj hfree, if_neg (by omega)]
      exact hnone
    · obtain ⟨s, hs, hq⟩ := h.lined k (hr ▸ hk)
      exact ⟨s, slot_added_of hj hfree hs, hq⟩
    · obtain ⟨s, g, d, a, hs, hj'⟩ := h.owned q' k (hdb q' ▸ hk)
      exact ⟨s, g, d, a, slot_added_of hj hfree hs, hj'⟩
    · rw [hdb]
      rcases slot_of_added hj hfree hs with ⟨-, rfl⟩ | hs
      · exact absurd hj' (hjob g d a)
      · exact h.gens k s g d a hs hj'
    · rw [hdb] at hp hj'
      rcases slot_of_added hj hfree hs with ⟨-, rfl⟩ | hs
      · exact absurd hj' (hjob _ d a)
      · exact h.live j k s d a hp hs hj' hf hc
    · obtain ⟨hpend, s, d, a, hs, hj', hf, hc, hdef, hjo, hnb, hun, harm⟩ := h.awaits j e he
      refine ⟨by rw [hdb]; exact hpend, s, d, a, slot_added_of hj hfree hs, (hdb q).symm ▸ hj', hf,
        hc, hd ▸ hdef, joiners_added hj hfree rfl hjo, hwh ▸ hnb, ?_, ?_⟩
      · simpa only [now, hwh] using hun
      · simpa only [now, hwh] using harm
  exact h₁.enqueue ⟨s₀, by rw [slot_added hj hfree, if_pos rfl], rfl⟩ (hr ▸ hnot)

theorem trigger (h : TimerSound q p w) (q' : Nat) (cb : Callback) :
    TimerSound q p (w.trigger q' cb) := by
  cases hi : w.inst q' with
  | none =>
    rw [trigger_of_none cb hi]
    exact h
  | some i =>
    have h₁ := h.modifyInst q' (fun i' => { i' with flight := (i.flight.request cb).2 })
      fun _ => rfl
    cases hr : i.flight.running with
    | true =>
      rw [trigger_of_running cb hi hr]
      exact h₁
    | false =>
      rw [trigger_of_idle cb hi hr]
      exact (h₁.spawn _ fun _ _ _ h => by cases h).spawn _ fun _ _ _ h => by cases h

theorem keepPass (h : TimerSound q p w) (k : Nat)
    (hk : ∀ s, w.slot k = some s → ∃ q₁ ph₁, s.job = .pass q₁ ph₁)
    (hnot : ∀ j e, p = some (j, e) → k ≠ j) (q' : Nat) (ph : Phase) :
    TimerSound q p (w.modifySlot k fun s => { s with job := .pass q' ph }) := by
  refine h.modifySlot k _ (fun s hs => .inr (.inr ?_)) (fun _ _ => .inl rfl)
    (fun _ _ hf hc => ⟨hf, hc⟩) (fun _ e _ he => absurd rfl (hnot k e he))
    (fun _ _ _ hy => .inl hy)
  obtain ⟨q₁, ph₁, hj⟩ := hk s hs
  exact ⟨q₁, ph₁, q', ph, hj, rfl⟩

end TimerSound

/-! ### Turns of passes -/

/-- `w'` differs from `w` only where a pass works between its sleeps: the store, the logs, the
transport, the flags of the awaiting step, the turn's budget, and the instances but their
timers. -/
structure Calm (w w' : World) : Prop where
  jobs : w'.jobs = w.jobs
  nextJob : w'.nextJob = w.nextJob
  ready : w'.ready = w.ready
  wheel : w'.wheel = w.wheel
  deferred : w'.deferred = w.deferred
  timers : ∀ q', (w'.inst q').map (·.timer) = (w.inst q').map (·.timer)

namespace Calm

variable {w₁ w₂ w₃ : World}

theorem refl (w : World) : Calm w w := ⟨rfl, rfl, rfl, rfl, rfl, fun _ => rfl⟩

theorem trans (h₁ : Calm w₁ w₂) (h₂ : Calm w₂ w₃) : Calm w₁ w₃ :=
  ⟨h₂.jobs.trans h₁.jobs, h₂.nextJob.trans h₁.nextJob, h₂.ready.trans h₁.ready,
    h₂.wheel.trans h₁.wheel, h₂.deferred.trans h₁.deferred,
    fun q' => (h₂.timers q').trans (h₁.timers q')⟩

theorem now (h : Calm w₁ w₂) : w₂.now = w₁.now := by
  simp only [World.now, h.wheel]

theorem slot (h : Calm w₁ w₂) (k : Nat) : w₂.slot k = w₁.slot k := by
  simp only [World.slot, h.jobs]

theorem modifyInst (w : World) (q' : Nat) (f : Instance → Instance)
    (hf : ∀ i, (f i).timer = i.timer) : Calm w (w.modifyInst q' f) := by
  refine ⟨rfl, rfl, rfl, rfl, rfl, fun q'' => ?_⟩
  rw [inst_modifyInst]
  split <;> cases w.inst q'' <;> simp [hf]

theorem call (w : World) (cbs : List Callback) : Calm w (w.call cbs) := by
  induction cbs generalizing w with
  | nil => exact refl w
  | cons cb rest ih =>
    cases cb with
    | nothing => exact ih w
    | label i =>
      have h₁ : Calm w { w with fired := w.fired ++ [i] } := ⟨rfl, rfl, rfl, rfl, rfl, fun _ => rfl⟩
      exact h₁.trans (ih _)
    | signal =>
      have h₁ : Calm w { w.wakeMain with signalled := true } := ⟨rfl, rfl, rfl, rfl, rfl, fun _ => rfl⟩
      exact h₁.trans (ih _)

theorem completePass (w : World) (q' : Nat) : Calm w (w.completePass q') := by
  unfold World.completePass
  split
  · exact refl w
  · next i _ =>
    generalize i.flight.complete = t
    obtain ⟨cbs, flight⟩ := t
    dsimp only
    exact (modifyInst w q' (fun i => { i with selection := Selection.fresh, flight := flight })
      fun _ => rfl).trans (call _ cbs)

theorem settle (w : World) (q' : Nat) (e : Task.Entry) (r : Task.Record)
    (o : Except RunFailure Unit) : Calm w (w.settle q' e r o).1 := by
  unfold World.settle
  split
  · exact refl w
  · next i _ =>
    generalize Pass.settle i.shelf w.depot e r o = t
    obtain ⟨st, sh, d⟩ := t
    exact (⟨rfl, rfl, rfl, rfl, rfl, fun _ => rfl⟩ : Calm w { w with depot := d }).trans
      (modifyInst _ q' _ fun _ => rfl)

end Calm

theorem defer_cases (w : World) (x : Waker) :
    w.defer x = w ∨ w.defer x = { w with deferred := x :: w.deferred } := by
  unfold World.defer
  split
  · split
    · exact .inl rfl
    · exact .inr rfl
  · rename_i hd
    exact .inr (by rw [hd])

theorem now_insert (w : World) (t : Nat) (x : Waker) :
    ({ w with wheel := (w.wheel.insert t x).2 } : World).now = w.now := by
  rcases Time.Wheel.insert_cases w.wheel t x with ⟨-, hi⟩ | ⟨-, hi⟩ <;>
    simp only [World.now, hi, Time.Wheel.place_elapsed]

theorem pollSleep_cases (w : World) (k deadline : Nat) (registered : Bool) :
    (w.pollSleep k deadline registered).1 = .over ∧ Calm w (w.pollSleep k deadline registered).2 ∨
      (w.pollSleep k deadline registered).1 ≠ .over ∧
        ((w.pollSleep k deadline registered).2 = w ∨
          (w.pollSleep k deadline registered).2 = w.defer (.job k) ∨
          ∃ t, (w.pollSleep k deadline registered).2 =
            { w with wheel := (w.wheel.insert t (.job k)).2 }) := by
  unfold World.pollSleep
  split
  · exact .inr ⟨nofun, .inr (.inl rfl)⟩
  · split
    · split
      · exact .inr ⟨nofun, .inl rfl⟩
      · exact .inl ⟨rfl, ⟨rfl, rfl, rfl, rfl, rfl, fun _ => rfl⟩⟩
    · rcases Time.Wheel.insert_cases w.wheel deadline (.job k) with ⟨-, hi⟩ | ⟨-, hi⟩ <;> rw [hi]
      · exact .inl ⟨rfl, ⟨rfl, rfl, rfl, rfl, rfl, fun _ => rfl⟩⟩
      · exact .inr ⟨nofun, .inr (.inr ⟨deadline, by rw [hi]⟩)⟩

/-- How a turn of pass job `k` of instance `q` leaves the world, after calm steps from `w` to some
`w₁`: as `w₁`, or with the pass waiting in a phase of its own, as it is, put aside, or with the
timer of its sleep filed. -/
def PassEnd (w : World) (q k : Nat) (w' : World) : Prop :=
  ∃ w₁, Calm w w₁ ∧ (w' = w₁ ∨ ∃ ph w₂, w' = w₂.modifySlot k (fun s => { s with job := .pass q ph }) ∧
    (w₂ = w₁ ∨ w₂ = w₁.defer (.job k) ∨ ∃ t, w₂ = { w₁ with wheel := (w₁.wheel.insert t (.job k)).2 }))

theorem PassEnd.of_calm {w₁ w' : World} {q' k : Nat} (h : Calm w w₁) (he : PassEnd w₁ q' k w') :
    PassEnd w q' k w' := by
  obtain ⟨w₂, h₂, hw⟩ := he
  exact ⟨w₂, h.trans h₂, hw⟩

theorem PassMove.calm {q' k : Nat} (h : PassMove q' k w w') : Calm w w' := by
  cases h with
  | choose d sel sh =>
    exact (⟨rfl, rfl, rfl, rfl, rfl, fun _ => rfl⟩ : Calm w { w with depot := d }).trans
      (Calm.modifyInst _ q' _ fun _ => rfl)
  | ran record => exact ⟨rfl, rfl, rfl, rfl, rfl, fun _ => rfl⟩
  | client c => exact Calm.modifyInst _ q' _ fun _ => rfl
  | sent t req => exact ⟨rfl, rfl, rfl, rfl, rfl, fun _ => rfl⟩
  | settle next record o => exact Calm.settle w q' next record o
  | wake _ deadline registered hs =>
    rcases pollSleep_cases w k deadline registered with ⟨-, hc⟩ | ⟨hwait, -⟩ <;> rw [hs] at *
    · exact hc
    · exact absurd rfl hwait

theorem calm_of_moves {q' k : Nat} (h : Relation.ReflTransGen (PassMove q' k) w w') :
    Calm w w' := by
  induction h with
  | refl => exact .refl w
  | tail _ hm ih => exact ih.trans hm.calm

/-- Every turn of a pass has that shape: the pass's own steps are calm, and it ends aside or in a
sleep only as `pollSleep` leaves it. -/
theorem passLoop_shape (fuel : Nat) (w : World) (q' k : Nat) (phase : Phase) :
    PassEnd w q' k (World.passLoop fuel w q' k phase).1 := by
  obtain ⟨w₁, hm, he⟩ := passLoop_run fuel w q' k phase
  have h₁ := calm_of_moves hm
  generalize World.passLoop fuel w q' k phase = r at he ⊢
  cases he with
  | complete => exact ⟨_, h₁.trans (Calm.completePass _ q'), .inl rfl⟩
  | gone _ => exact ⟨w₁, h₁, .inl rfl⟩
  | panicked m => exact ⟨w₁, h₁, .inl rfl⟩
  | spent ph => exact ⟨w₁, h₁, .inr ⟨ph, _, rfl, .inr (.inl rfl)⟩⟩
  | asleep deadline registered slept w₂ ph hs hne =>
    rcases pollSleep_cases w₁ k deadline registered with ⟨hover, -⟩ | ⟨-, hw₂⟩ <;> rw [hs] at *
    · exact absurd hover hne
    · exact ⟨w₁, h₁, .inr ⟨ph, w₂, rfl, hw₂⟩⟩

namespace TimerSound

theorem calm (h : TimerSound q p w) (hc : Calm w w') : TimerSound q p w' :=
  h.same_fields hc.timers hc.jobs hc.nextJob hc.deferred hc.wheel (fun _ hk => .inl (hc.ready ▸ hk))
    (hc.ready ▸ h.nodup)

theorem insert (h : TimerSound q p w) (k t : Nat) (hk : k < w.nextJob)
    (hnot : ∀ j e, p = some (j, e) → k ≠ j) :
    TimerSound q p { w with wheel := (w.wheel.insert t (.job k)).2 } := by
  rcases Time.Wheel.insert_cases w.wheel t (.job k) with ⟨-, hi⟩ | ⟨-, hi⟩ <;> simp only [hi]
  · exact h
  · refine h.wheel _ (fun k' e hnb hk' => hnb.place _ _ _ fun hx => ?_) le_rfl
    obtain rfl := Waker.job.inj hx
    rcases hk' with hk' | ⟨j, he, rfl⟩
    · omega
    · exact absurd rfl (hnot _ e he)

/-- A turn of a pass, however many steps it takes, keeps the invariant and the clock. -/
theorem passLoop (fuel : Nat) (h : TimerSound q p w) (q' k : Nat) (phase : Phase)
    (hk : k < w.nextJob) (hpass : ∀ s, w.slot k = some s → ∃ q₁ ph₁, s.job = .pass q₁ ph₁)
    (hnot : ∀ j e, p = some (j, e) → k ≠ j) :
    TimerSound q p (World.passLoop fuel w q' k phase).1 ∧
      (World.passLoop fuel w q' k phase).1.now = w.now := by
  obtain ⟨w₁, hc, hw | ⟨ph, w₂, hw, hw₂⟩⟩ := passLoop_shape fuel w q' k phase <;> rw [hw]
  · exact ⟨h.calm hc, hc.now⟩
  have h₂ : TimerSound q p w₂ ∧ w₂.jobs = w.jobs ∧ w₂.now = w.now := by
    have h₁ := h.calm hc
    rcases hw₂ with rfl | rfl | ⟨t, rfl⟩
    · exact ⟨h₁, hc.jobs, hc.now⟩
    · refine ⟨h₁.defer _ fun k' hk' => ?_, ?_⟩
      · cases hk'
        exact ⟨hc.nextJob ▸ hk, hnot⟩
      · rcases defer_cases w₁ (.job k) with hd | hd <;> rw [hd]
        · exact ⟨hc.jobs, hc.now⟩
        · exact ⟨hc.jobs, hc.now⟩
    · exact ⟨h₁.insert k t (hc.nextJob ▸ hk) hnot, hc.jobs, (now_insert w₁ t _).trans hc.now⟩
  have hs : w₂.slot k = w.slot k := by simp only [slot, h₂.2.1]
  exact ⟨h₂.1.keepPass k (hs ▸ hpass) hnot q' ph, h₂.2.2⟩

end TimerSound

/-! ### Timers firing and filed -/

theorem now_finish (w : World) (k : Nat) (panic : Option String) :
    (w.finish k panic).now = w.now := by
  unfold World.finish
  dsimp only
  split
  · exact (wake_frame _ _).2.1
  · rfl
  · rfl

theorem now_trigger (w : World) (q : Nat) (cb : Callback) : (w.trigger q cb).now = w.now := by
  unfold World.trigger
  split
  · rfl
  · dsimp only
    split
    · rfl
    · exact (spawn_frame _ _).1.trans (spawn_frame _ _).1

theorem now_fireTimer (w : World) (o : TimerOwner) (g : Nat) : (w.fireTimer o g).now = w.now := by
  unfold World.fireTimer
  split
  · split
    · dsimp only
      split
      · exact now_trigger _ _ _
      · rfl
    · rfl
  · dsimp only
    split <;> rfl

namespace TimerSound

theorem modifyInst_of (h : TimerSound q p w) {q' : Nat} {i : Instance} (hi : w.inst q' = some i)
    (f : Instance → Instance) (hf : (f i).timer = i.timer) : TimerSound q p (w.modifyInst q' f) := by
  refine h.same_fields (fun q'' => ?_) rfl rfl rfl rfl (fun k hk => .inl hk) h.nodup
  rw [inst_modifyInst]
  split
  · rename_i hq
    subst hq
    rw [hi]
    simp [hf]
  · rfl

/-- Setting the timer of another instance than `q` keeps the invariant, if its pending firing,
if any, is a timer job of that instance. -/
theorem retimeOther (h : TimerSound q p w) {q' : Nat} (hq : q' ≠ q) (t : Debounce)
    (ht : ∀ k, t.pending = some k → ∃ s g d a, w.slot k = some s ∧ s.job = .timer (.queue q') g d a) :
    TimerSound q p (w.modifyInst q' fun i => { i with timer := t }) := by
  have hdb : ∀ q'', q'' ≠ q' →
      (w.modifyInst q' fun i => { i with timer := t }).debounce (.queue q'') =
        w.debounce (.queue q'') := fun q'' hne => by
    simp only [debounce, inst_modifyInst, if_neg (Ne.symm hne)]
  have hq' := hdb q (Ne.symm hq)
  refine ⟨h.fresh, h.lined, h.nodup, fun q'' k hk => ?_, fun k s g d a hs hj => ?_,
    fun j k s d a hj hs hj' hf hc => ?_, fun hp => ?_, fun j e he => ?_⟩
  · by_cases hne : q'' = q'
    · subst hne
      cases hi : w.inst q'' with
      | none => simp [debounce, inst_modifyInst, hi, Debounce.idle] at hk
      | some i => exact ht k (by simpa [debounce, inst_modifyInst, hi] using hk)
    · exact h.owned q'' k (hdb q'' hne ▸ hk)
  · rw [hq']
    exact h.gens k s g d a hs hj
  · rw [hq'] at hj hj'
    exact h.live j k s d a hj hs hj' hf hc
  · rw [hq']
    exact h.none_of hp
  · obtain ⟨hpend, s, d, a, hs, hj, hrest⟩ := h.awaits j e he
    exact ⟨hq' ▸ hpend, s, d, a, hs, hq' ▸ hj, hrest⟩

/-- Clearing `q`'s timer, in its generation or a later one, leaves none pending. -/
theorem quench (h : TimerSound q p w) {i : Instance} (hi : w.inst q = some i) (t : Debounce)
    (hg : i.timer.generation ≤ t.generation) (ht : t.pending = none) :
    TimerSound q none (w.modifyInst q fun i => { i with timer := t }) := by
  have hdb : (w.modifyInst q fun i => { i with timer := t }).debounce (.queue q) = t := by
    simp [debounce, inst_modifyInst, hi]
  have hgen : (w.debounce (.queue q)).generation = i.timer.generation := by
    simp [debounce, hi]
  have hother : ∀ q'', q'' ≠ q →
      (w.modifyInst q fun i => { i with timer := t }).debounce (.queue q'') =
        w.debounce (.queue q'') := fun q'' hne => by
    simp only [debounce, inst_modifyInst, if_neg (Ne.symm hne)]
  refine ⟨h.fresh, h.lined, h.nodup, fun q'' k hk => ?_, fun k s g d a hs hj => ?_,
    fun j _ _ _ _ hj => ?_, fun _ => by rw [hdb, ht], fun _ _ he => by cases he⟩
  · by_cases hne : q'' = q
    · subst hne
      rw [hdb, ht] at hk
      cases hk
    · exact h.owned q'' k (hother q'' hne ▸ hk)
  · rw [hdb]
    exact (h.gens k s g d a hs hj).trans (hgen ▸ hg)
  · rw [hdb, ht] at hj
    cases hj

/-- A timer job fires in its generation and ends. The firing of `q`'s timer clears it, and
it is the pending firing's job, due by now; any other timer fires only its own owner's. -/
theorem fire (h : TimerSound q p w) {k : Nat} {s : JobSlot} {o : TimerOwner} {g : Nat}
    {d : Time.Duration} {a : Bool} (hs : w.slot k = some s) (hjob : s.job = .timer o g d a)
    (hdue : ∀ j e, p = some (j, e) → o = .queue q → g = (w.debounce (.queue q)).generation →
      e ≤ w.now) :
    ∃ p', TimerMoves q p w p' ((w.fireTimer o g).finish k none) := by
  -- a timer job is the pending firing's only if it is `q`'s, of the current generation
  have hnot : ∀ j e, p = some (j, e) → (o ≠ .queue q ∨ g ≠ (w.debounce (.queue q)).generation) →
      k ≠ j := by
    rintro j e he hne rfl
    obtain ⟨-, s', d', a', hs', hj', -⟩ := h.awaits k e he
    rw [hs] at hs'
    obtain rfl := Option.some.inj hs'
    rw [hjob] at hj'
    simp only [Job.timer.injEq] at hj'
    rcases hne with hne | hne
    · exact hne hj'.1
    · exact hne hj'.2.1
  have hclock : ((w.fireTimer o g).finish k none).now = w.now :=
    (now_finish _ _ _).trans (now_fireTimer _ _ _)
  cases o with
  | probe l =>
    have hnot' : ∀ j e, p = some (j, e) → k ≠ j :=
      fun j e he => hnot j e he (.inl fun h => by cases h)
    rw [fireTimer_probe] at hclock ⊢
    refine ⟨p, .quiet ((?_ : TimerSound q p _).finish k none hnot') hclock.ge⟩
    split
    · exact h.of_flags rfl
    · exact h
  | queue q' =>
    cases hi : w.inst q' with
    | none =>
      -- an instance that is not there has no timer to fire
      have he : w.fireTimer (.queue q') g = w := by simp only [fireTimer, hi]
      refine ⟨p, .quiet ((he ▸ h).finish k none fun j e hp => hnot j e hp ?_) hclock.ge⟩
      by_cases hq : q' = q
      · subst hq
        obtain ⟨hpend, -⟩ := h.awaits j e hp
        simp [debounce, hi, Debounce.idle] at hpend
      · exact .inl fun h => hq (TimerOwner.queue.inj h)
    | some i =>
      by_cases hg : i.timer.generation = g
      · -- the timer fires: its firing is cleared and a pass is asked for
        have he : w.fireTimer (.queue q') g =
            (w.modifyInst q' fun i' => { i' with timer := { i.timer with pending := none } }).trigger
              q' .nothing := by
          simp only [fireTimer, hi, Debounce.wake, hg, if_true]
        by_cases hq : q' = q
        · subst hq
          have h₁ := (h.quench hi { i.timer with pending := none } le_rfl rfl).trigger q' .nothing
          rw [he] at hclock ⊢
          refine ⟨none, h₁.finish k none (fun _ _ he => by cases he), hclock.ge, ?_⟩
          cases p with
          | none => exact .inl rfl
          | some je =>
            obtain ⟨j, e⟩ := je
            refine .inr ⟨j, e, rfl, rfl, ?_⟩
            rw [hclock]
            have hgen : (w.debounce (.queue q')).generation = g := by simp [debounce, hi, hg]
            exact hdue j e rfl rfl hgen.symm
        · have h₁ := (h.retimeOther hq { i.timer with pending := none }
            fun _ hk => by cases hk).trigger q' .nothing
          rw [he] at hclock ⊢
          exact ⟨p, .quiet (h₁.finish k none fun j e hp =>
            hnot j e hp (.inl fun h => hq (TimerOwner.queue.inj h))) hclock.ge⟩
      · -- a timer of a past generation does nothing
        have he : w.fireTimer (.queue q') g = w.modifyInst q' fun i' => { i' with timer := i.timer } := by
          simp only [fireTimer, hi, Debounce.wake, hg, Bool.false_eq_true, ↓reduceIte]
        have h₁ := h.modifyInst_of hi (fun i' => { i' with timer := i.timer }) rfl
        rw [he] at hclock ⊢
        refine ⟨p, .quiet (h₁.finish k none fun j e hp => hnot j e hp ?_) hclock.ge⟩
        by_cases hq : q' = q
        · subst hq
          exact .inr fun hg' => hg (by simp [debounce, hi] at hg'; exact hg'.symm)
        · exact .inl fun h => hq (TimerOwner.queue.inj h)

/-- An unarmed timer job out of line files its timer at the end of its delay, and is marked
armed. -/
theorem arm (h : TimerSound q p w) {k : Nat} {s : JobSlot} {o : TimerOwner} {g : Nat}
    {d : Time.Duration} (hs : w.slot k = some s) (hjob : s.job = .timer o g d false)
    (hq : s.queued = false) :
    TimerSound q p (({ w with
      wheel := (w.wheel.place w.wheel.elapsed (w.sleepEnd d.ceilMillis) (.job k)) } : World).modifySlot
        k fun s => { s with job := .timer o g d true }) := by
  have hk : k < w.nextJob := by
    by_contra hk
    rw [(h.fresh k (by omega)).1] at hs
    cases hs
  -- the timer filed is the job's own, due no earlier than its firing may go
  have h₀ : TimerSound q p { w with
      wheel := (w.wheel.place w.wheel.elapsed (w.sleepEnd d.ceilMillis) (.job k)) } := by
    refine h.wheel _ (fun k' e hnb hk' => hnb.place _ _ _ fun hx => ?_) le_rfl
    have hkk : k = k' := Waker.job.inj hx
    subst hkk
    rcases hk' with hk' | ⟨j, he, rfl⟩
    · omega
    · obtain ⟨-, s', d', a', hs', hj', -, -, -, -, -, hun, -⟩ := h.awaits _ e he
      rw [hs] at hs'
      obtain rfl := Option.some.inj hs'
      rw [hjob] at hj'
      simp only [Job.timer.injEq] at hj'
      obtain ⟨-, -, rfl, rfl⟩ := hj'
      exact hun rfl
  have hs₀ : ({ w with
      wheel := (w.wheel.place w.wheel.elapsed (w.sleepEnd d.ceilMillis) (.job k)) } : World).slot k =
        some s := hs
  refine h₀.modifySlot k _ (fun s' hs' => ?_) (fun _ _ => .inl rfl)
    (fun _ _ hf hc => ⟨hf, hc⟩) (fun _ _ _ _ => ⟨rfl, rfl⟩) (fun _ _ _ hy => .inl hy)
  rw [hs₀] at hs'
  cases hs'
  exact .inr (.inl ⟨o, g, d, hjob, rfl, hq⟩)

/-- The turn of a live timer job out of line: it fires at once, or files its timer and waits. -/
theorem timerTurn (h : TimerSound q p w) {k : Nat} {s : JobSlot} {o : TimerOwner} {g : Nat}
    {d : Time.Duration} {a : Bool} (hs : w.slot k = some s) (hjob : s.job = .timer o g d a)
    (hf : s.finished = none) (hc : s.cancelled = false) (hq : s.queued = false)
    (hdue : a = true → ∀ j e, p = some (j, e) → o = .queue q →
      g = (w.debounce (.queue q)).generation → e ≤ w.now) :
    ∃ p', TimerMoves q p w p' (endTurn k (w.pollTimer k o g d a)) := by
  cases a with
  | true => exact h.fire hs hjob (hdue rfl)
  | false =>
    rcases Time.Wheel.insert_cases w.wheel (w.sleepEnd d.ceilMillis) (.job k) with
      ⟨hle, hi⟩ | ⟨-, hi⟩
    · -- its delay is over already: it fires, and the pending firing, if it is this, is due
      have he : w.pollTimer k o g d false = (w.fireTimer o g, .ready) := by
        simp only [pollTimer, hi, Bool.false_eq_true, ↓reduceIte]
      rw [he]
      refine h.fire hs hjob fun j e he' ho hg => ?_
      subst ho hg
      obtain ⟨hpend, -⟩ := h.awaits j e he'
      obtain rfl := h.live j k s d false hpend hs hjob hf hc
      obtain ⟨-, s', d', a', hs', hj', -, -, -, -, -, hun, -⟩ := h.awaits k e he'
      rw [hs] at hs'
      obtain rfl := Option.some.inj hs'
      rw [hjob] at hj'
      simp only [Job.timer.injEq] at hj'
      obtain ⟨-, -, rfl, rfl⟩ := hj'
      exact (hun rfl).trans hle
    · have he : w.pollTimer k o g d false = (({ w with
          wheel := (w.wheel.place w.wheel.elapsed (w.sleepEnd d.ceilMillis) (.job k)) } :
            World).modifySlot k fun s => { s with job := .timer o g d true }, .pending) := by
        simp only [pollTimer, hi, Bool.false_eq_true, ↓reduceIte]
      rw [he]
      exact ⟨p, .quiet (h.arm hs hjob hq) le_rfl⟩

end TimerSound

/-! ### Turns of the agenda -/

namespace TimerSound

theorem endTurn {r : World × Poll} (h : TimerSound q p r.1) (k : Nat)
    (hnot : ∀ j e, p = some (j, e) → k ≠ j) :
    TimerSound q p (World.endTurn k r) ∧ (World.endTurn k r).now = r.1.now := by
  obtain ⟨w₁, poll⟩ := r
  cases poll with
  | pending => exact ⟨h, rfl⟩
  | ready => exact ⟨h.finish k none hnot, now_finish _ _ _⟩
  | panicked m => exact ⟨h.finish k (some m) hnot, now_finish _ _ _⟩

theorem pollWatch (h : TimerSound q p w) (k q' target : Nat) (hk : k < w.nextJob)
    (hnot : ∀ j e, p = some (j, e) → k ≠ j) :
    TimerSound q p (World.endTurn k (w.pollWatch k q' target)) ∧
      (World.endTurn k (w.pollWatch k q' target)).now = w.now := by
  have hr : TimerSound q p (w.pollWatch k q' target).1 ∧ (w.pollWatch k q' target).1.now = w.now := by
    unfold World.pollWatch
    split
    · split
      · exact ⟨h.calm (Calm.completePass w q'), (Calm.completePass w q').now⟩
      · exact ⟨h, rfl⟩
      · refine ⟨h.setJoiner target (.job k) fun y hy => ?_, rfl⟩
        cases hy
        exact ⟨hk, fun e he => hnot k e he rfl⟩
    · exact ⟨h, rfl⟩
  obtain ⟨h₁, hn₁⟩ := TimerSound.endTurn hr.1 k hnot
  exact ⟨h₁, hn₁.trans hr.2⟩

/-- The turn of a job taken out of its line, marked, keeps the invariant, and fires at most the
pending firing, once it is due. -/
theorem pollJob (h : TimerSound q p w) {k : Nat} (hk : k ∉ w.ready)
    (hq : ∀ s, w.slot k = some s → s.queued = true) : ∃ p', TimerMoves q p w p' (w.pollJob k) := by
  cases hs : w.slot k with
  | none =>
    rw [pollJob_of_none hs]
    exact ⟨p, .quiet h le_rfl⟩
  | some s =>
    have hlt : k < w.nextJob := by
      by_contra hge
      rw [(h.fresh k (by omega)).1] at hs
      cases hs
    have h₁ := h.setQueued k false (fun _ => hk) fun hb => by cases hb
    cases hfin : s.finished with
    | some r =>
      have he : w.pollJob k = w.modifySlot k fun s => { s with queued := false } := by
        simp only [World.pollJob, hs, hfin, Option.isSome_some, ↓reduceIte]
      rw [he]
      exact ⟨p, .quiet h₁ le_rfl⟩
    | none =>
      -- a live job is the pending firing's only if it is `q`'s timer job
      have hpend : ∀ j e, p = some (j, e) → k = j →
          ∃ d a, s.job = .timer (.queue q) (w.debounce (.queue q)).generation d a ∧
            s.cancelled = false := by
        rintro j e he rfl
        obtain ⟨-, s', d, a, hs', hj, -, hc, -⟩ := h.awaits k e he
        rw [hs] at hs'
        obtain rfl := Option.some.inj hs'
        exact ⟨d, a, hj, hc⟩
      cases hc : s.cancelled with
      | true =>
        -- a cancelled job ends with its timers
        have hnot : ∀ j e, p = some (j, e) → k ≠ j := fun j e he hkj => by
          obtain ⟨-, -, -, hc'⟩ := hpend j e he hkj
          rw [hc] at hc'
          cases hc'
        have h₂ := h₁.wheel ((w.modifySlot k fun s => { s with queued := false }).wheel.remove
          (· == Waker.job k)) (fun _ _ hj _ => hj.remove _) le_rfl
        simp only [World.pollJob, hs, hfin, hc, Option.isSome_none, Bool.false_eq_true, ↓reduceIte]
        exact ⟨p, .quiet (h₂.finish k none hnot) (by rw [now_finish]; rfl)⟩
      | false =>
        rw [pollJob_live hs hfin hc]
        have h₂ : TimerSound q p { w.modifySlot k (fun s => { s with queued := false }) with
          budget := turnBudget } := h₁.of_flags rfl
        have hs₂ : ({ w.modifySlot k (fun s => { s with queued := false }) with
            budget := turnBudget } : World).slot k = some { s with queued := false } :=
          slot_modifySlot_of hs (fun s => { s with queued := false })
        cases hjob : s.job with
        | timer o g d a =>
          -- an armed job is in line only once its firing is due
          have hdue : a = true → ∀ j e, p = some (j, e) → o = .queue q →
              g = (w.debounce (.queue q)).generation → e ≤ w.now := by
            rintro rfl j e he rfl rfl
            obtain ⟨hp, -⟩ := h.awaits j e he
            obtain rfl := h.live j k s d true hp hs hjob hfin hc
            obtain ⟨-, s', d', a', hs', hj', -, -, -, -, -, -, harm⟩ := h.awaits k e he
            rw [hs] at hs'
            obtain rfl := Option.some.inj hs'
            rw [hjob] at hj'
            simp only [Job.timer.injEq] at hj'
            obtain ⟨-, -, -, rfl⟩ := hj'
            exact harm rfl (hq s hs)
          obtain ⟨p', hp'⟩ := h₂.timerTurn hs₂ hjob hfin hc rfl hdue
          exact ⟨p', TimerMoves.trans (.quiet h₂ le_rfl) hp'⟩
        | pass q' ph =>
          have hnot : ∀ j e, p = some (j, e) → k ≠ j := fun j e he hkj => by
            obtain ⟨d, a, hj, -⟩ := hpend j e he hkj
            rw [hjob] at hj
            cases hj
          obtain ⟨h₃, hn₃⟩ := h₂.passLoop (passFuel _) q' k ph hlt
            (fun s' hs' => ⟨q', ph, by rw [hs₂] at hs'; cases hs'; exact hjob⟩) hnot
          obtain ⟨h₄, hn₄⟩ := h₃.endTurn k hnot
          exact ⟨p, .quiet h₄ (hn₄.trans hn₃).ge⟩
        | watch q' target =>
          have hnot : ∀ j e, p = some (j, e) → k ≠ j := fun j e he hkj => by
            obtain ⟨d, a, hj, -⟩ := hpend j e he hkj
            rw [hjob] at hj
            cases hj
          obtain ⟨h₃, hn₃⟩ := h₂.pollWatch k q' target hlt hnot
          exact ⟨p, .quiet h₃ hn₃.ge⟩

theorem takeNext (h : TimerSound q p w) {k : Nat} (ht : w.takeNext = some (k, w')) :
    TimerSound q p w' ∧ w'.now = w.now ∧ k ∉ w'.ready ∧
      ∀ s, w'.slot k = some s → s.queued = true := by
  obtain ⟨hperm, hw'⟩ := takeNext_cases ht
  have hnd : (k :: w'.ready).Nodup := hperm.nodup_iff.1 h.nodup
  have hslot : w'.slot = w.slot := by
    rw [hw']
    rfl
  obtain ⟨s, hs, hq⟩ := h.lined k (hperm.mem_iff.2 List.mem_cons_self)
  refine ⟨?_, by rw [hw']; rfl, (List.nodup_cons.1 hnd).1, fun s' hs' => ?_⟩
  · rw [hw']
    exact h.same_fields (fun _ => rfl) rfl rfl rfl rfl
      (fun j hj => .inl (hperm.mem_iff.2 (List.mem_cons_of_mem _ hj))) (List.nodup_cons.1 hnd).2
  · rw [hslot, hs] at hs'
    obtain rfl := Option.some.inj hs'
    exact hq

/-! ### Resting and running the agenda -/

theorem ring (h : TimerSound q p w) (x : Waker)
    (hdue : ∀ k, x = .job k → ∀ e, p = some (k, e) → e ≤ w.now) :
    TimerSound q p (w.ring x) ∧ (w.ring x).now = w.now := by
  cases x with
  | job k => exact ⟨h.wake k (hdue k rfl), (wake_frame w k).2.1⟩
  | main => exact ⟨h.of_flags rfl, rfl⟩

theorem foldl_ring (due : List Waker) (h : TimerSound q p w)
    (hdue : ∀ k, .job k ∈ due → ∀ e, p = some (k, e) → e ≤ w.now) :
    TimerSound q p (due.foldl World.ring w) ∧ (due.foldl World.ring w).now = w.now := by
  induction due generalizing w with
  | nil => exact ⟨h, rfl⟩
  | cons x rest ih =>
    obtain ⟨h₁, hn⟩ := h.ring x fun k hx => hdue k (by rw [← hx]; exact List.mem_cons_self)
    obtain ⟨h₂, hn₂⟩ := ih h₁ fun k hk e he => hn ▸ hdue k (List.mem_cons_of_mem _ hk) e he
    exact ⟨h₂, hn₂.trans hn⟩

theorem foldl_rouse (l : List Waker) (h : TimerSound q p w)
    (hl : ∀ k, .job k ∈ l → ∀ j e, p = some (j, e) → k ≠ j) :
    TimerSound q p (l.foldl World.rouse w) ∧ (l.foldl World.rouse w).now = w.now := by
  induction l generalizing w with
  | nil => exact ⟨h, rfl⟩
  | cons x rest ih =>
    have h₁ : TimerSound q p (w.rouse x) ∧ (w.rouse x).now = w.now := by
      cases x with
      | job k =>
        exact ⟨h.wake k fun e he => absurd rfl (hl k List.mem_cons_self k e he),
          (wake_frame w k).2.1⟩
      | main => exact ⟨h.of_flags rfl, rfl⟩
    obtain ⟨h₂, hn₂⟩ := ih h₁.1 fun k hk => hl k (List.mem_cons_of_mem _ hk)
    exact ⟨h₂, hn₂.trans h₁.2⟩

theorem poll (h : TimerSound q p w) (t : Nat) :
    TimerSound q p { w with wheel := (w.wheel.poll t).2 } ∧
      ∀ k, .job k ∈ (w.wheel.poll t).1 → ∀ e, p = some (k, e) →
        e ≤ (w.wheel.poll t).2.elapsed := by
  refine ⟨h.wheel _ (fun k e hk _ => (hk.poll t).1) ?_, fun k hk e he => ?_⟩
  · rw [Time.Wheel.elapsed_poll]
    exact le_max_left _ _
  · obtain ⟨-, _, _, _, -, -, -, -, -, -, hnb, -⟩ := h.awaits k e he
    exact (hnb.poll t).2 hk

/-- A rest keeps the invariant and the firing pending, and moves the clock forward. -/
theorem rest (h : TimerSound q p w) {look : Bool} (hr : w.rest look = some w') :
    TimerMoves q p w p w' := by
  unfold World.rest at hr
  obtain ⟨⟨w₁, t⟩, hm, he⟩ := Option.map_eq_some_iff.1 hr
  -- the agenda takes its news, or waits
  have h₁ : TimerSound q p w₁ ∧ w₁.now = w.now := by
    split at hm <;> (try split at hm) <;> (try split at hm) <;>
      simp only [Option.some.injEq, Prod.mk.injEq, reduceCtorEq] at hm <;>
      (rw [← hm.1]; exact ⟨h.of_flags rfl, rfl⟩)
  obtain ⟨h₂, hdue⟩ := h₁.1.poll t
  have hel := Time.Wheel.elapsed_poll w₁.wheel t
  rw [← he]
  dsimp only
  generalize w₁.wheel.poll t = r at h₂ hdue hel ⊢
  obtain ⟨due, wheel⟩ := r
  dsimp only at h₂ hdue hel ⊢
  obtain ⟨h₃, hn₃⟩ := h₂.foldl_ring due hdue
  -- what was put aside is woken, and none of it is the pending firing's job
  generalize hw₃ : due.foldl World.ring { w₁ with wheel := wheel } = w₃ at h₃ hn₃
  have h₄ : TimerSound q p { w₃ with deferred := [] } := by
    refine ⟨fun k hk => ?_, h₃.lined, h₃.nodup, h₃.owned, h₃.gens, h₃.live, h₃.none_of,
      fun j e he => ?_⟩
    · obtain ⟨hnone, hnb, -, hjoins⟩ := h₃.fresh k hk
      exact ⟨hnone, hnb, List.not_mem_nil, hjoins⟩
    · obtain ⟨hpend, s, d, a, hs, hj, hf, hc, -, hrest⟩ := h₃.awaits j e he
      exact ⟨hpend, s, d, a, hs, hj, hf, hc, List.not_mem_nil, hrest⟩
  obtain ⟨h₅, hn₅⟩ := h₄.foldl_rouse w₃.deferred fun k hk j e he hkj => by
    obtain ⟨-, -, -, -, -, -, -, -, hdef, -⟩ := h₃.awaits j e he
    exact hdef (hkj ▸ hk)
  refine .quiet h₅ ?_
  calc w.now = w₁.now := h₁.2.symm
    _ ≤ wheel.elapsed := hel ▸ le_max_left _ _
    _ = w₃.now := hn₃.symm
    _ = _ := hn₅.symm

/-- A look at what a run awaits keeps the invariant and the clock: it asks for a pass, files the
timer of a sleep, or makes the awaiting step wait for a job. -/
theorem pollAwaited (h : TimerSound q p w) (m : Awaited) :
    TimerSound q p (w.pollAwaited m).1 ∧ (w.pollAwaited m).1.now = w.now := by
  cases m with
  | pass q' asked =>
    cases asked with
    | false => exact ⟨h.trigger q' .signal, now_trigger _ _ _⟩
    | true => exact ⟨h, rfl⟩
  | sleep ms armed =>
    cases armed with
    | false =>
      rcases Time.Wheel.insert_cases w.wheel (w.sleepEnd ms) .main with ⟨-, hi⟩ | ⟨-, hi⟩ <;>
        simp only [World.pollAwaited, hi]
      · exact ⟨h, trivial⟩
      · -- the sleep's own timer wakes the awaiting step, not a job
        exact ⟨h.wheel _ (fun _ _ hnb _ => hnb.place _ _ _ fun hx => by cases hx) le_rfl, rfl⟩
    | true => exact ⟨h, rfl⟩
  | job k =>
    simp only [World.pollAwaited]
    split
    · split
      · exact ⟨h, rfl⟩
      · exact ⟨h.setJoiner k .main (fun _ hy => by cases hy), rfl⟩
    · exact ⟨h, rfl⟩

/-- Every run of the agenda keeps the invariant, moves the clock forward, and fires at most the
pending firing, once it is due. The induction follows the fuel, each iteration a look, a turn or
a rest. -/
theorem runLoop (fuel : Nat) (h : TimerSound q p w) (m : Awaited) (turns : Option Nat) :
    ∃ p', TimerMoves q p w p' (World.runLoop fuel w m turns) := by
  induction fuel generalizing p w m turns with
  | zero => exact ⟨p, .quiet h le_rfl⟩
  | succ fuel ih =>
    cases turns with
    | none =>
      simp only [World.runLoop]
      split
      · -- the awaited result is due a look
        have h₀ : TimerSound q p { w with mainWoken := false } := h.of_flags rfl
        obtain ⟨h₁, hn₁⟩ := h₀.pollAwaited m
        generalize World.pollAwaited { w with mainWoken := false } m = r at h₁ hn₁ ⊢
        obtain ⟨w₁, m₁, ready⟩ := r
        dsimp only at h₁ hn₁ ⊢
        have hm₁ : TimerMoves q p w p w₁ := .quiet h₁ hn₁.symm.le
        split
        · exact ⟨p, hm₁⟩
        · obtain ⟨p', hp'⟩ := ih h₁ m₁ (some 0)
          exact ⟨p', hm₁.trans hp'⟩
      · exact ih h m (some 0)
    | some turns =>
      simp only [World.runLoop]
      split
      · split
        · rename_i w₁ hw₁
          obtain ⟨p', hp'⟩ := ih (h.rest hw₁).sound m none
          exact ⟨p', (h.rest hw₁).trans hp'⟩
        · exact ⟨p, .quiet h le_rfl⟩
      · have h₀ : TimerSound q p { w with tick := w.tick + 1 } := h.of_flags rfl
        split
        · -- the next ready job's turn
          rename_i k w₁ hw₁
          obtain ⟨h₁, hn₁, hk, hq⟩ := h₀.takeNext hw₁
          obtain ⟨p₁, hp₁⟩ := h₁.pollJob hk hq
          obtain ⟨p', hp'⟩ := ih hp₁.sound m (some (turns + 1))
          exact ⟨p', TimerMoves.trans (.quiet h₁ hn₁.symm.le) (hp₁.trans hp')⟩
        · split
          · rename_i w₁ hw₁
            obtain ⟨p', hp'⟩ := ih (h₀.rest hw₁).sound m none
            exact ⟨p', TimerMoves.trans (.quiet h₀ le_rfl) ((h₀.rest hw₁).trans hp')⟩
          · exact ⟨p, .quiet h₀ le_rfl⟩

theorem runUntil (h : TimerSound q p w) (m : Awaited) :
    ∃ p', TimerMoves q p w p' (w.runUntil m) := by
  unfold World.runUntil
  dsimp only
  have h₀ : TimerSound q p { w with
      inside := true, mainWoken := true, signalled := false, mainRang := false } := h.of_flags rfl
  obtain ⟨p', hp'⟩ := h₀.runLoop (runFuel { w with
      inside := true, mainWoken := true, signalled := false, mainRang := false }) m none
  generalize World.runLoop (runFuel { w with
      inside := true, mainWoken := true, signalled := false, mainRang := false }) { w with
      inside := true, mainWoken := true, signalled := false, mainRang := false } m none = w₁ at hp' ⊢
  -- the sleep's own timer is taken out of the wheel
  have h₁ := hp'.sound.wheel (w₁.wheel.remove (· == Waker.main)) (fun _ _ hj _ => hj.remove _)
    le_rfl
  exact ⟨p', TimerMoves.trans (.quiet h₀ le_rfl) (hp'.trans (.quiet (h₁.of_flags rfl) le_rfl))⟩

end TimerSound

/-! ### Arming and disarming -/

theorem schedule_queue (w : World) (q : Nat) (d : Time.Duration) :
    w.schedule (.queue q) d = if (w.debounce (.queue q)).pending.isSome then (false, w) else
      (true, ((w.setDebounce (.queue q) ⟨(w.debounce (.queue q)).generation + 1, some w.nextJob⟩).spawn
        (.timer (.queue q) ((w.debounce (.queue q)).generation + 1) d false)).2) := by
  cases hp : (w.debounce (.queue q)).pending <;>
    simp only [World.schedule, Debounce.schedule, Debounce.scheduled, hp, Option.isSome_none,
      Option.isSome_some, Bool.false_eq_true, ↓reduceIte]

theorem cancelTimer_queue (w : World) (q : Nat) :
    w.cancelTimer (.queue q) = match (w.debounce (.queue q)).pending with
      | some job =>
        (true, (w.setDebounce (.queue q) ⟨(w.debounce (.queue q)).generation + 1, none⟩).abort job)
      | none => (false, w.setDebounce (.queue q) ⟨(w.debounce (.queue q)).generation + 1, none⟩) :=
  rfl

theorem spawn_setDebounce (w : World) (q : Nat) (t : Debounce) (job : Job) :
    ((w.setDebounce (.queue q) t).spawn job).2 = (w.spawn job).2.setDebounce (.queue q) t := by
  by_cases hi : w.inside <;>
    simp [World.spawn, World.enqueue, setDebounce, modifyInst, hi]

namespace TimerSound

/-- Disarming `q`'s timer starts a new generation with no firing pending. -/
theorem bump (h : TimerSound q p w) :
    TimerSound q none (w.setDebounce (.queue q) ⟨(w.debounce (.queue q)).generation + 1, none⟩) := by
  cases hi : w.inst q with
  | none =>
    have hp : p = none := by
      cases p with
      | none => rfl
      | some je =>
        obtain ⟨hpend, -⟩ := h.awaits je.1 je.2 rfl
        simp [debounce, hi, Debounce.idle] at hpend
    subst hp
    refine h.same_fields (fun q' => ?_) rfl rfl rfl rfl (fun k hk => .inl hk) h.nodup
    show ((w.modifyInst q _).inst q').map (·.timer) = _
    rw [inst_modifyInst]
    split
    · rename_i hq
      subst hq
      rw [hi]
      rfl
    · rfl
  | some i => exact h.quench hi _ (by simp [debounce, hi]) rfl

theorem cancelOwn (h : TimerSound q p w) : TimerSound q none (w.cancelTimer (.queue q)).2 := by
  rw [cancelTimer_queue]
  split
  · exact h.bump.abort _ fun _ _ he => by cases he
  · exact h.bump

/-- Arming `q`'s timer when no firing is pending starts its job, in line, in a new generation:
the firing is pending, due no earlier than the delay after now, rounded up to whole milliseconds
and at most thirty years. -/
theorem arming (h : TimerSound q none w) {i : Instance} (hi : w.inst q = some i)
    (d : Time.Duration) :
    TimerSound q (some (w.nextJob, w.now + min d.ceilMillis longestSleep))
      (w.schedule (.queue q) d).2 := by
  obtain ⟨hfree, hnot⟩ := h.free
  rw [schedule_queue, h.none_of rfl]
  simp only [Option.isSome_none, Bool.false_eq_true, ↓reduceIte]
  set n := w.nextJob
  set g := (w.debounce (.queue q)).generation
  set t : Debounce := ⟨g + 1, some n⟩
  set s₀ : JobSlot := ⟨.timer (.queue q) (g + 1) d false, true, none, false, none⟩ with hs₀
  have hW₀q : (w.setDebounce (.queue q) t).debounce (.queue q) = t := by
    simp [setDebounce, debounce, inst_modifyInst, hi]
  have hW₀o : ∀ q', q' ≠ q →
      (w.setDebounce (.queue q) t).debounce (.queue q') = w.debounce (.queue q') := fun q' hne => by
    simp only [setDebounce, debounce, inst_modifyInst, if_neg (Ne.symm hne)]
  set W₀ := w.setDebounce (.queue q) t
  show TimerSound q _ (World.enqueue { W₀ with jobs := w.jobs ++ [(n, s₀)], nextJob := n + 1 } n)
  generalize hW : ({ W₀ with jobs := w.jobs ++ [(n, s₀)], nextJob := n + 1 } : World) = W
  have hj : W.jobs = w.jobs ++ [(n, s₀)] := by rw [← hW]
  have hn : W.nextJob = n + 1 := by rw [← hW]
  have hdq : W.debounce (.queue q) = t := by
    rw [← hW]
    exact hW₀q
  have hdo : ∀ q', q' ≠ q → W.debounce (.queue q') = w.debounce (.queue q') := fun q' hne => by
    rw [← hW]
    exact hW₀o q' hne
  have hwh : W.wheel = w.wheel := by rw [← hW]; rfl
  have hd : W.deferred = w.deferred := by rw [← hW]; rfl
  have hr : W.ready = w.ready := by rw [← hW]; rfl
  have hs₀n : W.slot n = some s₀ := by rw [slot_added hj hfree, if_pos rfl]
  have htg : t.generation = g + 1 := rfl
  have h₁ : TimerSound q (some (n, w.now + min d.ceilMillis longestSleep)) W := by
    refine ⟨fun k hk => ?_, fun k hk => ?_, hr ▸ h.nodup, fun q' k hk => ?_,
      fun k s g' d' a hs hj' => ?_, fun j k s d' a hp hs hj' hf hc => ?_,
      (fun hp => by cases hp), fun j e he => ?_⟩
    · rw [hn] at hk
      obtain ⟨hnone, hnb, hdef, hjo⟩ := h.fresh k (by omega)
      refine ⟨?_, hwh ▸ hnb, hd ▸ hdef, joiners_added hj hfree rfl hjo⟩
      rw [slot_added hj hfree, if_neg (by omega)]
      exact hnone
    · obtain ⟨s, hs, hq⟩ := h.lined k (hr ▸ hk)
      exact ⟨s, slot_added_of hj hfree hs, hq⟩
    · by_cases hne : q' = q
      · -- `q`'s pending firing is the job just started
        subst hne
        rw [hdq] at hk
        cases hk
        exact ⟨s₀, g + 1, d, false, hs₀n, rfl⟩
      · obtain ⟨s, g', d', a, hs, hj'⟩ := h.owned q' k (hdo q' hne ▸ hk)
        exact ⟨s, g', d', a, slot_added_of hj hfree hs, hj'⟩
    · rw [hdq, htg]
      rcases slot_of_added hj hfree hs with ⟨-, rfl⟩ | hs
      · simp only [s₀, Job.timer.injEq] at hj'
        omega
      · exact Nat.le_succ_of_le (h.gens k s g' d' a hs hj')
    · -- only the new job is of the new generation
      rw [hdq] at hp hj'
      cases hp
      rcases slot_of_added hj hfree hs with ⟨rfl, -⟩ | hs
      · rfl
      · have := h.gens k s _ d' a hs hj'
        rw [htg] at this
        omega
    · obtain ⟨rfl, rfl⟩ := Prod.mk.inj (Option.some.inj he)
      obtain ⟨-, hnb, hdef, hjo⟩ := h.fresh n le_rfl
      refine ⟨by rw [hdq], s₀, d, false, hs₀n, by rw [hdq], rfl, rfl, hd ▸ hdef,
        joiners_added hj hfree rfl hjo, hwh ▸ hnb _, fun _ => ?_, fun ha => by cases ha⟩
      simp only [now, hwh, le_refl]
  exact h₁.enqueue ⟨s₀, hs₀n, rfl⟩ (hr ▸ hnot)

end TimerSound

end World

end Outbox.Scenario
