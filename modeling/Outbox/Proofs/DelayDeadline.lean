import Mathlib
import Outbox.Proofs.AddThreshold
import Outbox.Proofs.ProbeOnTime

/-!
The delay timer of an outbox fires at its deadline, neither before nor after.

`TimerSound` keeps the firing from going off before its deadline. `OnDeadline` adds that virtual
time does not pass the deadline while the firing is pending: the firing's job is due at the
deadline (`DueAt`) and the wheel keeps time. The turn of any other job spares the firing's job
(`Spares`), the firing's own turn files its timer at the deadline or fires there, and a rest moves
time no further than the deadline. So a run of the agenda leaves the firing pending with the
deadline not passed, or fires it with the deadline reached (`OnDeadline.runUntil`).
-/

set_option autoImplicit false

namespace Outbox.Scenario

open Outbox.Queue Outbox.Time

namespace World

variable {q : Nat} {p : Option (Nat × Nat)} {w w' w₁ w₂ w₃ : World} {j k : Nat}

/-! ### Sparing a job -/

theorem slot_spawn_of {s : JobSlot} (hs : w.slot k = some s) (job : Job) :
    (w.spawn job).2.slot k = some s := by
  show (World.enqueue _ w.nextJob).slot k = some s
  rw [slot_enqueue]
  simp only [slot, List.lookup_append] at hs ⊢
  rw [hs]
  rfl

theorem slot_trigger_of {s : JobSlot} (hs : w.slot k = some s) (q' : Nat) (cb : Callback) :
    (w.trigger q' cb).slot k = some s := by
  cases hi : w.inst q' with
  | none => rwa [trigger_of_none cb hi]
  | some i =>
    cases hr : i.flight.running with
    | true => rwa [trigger_of_running cb hi hr]
    | false =>
      rw [trigger_of_idle cb hi hr]
      refine slot_spawn_of (slot_spawn_of ?_ _) _
      exact hs

theorem slot_fireTimer_of {s : JobSlot} (hs : w.slot k = some s) (o : TimerOwner) (g : Nat) :
    (w.fireTimer o g).slot k = some s := by
  unfold World.fireTimer
  split
  · split
    · dsimp only
      split
      · refine slot_trigger_of ?_ _ _
        exact hs
      · exact hs
    · exact hs
  · dsimp only
    split <;> exact hs

theorem finish_ended {s : JobSlot} (hs : w.slot k = some s) (panic : Option String) :
    ∃ s', (w.finish k panic).slot k = some s' ∧ s'.finished = some panic := by
  have h₁ := slot_modifySlot_of hs fun s => { s with finished := some panic }
  unfold World.finish
  dsimp only
  split
  · rename_i x _
    rcases wake_cases (w.modifySlot k fun s => { s with finished := some panic }) x with hw | ⟨s', hs', hf, -, -⟩
    · rw [hw]
      exact ⟨_, h₁, rfl⟩
    · by_cases hx : k = x
      · subst hx
        rw [h₁] at hs'
        cases hs'
        cases hf
      · exact ⟨_, ((wake_keeps _ x).1 k hx).trans h₁, rfl⟩
  · exact ⟨_, h₁, rfl⟩
  · exact ⟨_, h₁, rfl⟩

/-- `w'` keeps timer job `j` where `w` had it: what it runs, whether it ended, whether it is
marked and whether it is in line, its timers and its place aside; the clock stays, and the wheel
keeps time if it did. -/
structure Spares (j : Nat) (w w' : World) : Prop where
  slot : ∀ s, w.slot j = some s → ∃ s', w'.slot j = some s' ∧ s'.job = s.job ∧
    s'.finished = s.finished ∧ s'.queued = s.queued
  lined : j ∈ w.ready → j ∈ w'.ready
  timers : ∀ y : Slotted Waker, y.item = .job j → (y ∈ w'.wheel.entries ↔ y ∈ w.wheel.entries)
  now : w'.now = w.now
  aside : Waker.job j ∉ w.deferred → Waker.job j ∉ w'.deferred
  onTime : w.wheel.OnTime → w'.wheel.OnTime

theorem DueAt.spare {e : Nat} (h : w.DueAt j e) (hs : Spares j w w') : w'.DueAt j e := by
  obtain ⟨hc, haside, hall, s, o, g, d, a, hsl, hjob, hf, hst⟩ := h
  obtain ⟨s', hs', hj', hf', hq'⟩ := hs.slot s hsl
  refine ⟨hs.now ▸ hc, hs.aside haside, fun y hy hyi => hall y ((hs.timers y hyi).1 hy) hyi,
    s', o, g, d, a, hs', hj'.trans hjob, hf'.trans hf, ?_⟩
  rw [hs.now]
  rcases hst with ⟨hin, hun, harm⟩ | ⟨ha, hq, y, hy, hyi⟩
  · exact .inl ⟨hs.lined hin, hun, harm⟩
  · exact .inr ⟨ha, hq'.trans hq, y, (hs.timers y hyi).2 hy, hyi⟩

namespace Spares

theorem refl (j : Nat) (w : World) : Spares j w w :=
  ⟨fun s hs => ⟨s, hs, rfl, rfl, rfl⟩, id, fun _ _ => Iff.rfl, rfl, id, id⟩

theorem trans (h₁ : Spares j w₁ w₂) (h₂ : Spares j w₂ w₃) : Spares j w₁ w₃ := by
  refine ⟨fun s hs => ?_, fun h => h₂.lined (h₁.lined h),
    fun y hy => (h₂.timers y hy).trans (h₁.timers y hy), h₂.now.trans h₁.now,
    fun h => h₂.aside (h₁.aside h), fun h => h₂.onTime (h₁.onTime h)⟩
  obtain ⟨s₁, hs₁, hj₁, hf₁, hq₁⟩ := h₁.slot s hs
  obtain ⟨s₂, hs₂, hj₂, hf₂, hq₂⟩ := h₂.slot s₁ hs₁
  exact ⟨s₂, hs₂, hj₂.trans hj₁, hf₂.trans hf₁, hq₂.trans hq₁⟩

theorem of_same (hj : w'.jobs = w.jobs) (hr : w'.ready = w.ready) (hw : w'.wheel = w.wheel)
    (hd : w'.deferred = w.deferred) : Spares j w w' := by
  have hs : w'.slot j = w.slot j := by simp only [World.slot, hj]
  refine ⟨fun s h => ⟨s, hs.trans h, rfl, rfl, rfl⟩, fun h => hr ▸ h, fun y _ => by rw [hw],
    by simp only [World.now, hw], fun h => hd ▸ h, fun h => hw ▸ h⟩

theorem modifyInst (w : World) (q' : Nat) (f : Instance → Instance) :
    Spares j w (w.modifyInst q' f) :=
  of_same rfl rfl rfl rfl

theorem of_calm (h : Calm w w') : Spares j w w' :=
  of_same h.jobs h.ready h.wheel h.deferred

theorem modifySlot (hk : k ≠ j) (f : JobSlot → JobSlot) : Spares j w (w.modifySlot k f) :=
  ⟨fun s hs => ⟨s, (slot_modifySlot_ne (Ne.symm hk)).trans hs, rfl, rfl, rfl⟩, id,
    fun _ _ => Iff.rfl, rfl, id, id⟩

theorem setJoiner (k : Nat) (x : Waker) :
    Spares j w (w.modifySlot k fun s => { s with joiner := some x }) := by
  by_cases hk : k = j
  · subst hk
    exact ⟨fun s hs => ⟨_, slot_modifySlot_of hs _, rfl, rfl, rfl⟩, id, fun _ _ => Iff.rfl, rfl,
      id, id⟩
  · exact modifySlot hk _

theorem enqueue (w : World) (k : Nat) : Spares j w (w.enqueue k) := by
  obtain ⟨hw, hd⟩ := enqueue_wheel w k
  exact ⟨fun s hs => ⟨s, (slot_enqueue w k j).trans hs, rfl, rfl, rfl⟩,
    fun h => mem_ready_enqueue.2 (.inl h), fun _ _ => by rw [hw], by simp only [World.now, hw],
    fun h => hd ▸ h, fun h => hw ▸ h⟩

theorem wake (hk : k ≠ j) : Spares j w (w.wake k) := by
  obtain ⟨hs, hr, hw, hn, hd⟩ := wake_keeps w k
  exact ⟨fun s h => ⟨s, (hs j (Ne.symm hk)).trans h, rfl, rfl, rfl⟩, hr j, fun _ _ => by rw [hw],
    hn, fun h => hd ▸ h, fun h => hw ▸ h⟩

theorem finish (hk : k ≠ j) (hjo : ∀ s, w.slot k = some s → s.joiner ≠ some (.job j))
    (panic : Option String) : Spares j w (w.finish k panic) := by
  have h₁ : Spares j w (w.modifySlot k fun s => { s with finished := some panic }) :=
    modifySlot hk _
  unfold World.finish
  dsimp only
  split
  · rename_i x hx
    refine h₁.trans (wake fun hxj => ?_)
    obtain ⟨s, hs, hjx⟩ := Option.bind_eq_some_iff.1 hx
    rcases slot_of_modifySlot hs with ⟨-, s₀, hs₀, rfl⟩ | ⟨hne, -⟩
    · exact hjo s₀ hs₀ (hxj ▸ hjx)
    · exact hne rfl
  · exact h₁.trans (of_same rfl rfl rfl rfl)
  · exact h₁

theorem spawn (w : World) (job : Job) : Spares j w (w.spawn job).2 := by
  refine Spares.trans ?_ (enqueue _ w.nextJob)
  refine ⟨fun s hs => ⟨s, ?_, rfl, rfl, rfl⟩, id, fun _ _ => Iff.rfl, rfl, id, id⟩
  simp only [World.slot, List.lookup_append] at hs ⊢
  rw [hs]
  rfl

theorem trigger (w : World) (q' : Nat) (cb : Callback) : Spares j w (w.trigger q' cb) := by
  cases hi : w.inst q' with
  | none =>
    rw [trigger_of_none cb hi]
    exact refl j w
  | some i =>
    have h₁ : Spares j w (w.modifyInst q' fun i' => { i' with flight := (i.flight.request cb).2 }) :=
      of_same rfl rfl rfl rfl
    cases hr : i.flight.running with
    | true =>
      rw [trigger_of_running cb hi hr]
      exact h₁
    | false =>
      rw [trigger_of_idle cb hi hr]
      exact (h₁.trans (spawn _ _)).trans (spawn _ _)

theorem fireTimer (w : World) (o : TimerOwner) (g : Nat) : Spares j w (w.fireTimer o g) := by
  unfold World.fireTimer
  split
  · split
    · dsimp only
      split
      · exact (modifyInst _ _ _).trans (trigger _ _ _)
      · exact modifyInst _ _ _
    · exact refl j w
  · dsimp only
    split <;> exact of_same rfl rfl rfl rfl

theorem remove (w : World) (f : Waker → Bool) (hf : f (.job j) = false) :
    Spares j w { w with wheel := w.wheel.remove f } := by
  refine ⟨fun s hs => ⟨s, hs, rfl, rfl, rfl⟩, id, fun y hy => ?_, rfl, id, fun h => h.remove f⟩
  simp only [Time.Wheel.remove, List.mem_filter, hy, hf, Bool.not_false, and_true]

theorem insert (w : World) (t : Nat) {x : Waker} (hx : x ≠ .job j) :
    Spares j w { w with wheel := (w.wheel.insert t x).2 } := by
  refine ⟨fun s hs => ⟨s, hs, rfl, rfl, rfl⟩, id, fun y hy => ?_, now_insert w t x, id,
    fun h => h.insert t x⟩
  rcases Time.Wheel.insert_cases w.wheel t x with ⟨-, hi⟩ | ⟨-, hi⟩ <;> simp only [hi]
  simp only [Time.Wheel.place_entries, List.mem_append, List.mem_singleton]
  constructor
  · rintro (h | rfl)
    · exact h
    · exact absurd hy hx
  · exact .inl

theorem place (w : World) (when : Nat) (hlt : w.wheel.elapsed < when) {x : Waker}
    (hx : x ≠ .job j) : Spares j w { w with wheel := w.wheel.place w.wheel.elapsed when x } := by
  have he : (w.wheel.insert when x).2 = w.wheel.place w.wheel.elapsed when x := by
    rw [Time.Wheel.insert, if_neg (Nat.not_le.2 hlt)]
  rw [← he]
  exact insert w when hx

theorem defer (w : World) {x : Waker} (hx : x ≠ .job j) : Spares j w (w.defer x) := by
  rcases defer_cases w x with hd | hd <;> rw [hd]
  · exact refl j w
  · refine ⟨fun s hs => ⟨s, hs, rfl, rfl, rfl⟩, id, fun _ _ => Iff.rfl, rfl, fun h hm => ?_, id⟩
    rcases List.mem_cons.1 hm with h' | h'
    · exact hx h'.symm
    · exact h h'

theorem endTurn (hk : k ≠ j) (r : World × Poll)
    (hjo : ∀ s, r.1.slot k = some s → s.joiner ≠ some (.job j)) :
    Spares j r.1 (World.endTurn k r) := by
  obtain ⟨w₁, poll⟩ := r
  cases poll with
  | pending => exact refl j w₁
  | ready => exact finish hk hjo none
  | panicked m => exact finish hk hjo (some m)

theorem passLoop (hk : k ≠ j) (fuel : Nat) (w : World) (q' : Nat) (phase : Phase) :
    Spares j w (World.passLoop fuel w q' k phase).1 := by
  obtain ⟨w₁, hc, hw | ⟨ph, w₂, hw, hw₂⟩⟩ := passLoop_shape fuel w q' k phase <;> rw [hw]
  · exact of_calm hc
  refine (of_calm hc).trans (Spares.trans ?_ (modifySlot hk _))
  rcases hw₂ with rfl | rfl | ⟨t, rfl⟩
  · exact refl j _
  · exact defer _ fun h => hk (Waker.job.inj h)
  · exact insert _ t fun h => hk (Waker.job.inj h)

theorem pollWatch (w : World) (k q' target : Nat) : Spares j w (w.pollWatch k q' target).1 := by
  unfold World.pollWatch
  split
  · split
    · exact of_calm (Calm.completePass w q')
    · exact refl j w
    · exact setJoiner target (.job k)
  · exact refl j w

end Spares

theorem PassEnd.joiner {w' : World} {q' k k' : Nat} {s : JobSlot} (h : PassEnd w q' k w')
    (hs : w'.slot k' = some s) : ∃ s₀, w.slot k' = some s₀ ∧ s.joiner = s₀.joiner := by
  obtain ⟨w₁, hc, hw | ⟨ph, w₂, hw, hw₂⟩⟩ := h <;> subst hw
  · exact ⟨s, (hc.slot k').symm.trans hs, rfl⟩
  have hj₂ : w₂.jobs = w.jobs := by
    rcases hw₂ with rfl | rfl | ⟨t, rfl⟩
    · exact hc.jobs
    · rcases defer_cases w₁ (.job k) with hd | hd <;> rw [hd]
      · exact hc.jobs
      · exact hc.jobs
    · exact hc.jobs
  have hsl : ∀ k'', w₂.slot k'' = w.slot k'' := fun k'' => by simp only [slot, hj₂]
  rcases slot_of_modifySlot hs with ⟨rfl, s₀, hs₀, rfl⟩ | ⟨-, hs'⟩
  · exact ⟨s₀, (hsl _).symm.trans hs₀, rfl⟩
  · exact ⟨s, (hsl _).symm.trans hs', rfl⟩

/-- The turn of a job other than `j`, that `j` does not wait on, spares `j`: whatever the job,
its turn changes only itself, its own timers, what it starts and whom its end wakes. -/
theorem Spares.pollJob (hk : k ≠ j) (hjo : ∀ s, w.slot k = some s → s.joiner ≠ some (.job j)) :
    Spares j w (w.pollJob k) := by
  cases hs : w.slot k with
  | none =>
    rw [pollJob_of_none hs]
    exact refl j w
  | some s =>
    have h₁ : Spares j w (w.modifySlot k fun s => { s with queued := false }) := modifySlot hk _
    have hs₁ := slot_modifySlot_of hs fun s => { s with queued := false }
    have hjo₁ : ∀ s', (w.modifySlot k fun s => { s with queued := false }).slot k = some s' →
        s'.joiner ≠ some (.job j) := fun s' hs' => by
      rw [hs₁] at hs'
      cases hs'
      exact hjo s hs
    cases hfin : s.finished with
    | some r =>
      have he : w.pollJob k = w.modifySlot k fun s => { s with queued := false } := by
        simp only [World.pollJob, hs, hfin, Option.isSome_some, ↓reduceIte]
      rw [he]
      exact h₁
    | none =>
      cases hc : s.cancelled with
      | true =>
        simp only [World.pollJob, hs, hfin, hc, Option.isSome_none, Bool.false_eq_true, ↓reduceIte]
        have hne : (Waker.job j == Waker.job k) = false := by simp [Ne.symm hk]
        refine h₁.trans ((remove _ (· == Waker.job k) hne).trans (finish hk ?_ none))
        exact hjo₁
      | false =>
        rw [pollJob_live hs hfin hc]
        generalize hW : ({ w.modifySlot k (fun s => { s with queued := false }) with
          budget := turnBudget } : World) = W
        have hW₁ : Spares j w W := by
          rw [← hW]
          exact h₁.trans (of_same rfl rfl rfl rfl)
        have hWs : W.slot k = some { s with queued := false } := by
          rw [← hW]
          exact hs₁
        refine hW₁.trans ?_
        -- a timer that fires ends its job; no one waits for `j` there
        have fires : ∀ o g, Spares j W (World.endTurn k (W.fireTimer o g, .ready)) := fun o g =>
          (fireTimer W o g).trans (endTurn hk (W.fireTimer o g, .ready) fun s' hs' => by
            rw [slot_fireTimer_of hWs] at hs'
            cases hs'
            exact hjo s hs)
        cases s.job with
        | timer o g d a =>
          cases a with
          | true =>
            rw [jobTurn, pollTimer_armed]
            exact fires o g
          | false =>
            rw [jobTurn]
            rcases Nat.lt_or_ge W.wheel.elapsed (W.sleepEnd d.ceilMillis) with hlt | hle
            · rw [pollTimer_files hlt]
              exact (place W _ hlt fun h => hk (Waker.job.inj h)).trans
                (modifySlot hk fun s => { s with job := .timer o g d true })
            · rw [pollTimer_due hle]
              exact fires o g
        | pass q' ph =>
          refine (passLoop hk _ W q' ph).trans (endTurn hk _ fun s' hs' => ?_)
          obtain ⟨s₀, hs₀, hj₀⟩ := (passLoop_shape W.passFuel W q' k ph).joiner hs'
          rw [hWs] at hs₀
          cases hs₀
          rw [hj₀]
          exact hjo s hs
        | watch q' target =>
          refine (pollWatch W k q' target).trans (endTurn hk _ ?_)
          unfold World.pollWatch
          split
          · split
            · intro s' hs'
              rw [(Calm.completePass W q').slot, hWs] at hs'
              cases hs'
              exact hjo s hs
            · intro s' hs'
              rw [hWs] at hs'
              cases hs'
              exact hjo s hs
            · -- the watcher may wait for itself, never for `j`
              intro s' hs'
              rcases slot_of_modifySlot hs' with ⟨rfl, s₀, -, rfl⟩ | ⟨-, hs'⟩
              · exact fun h => hk (Waker.job.inj (Option.some.inj h))
              · rw [hWs] at hs'
                cases hs'
                exact hjo s hs
          · intro s' hs'
            rw [hWs] at hs'
            cases hs'
            exact hjo s hs

theorem Spares.takeNext (ht : w.takeNext = some (k, w')) (hkj : k ≠ j) : Spares j w w' := by
  obtain ⟨hperm, hw'⟩ := takeNext_cases ht
  have hs : w'.slot j = w.slot j := by rw [hw']; rfl
  refine ⟨fun s h => ⟨s, hs.trans h, rfl, rfl, rfl⟩, fun hj => ?_, fun y _ => by rw [hw'],
    by rw [hw']; rfl, fun h => by rw [hw']; exact h, fun h => by rw [hw']; exact h⟩
  rcases List.mem_cons.1 (hperm.mem_iff.1 hj) with h | h
  · exact absurd h.symm hkj
  · exact h

/-! ### The firing's own turn -/

/-- The turn of the pending firing's job, taken from its line while due at `e`: it fires, and its
job ends, or it files its timer at `e` and waits, due at `e` still. -/
theorem TimerSound.ownTurn {e : Nat} (h : TimerSound q (some (j, e)) w) (hd : w.DueAt j e)
    (ht : w.takeNext = some (j, w₁)) :
    (∃ s, (w₁.pollJob j).slot j = some s ∧ s.finished.isSome) ∨ (w₁.pollJob j).DueAt j e := by
  obtain ⟨hperm, hw₁⟩ := takeNext_cases ht
  have hsl : w₁.slot j = w.slot j := by rw [hw₁]; rfl
  have hwh : w₁.wheel = w.wheel := by rw [hw₁]
  have hdf : w₁.deferred = w.deferred := by rw [hw₁]
  obtain ⟨hc₀, haside, hall, s, o, g, d, a, hs, hjob, hf, hst⟩ := hd
  obtain ⟨-, s', d', a', hs', -, -, hc, -⟩ := h.awaits j e rfl
  rw [hs] at hs'
  cases hs'
  -- taken from its line, the job is marked, so it is due now or at the end of its delay
  obtain ⟨s'', hs'', hq⟩ := h.lined j (hperm.mem_iff.2 List.mem_cons_self)
  rw [hs] at hs''
  cases hs''
  have hun : a = false → e = w.now + min d.ceilMillis longestSleep := by
    rcases hst with ⟨-, h₁, -⟩ | ⟨-, hq', -⟩
    · exact h₁
    · rw [hq] at hq'
      cases hq'
  rw [pollJob_live (hsl.trans hs) hf hc, hjob]
  generalize hW : ({ w₁.modifySlot j (fun s => { s with queued := false }) with
    budget := turnBudget } : World) = W
  have hWs : W.slot j = some { s with queued := false } := by
    rw [← hW]
    exact slot_modifySlot_of (hsl.trans hs) fun s => { s with queued := false }
  have hWw : W.wheel = w.wheel := by
    rw [← hW]
    exact hwh
  have hWd : W.deferred = w.deferred := by
    rw [← hW]
    exact hdf
  have hWn : W.now = w.now := by simp only [World.now, hWw]
  have fires : ∃ s, (World.endTurn j (W.fireTimer o g, .ready)).slot j = some s ∧
      s.finished.isSome := by
    obtain ⟨s₁, hs₁, hf₁⟩ := finish_ended (slot_fireTimer_of hWs o g) none
    exact ⟨s₁, hs₁, by rw [hf₁]; rfl⟩
  cases a with
  | true =>
    rw [jobTurn, pollTimer_armed]
    exact .inl fires
  | false =>
    rw [jobTurn]
    rcases Nat.lt_or_ge W.wheel.elapsed (W.sleepEnd d.ceilMillis) with hlt | hle
    · -- its timer is filed at the deadline
      rw [pollTimer_files hlt]
      simp only [World.endTurn]
      have hend : W.sleepEnd d.ceilMillis = e := by
        rw [hun rfl, ← hWn]
        rfl
      refine .inr ⟨?_, ?_, fun y hy hyi => ?_, _, o, g, d, true,
        slot_modifySlot_of hWs fun s => { s with job := .timer o g d true }, rfl, hf,
        .inr ⟨rfl, rfl, ?_⟩⟩
      · exact (le_of_eq hWn).trans hc₀
      · show Waker.job j ∉ W.deferred
        rw [hWd]
        exact haside
      · change y ∈ (W.wheel.place W.wheel.elapsed (W.sleepEnd d.ceilMillis) (.job j)).entries at hy
        rw [Time.Wheel.place_entries, List.mem_append, List.mem_singleton] at hy
        rcases hy with hy | rfl
        · rw [hWw] at hy
          exact hall y hy hyi
        · exact hend
      · change ∃ y ∈ (W.wheel.place W.wheel.elapsed (W.sleepEnd d.ceilMillis) (.job j)).entries,
          y.item = .job j
        rw [Time.Wheel.place_entries]
        exact ⟨_, List.mem_append_right _ (List.mem_singleton_self _), rfl⟩
    · rw [pollTimer_due hle]
      exact .inl fires

/-! ### The invariant -/

/-- The world between two actions of the agenda, keeping the promise that instance `q`'s firing
`p` goes off exactly at its deadline: `TimerSound`, a wheel that keeps time, and the firing's job
due at the deadline. -/
structure OnDeadline (q : Nat) (p : Option (Nat × Nat)) (w : World) : Prop
    extends TimerSound q p w where
  onTime : w.wheel.OnTime
  due : ∀ j e, p = some (j, e) → w.DueAt j e

theorem TimerSound.onTime_pollJob (h : TimerSound q p w) (k : Nat) (hw : w.wheel.OnTime) :
    (w.pollJob k).wheel.OnTime := by
  obtain ⟨hnone, -, -, hjoins⟩ := h.fresh w.nextJob le_rfl
  by_cases hk : k = w.nextJob
  · rw [hk, pollJob_of_none hnone]
    exact hw
  · exact (Spares.pollJob hk fun s hs => hjoins k s hs).onTime hw

namespace OnDeadline

theorem spare (h : OnDeadline q p w) (ht : TimerSound q p w') (hs : ∀ j, Spares j w w') :
    OnDeadline q p w' :=
  ⟨ht, (hs 0).onTime h.onTime, fun j e he => (h.due j e he).spare (hs j)⟩

theorem of_flags (h : OnDeadline q p w) (hw : w' = { w with
    tick := w'.tick, budget := w'.budget, inside := w'.inside, mainWoken := w'.mainWoken,
    unparked := w'.unparked, signalled := w'.signalled, mainRang := w'.mainRang,
    fired := w'.fired, runLog := w'.runLog, depot := w'.depot, transport := w'.transport,
    probe := w'.probe }) : OnDeadline q p w' := by
  refine h.spare (h.toTimerSound.of_flags hw) fun _ => ?_
  rw [hw]
  exact Spares.of_same rfl rfl rfl rfl

/-- A turn keeps the invariant, and fires at most the pending firing, once it is due. -/
theorem turn (h : OnDeadline q p w) (ht : w.takeNext = some (k, w₁)) :
    ∃ p', TimerMoves q p w p' (w₁.pollJob k) ∧ OnDeadline q p' (w₁.pollJob k) := by
  obtain ⟨h₁, hn₁, hk, hq⟩ := h.toTimerSound.takeNext ht
  obtain ⟨p', hm⟩ := h₁.pollJob hk hq
  have hwh : w₁.wheel = w.wheel := by rw [(takeNext_cases ht).2]
  refine ⟨p', (TimerMoves.quiet h₁ hn₁.symm.le).trans hm, ⟨hm.sound,
    h₁.onTime_pollJob k (hwh ▸ h.onTime), fun j e he => ?_⟩⟩
  -- a firing pending after the turn was pending before it
  rcases hm.fires with rfl | ⟨-, -, -, rfl, -⟩
  · have hd := h.due j e he
    by_cases hkj : k = j
    · subst hkj
      rw [he] at h
      rcases h.toTimerSound.ownTurn hd ht with ⟨s, hs, hfin⟩ | hdue
      · -- it fired: its job ended, so it is pending no more
        obtain ⟨s', d, a, hs', -, hf, -⟩ := (hm.sound.awaits k e he).2
        rw [hs] at hs'
        cases hs'
        rw [hf] at hfin
        cases hfin
      · exact hdue
    · obtain ⟨-, -, -, -, -, -, -, -, hjoins, -⟩ := (h.awaits j e he).2
      refine (hd.spare (Spares.takeNext ht hkj)).spare (Spares.pollJob hkj fun s hs => ?_)
      rw [(takeNext_cases ht).2] at hs
      exact hjoins k s hs
  · cases he

theorem rest (h : OnDeadline q p w) {look : Bool} (hlook : look = false → w.ready = [])
    (hr : w.rest look = some w') : TimerMoves q p w p w' ∧ OnDeadline q p w' :=
  ⟨h.toTimerSound.rest hr, (h.toTimerSound.rest hr).sound, rest_onTime h.onTime hr,
    fun j e he => (h.due j e he).rest h.onTime hlook hr⟩

theorem pollAwaited (h : OnDeadline q p w) (m : Awaited) :
    OnDeadline q p (w.pollAwaited m).1 ∧ (w.pollAwaited m).1.now = w.now := by
  obtain ⟨ht, hn⟩ := h.toTimerSound.pollAwaited m
  refine ⟨h.spare ht fun j => ?_, hn⟩
  cases m with
  | pass q' asked =>
    cases asked with
    | false => exact Spares.trigger w q' .signal
    | true => exact Spares.refl j w
  | sleep ms armed =>
    cases armed with
    | false =>
      have hs : Spares j w { w with wheel := (w.wheel.insert (w.sleepEnd ms) .main).2 } :=
        Spares.insert w _ nofun
      rcases Time.Wheel.insert_cases w.wheel (w.sleepEnd ms) .main with ⟨-, hi⟩ | ⟨-, hi⟩ <;>
        simp only [World.pollAwaited, hi] at hs ⊢
      · exact Spares.refl j w
      · exact hs
    | true => exact Spares.refl j w
  | job k =>
    simp only [World.pollAwaited]
    split
    · split
      · exact Spares.refl j w
      · exact Spares.setJoiner k .main
    · exact Spares.refl j w

/-- Every run of the agenda keeps the invariant, moves the clock forward, and fires at most the
pending firing, once it is due. The induction follows the fuel, each iteration a look, a turn or
a rest. -/
theorem runLoop (fuel : Nat) (h : OnDeadline q p w) (m : Awaited) (turns : Option Nat) :
    ∃ p', TimerMoves q p w p' (World.runLoop fuel w m turns) ∧
      OnDeadline q p' (World.runLoop fuel w m turns) := by
  induction fuel generalizing p w m turns with
  | zero => exact ⟨p, .quiet h.toTimerSound le_rfl, h⟩
  | succ fuel ih =>
    cases turns with
    | none =>
      simp only [World.runLoop]
      split
      · obtain ⟨h₁, hn₁⟩ := (h.of_flags rfl : OnDeadline q p { w with mainWoken := false }).pollAwaited m
        generalize World.pollAwaited { w with mainWoken := false } m = r at h₁ hn₁ ⊢
        obtain ⟨w₁, m₁, ready⟩ := r
        dsimp only at h₁ hn₁ ⊢
        have hm₁ : TimerMoves q p w p w₁ := .quiet h₁.toTimerSound hn₁.symm.le
        split
        · exact ⟨p, hm₁, h₁⟩
        · obtain ⟨p', hp', h'⟩ := ih h₁ m₁ (some 0)
          exact ⟨p', hm₁.trans hp', h'⟩
      · exact ih h m (some 0)
    | some turns =>
      simp only [World.runLoop]
      split
      · split
        · rename_i w₁ hw₁
          obtain ⟨hm, h₁⟩ := h.rest (fun h => by cases h) hw₁
          obtain ⟨p', hp', h'⟩ := ih h₁ m none
          exact ⟨p', hm.trans hp', h'⟩
        · exact ⟨p, .quiet h.toTimerSound le_rfl, h⟩
      · have h₀ : OnDeadline q p { w with tick := w.tick + 1 } := h.of_flags rfl
        have hm₀ : TimerMoves q p w p { w with tick := w.tick + 1 } := .quiet h₀.toTimerSound le_rfl
        split
        · -- the next ready job's turn
          rename_i k w₁ hw₁
          obtain ⟨p₁, hp₁, h₁⟩ := h₀.turn hw₁
          obtain ⟨p', hp', h'⟩ := ih h₁ m (some (turns + 1))
          exact ⟨p', hm₀.trans (hp₁.trans hp'), h'⟩
        · rename_i hnone
          split
          · rename_i w₁ hw₁
            obtain ⟨hm, h₁⟩ := h₀.rest (fun _ => takeNext_eq_none hnone) hw₁
            obtain ⟨p', hp', h'⟩ := ih h₁ m none
            exact ⟨p', hm₀.trans (hm.trans hp'), h'⟩
          · exact ⟨p, hm₀, h₀⟩

theorem runUntil (h : OnDeadline q p w) (m : Awaited) :
    ∃ p', TimerMoves q p w p' (w.runUntil m) ∧ OnDeadline q p' (w.runUntil m) := by
  unfold World.runUntil
  dsimp only
  have h₀ : OnDeadline q p { w with
      inside := true, mainWoken := true, signalled := false, mainRang := false } := h.of_flags rfl
  obtain ⟨p', hp', h'⟩ := h₀.runLoop (runFuel { w with
      inside := true, mainWoken := true, signalled := false, mainRang := false }) m none
  generalize World.runLoop (runFuel { w with
      inside := true, mainWoken := true, signalled := false, mainRang := false }) { w with
      inside := true, mainWoken := true, signalled := false, mainRang := false } m none = w₁ at hp' h' ⊢
  have h₁ : OnDeadline q p' { w₁ with wheel := w₁.wheel.remove (· == Waker.main) } :=
    h'.spare (h'.toTimerSound.wheel _ (fun _ _ hj _ => hj.remove _) le_rfl)
      fun _ => Spares.remove w₁ _ rfl
  have h₂ : OnDeadline q p' { w₁ with inside := false, wheel := w₁.wheel.remove (· == Waker.main) } :=
    h₁.of_flags rfl
  exact ⟨p', TimerMoves.trans (.quiet h₀.toTimerSound le_rfl)
    (hp'.trans (.quiet h₂.toTimerSound le_rfl)), h₂⟩

end OnDeadline

/-! ### Adds -/

theorem wheel_spawn (w : World) (job : Job) : (w.spawn job).2.wheel = w.wheel :=
  (enqueue_wheel _ _).1

theorem wheel_trigger (w : World) (q' : Nat) (cb : Callback) : (w.trigger q' cb).wheel = w.wheel := by
  cases hi : w.inst q' with
  | none => rw [trigger_of_none cb hi]
  | some i =>
    cases hr : i.flight.running with
    | true => rw [trigger_of_running cb hi hr]; rfl
    | false => rw [trigger_of_idle cb hi hr, wheel_spawn, wheel_spawn]; rfl

theorem wheel_abort (w : World) (k : Nat) : (w.abort k).wheel = w.wheel := by
  unfold World.abort
  split
  · split
    · rfl
    · exact (wake_keeps _ k).2.2.1
  · rfl

theorem wheel_afterAdd (w : World) (q' count : Nat) : (w.afterAdd q' count).wheel = w.wheel := by
  unfold World.afterAdd
  split
  · rfl
  · split
    · rw [wheel_trigger, cancelTimer_queue]
      split
      · exact wheel_abort _ _
      · rfl
    · rw [schedule_queue]
      split
      · rfl
      · exact wheel_spawn _ _

/-- Arming `q`'s timer with no firing pending starts its job in line, due at the end of the delay
from now. -/
theorem TimerSound.due_schedule (h : TimerSound q none w) (d : Duration) :
    (w.schedule (.queue q) d).2.DueAt w.nextJob (w.now + min d.ceilMillis longestSleep) := by
  obtain ⟨hfree, hnb, hdef, -⟩ := h.fresh w.nextJob le_rfl
  rw [schedule_queue, h.none_of rfl]
  simp only [Option.isSome_none, Bool.false_eq_true, ↓reduceIte]
  set W := w.setDebounce (.queue q) ⟨(w.debounce (.queue q)).generation + 1, some w.nextJob⟩
  set s₀ : JobSlot :=
    ⟨.timer (.queue q) ((w.debounce (.queue q)).generation + 1) d false, true, none, false, none⟩
  have hW : (W.spawn s₀.job).2 = World.enqueue
      { W with jobs := W.jobs ++ [(W.nextJob, s₀)], nextJob := W.nextJob + 1 } W.nextJob := rfl
  obtain ⟨hwh, hd⟩ := enqueue_wheel
    { W with jobs := W.jobs ++ [(W.nextJob, s₀)], nextJob := W.nextJob + 1 } W.nextJob
  rw [← hW] at hwh hd
  have hs : (W.spawn s₀.job).2.slot w.nextJob = some s₀ := by
    rw [hW, slot_enqueue, slot_added rfl hfree, if_pos rfl]
  have hn : (W.spawn s₀.job).2.now = w.now := by
    simp only [World.now, hwh]
    rfl
  refine ⟨by rw [hn]; exact Nat.le_add_right _ _, by rw [hd]; exact hdef, fun y hy hyi => ?_, s₀,
    .queue q, _, d, false, hs, rfl, rfl, .inl ⟨?_, fun _ => by rw [hn], fun h => absurd h Bool.false_ne_true⟩⟩
  · -- a job not started has no timer
    rw [hwh] at hy
    have := (hnb (y.when + 1)).1 y hy hyi
    omega
  · rw [hW]
    exact mem_ready_enqueue.2 (.inr rfl)

section Adds

variable {kind : String} {data : List UInt8} {groupStart : Option String} {groups : List String}
  {c : Created} {i : Instance}

/-- What an add makes of the pending firing, kept on its deadline: one at the threshold drops it,
one below keeps it or makes the run delay after now pending, and one that stores nothing keeps
it. -/
theorem OnDeadline.add (h : OnDeadline q p w) (hq : w.newest = q) (hi : w.inst q = some i)
    (ha : w.add kind data groupStart groups = some (c, w')) :
    OnDeadline q (if c.success then
      (if i.minTasks ≤ c.inventory.length then none
        else p <|> some (w.nextJob, w.now + min i.runDelay.ceilMillis longestSleep)) else p) w' := by
  have ht := h.toTimerSound.add hq hi ha
  subst hq
  obtain ⟨w₁, hsh, he⟩ := add_some ha
  obtain ⟨i₀, d, sh, hi₀, hw₁⟩ := onShelf_some hsh
  obtain rfl : i₀ = i := Option.some.inj (hi₀.symm.trans hi)
  have h₁ : OnDeadline w.newest p w₁ := by
    refine h.spare (h.toTimerSound.onShelf hsh) fun _ => ?_
    rw [hw₁]
    exact Spares.of_same rfl rfl rfl rfl
  have hi₁ : w₁.inst w.newest = some { i₀ with shelf := sh } := by
    rw [hw₁]
    exact inst_onShelf_self hi d sh
  have hn₁ : w₁.nextJob = w.nextJob := by rw [hw₁]; rfl
  have hnow₁ : w₁.now = w.now := by rw [hw₁]; rfl
  have hon : w'.wheel.OnTime := by
    rw [he]
    split
    · rw [wheel_afterAdd]
      exact h₁.onTime
    · exact h₁.onTime
  refine ⟨ht, hon, fun j e hje => ?_⟩
  cases hs : c.success
  · rw [he, hs, if_neg Bool.false_ne_true]
    rw [hs, if_neg Bool.false_ne_true] at hje
    exact h₁.due j e hje
  · rw [hs, if_pos rfl] at hje
    rw [he, hs, if_pos rfl]
    by_cases hc : i₀.minTasks ≤ c.inventory.length
    · rw [if_pos hc] at hje
      cases hje
    · rw [if_neg hc] at hje
      have hlt : c.inventory.length < ({ i₀ with shelf := sh } : Instance).minTasks :=
        Nat.lt_of_not_le hc
      cases p with
      | some je =>
        -- the firing pending stays, and nothing changes
        obtain ⟨hpend, -⟩ := h₁.awaits je.1 je.2 rfl
        rw [(afterAdd_arms hi₁ hlt).2 (by rw [hpend]; rfl)]
        exact h₁.due j e hje
      | none =>
        -- the firing armed now is due at the end of the delay
        have hje' : some (w.nextJob, w.now + min i₀.runDelay.ceilMillis longestSleep) = some (j, e) :=
          hje
        obtain ⟨rfl, rfl⟩ := Prod.mk.inj (Option.some.inj hje')
        rw [afterAdd_of_lt hi₁ hlt, ← hn₁, ← hnow₁]
        exact h₁.toTimerSound.due_schedule _

end Adds

end World

/-! ### Adds and the deadline -/

open World

end Outbox.Scenario
