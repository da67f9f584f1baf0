import Mathlib
import Outbox.Proofs.SingleFlight

/-!
What requests and timers do to the flight of passes. A request joins the pass in progress or
starts one with its watcher; arming and disarming a timer touch timers only, and a timer that
fires may request a pass. Each keeps passes in single flight and either leaves every outbox's
callbacks and passes in progress as they were or leaves one callback for the pass it starts or
joins (`Moved`). The turns of jobs, and all events together, follow in `Outbox.Proofs.Events`.
-/

set_option autoImplicit false

namespace Outbox.Scenario

open Outbox.Queue

/-- What an event does with the callbacks of an instance. -/
inductive Deed where
  /-- A callback is left with instance `q` for its pass `p` in progress. -/
  | asked (q : Nat) (cb : Callback) (p : Nat)
  /-- The callbacks left with instance `q` for its pass `p` are called, the pass having ended. -/
  | handed (q : Nat) (cbs : List Callback) (p : Nat)

namespace World

variable {w w' : World}

theorem Keeps.refl (w : World) (q : Nat) : Keeps w w q := ⟨rfl, fun _ _ _ => Iff.rfl⟩

theorem JobsSound.congr (h : JobsSound w) (hv : ∀ j, w'.viewOf j = w.viewOf j)
    (hn : w'.nextJob = w.nextJob) (hl : w'.instances.length = w.instances.length)
    (hd : ∀ o, w'.debounce o = w.debounce o) : JobsSound w' where
  fresh j hj := (hv j).trans (h.fresh j (hn ▸ hj))
  known j q f c hj := hl ▸ h.known j q f c ((hv j).symm.trans hj)
  uncancelled j r f hj := h.uncancelled j r f ((hv j).symm.trans hj)
  armed o j hj := by
    obtain ⟨f, c, hj'⟩ := h.armed o j (hd o ▸ hj)
    exact ⟨f, c, (hv j).trans hj'⟩
  watched q p c hp := by
    obtain ⟨v, c', hw⟩ := h.watched q p c ((hv p).symm.trans hp)
    exact ⟨v, c', (hv v).trans hw⟩
  target v q p f c hw := by
    obtain ⟨f', c', hp⟩ := h.target v q p f c ((hv v).symm.trans hw)
    exact ⟨f', c', (hv p).trans hp⟩
  oneWatcher v v' q p f f' c c' h₁ h₂ :=
    h.oneWatcher v v' q p f f' c c' ((hv v).symm.trans h₁) ((hv v').symm.trans h₂)

theorem JobsSound.passOpen_lt {q p : Nat} (h : JobsSound w) (hp : w.PassOpen q p) :
    q < w.instances.length := by
  rcases hp with ⟨c, hc⟩ | ⟨⟨m, c, hc⟩, -⟩
  · exact h.known p q _ c hc
  · exact h.known p q _ c hc

theorem Flies.transfer {q : Nat} (hf : (w'.inst q).map (·.flight) = (w.inst q).map (·.flight))
    (ho : ∀ p, w'.PassOpen q p ↔ w.PassOpen q p) (h : Flies w q) : Flies w' q where
  held i hi := by
    obtain ⟨i₀, hi₀, hfl⟩ := inst_of_flight hf hi
    rw [← hfl, h.held i₀ hi₀]
    simp only [ho]
  single p p' hp hp' := h.single p p' ((ho p).1 hp) ((ho p').1 hp')
  idle i hi := by
    obtain ⟨i₀, hi₀, hfl⟩ := inst_of_flight hf hi
    rw [← hfl]
    exact h.idle i₀ hi₀

/-! ### Spawning, ending and completing -/

theorem spawn_quiet (w : World) (job : Job) :
    Quiet
      { w with
        jobs := w.jobs ++ [(w.nextJob, ⟨job, true, none, false, none⟩)]
        nextJob := w.nextJob + 1 }
      (w.spawn job).2 :=
  enqueue_quiet _ _

theorem viewOf_spawn (w : World) (job : Job) (hfree : w.viewOf w.nextJob = none) (j : Nat) :
    (w.spawn job).2.viewOf j =
      if j = w.nextJob then some (job.role, none, false) else w.viewOf j := by
  rw [(spawn_quiet w job).views j]
  simp only [viewOf, slot, List.lookup_append, lookup_cons_nat, List.lookup_nil]
  split
  · next h =>
    subst h
    have hnone : w.jobs.lookup w.nextJob = none := by simpa [viewOf, slot] using hfree
    simp [hnone, JobSlot.view]
  · simp

theorem finish_quiet (w : World) (id : Nat) (panic : Option String) :
    Quiet (w.modifySlot id fun s => { s with finished := some panic }) (w.finish id panic) := by
  unfold finish
  dsimp only
  split
  · exact wake_quiet _ _
  · exact wakeMain_quiet _
  · exact Quiet.refl _

theorem viewOf_finish (w : World) (id : Nat) (panic : Option String) (j : Nat) :
    (w.finish id panic).viewOf j =
      if j = id then (w.viewOf j).map fun x => (x.1, some panic, x.2.2) else w.viewOf j := by
  rw [(finish_quiet w id panic).views j, viewOf_modifySlot]
  split
  · simp only [viewOf, Option.map_map]
    rfl
  · rfl

theorem debounce_modifyInst {q : Nat} {f : Instance → Instance} (h : ∀ i, (f i).timer = i.timer)
    (o : TimerOwner) : (w.modifyInst q f).debounce o = w.debounce o := by
  cases o with
  | queue q' =>
    simp only [debounce, inst_modifyInst]
    split <;> cases w.inst q' <;> simp [h]
  | probe l => rfl

theorem viewOf_completePass (w : World) (q j : Nat) : (w.completePass q).viewOf j = w.viewOf j := by
  unfold completePass
  split
  · rfl
  · exact (call_quiet _ _).views j

theorem nextJob_completePass (w : World) (q : Nat) : (w.completePass q).nextJob = w.nextJob := by
  unfold completePass
  split
  · rfl
  · exact (call_quiet _ _).nextJob

theorem debounce_completePass (w : World) (q : Nat) (o : TimerOwner) :
    (w.completePass q).debounce o = w.debounce o := by
  unfold completePass
  split
  · rfl
  · rw [(call_quiet _ _).debounce o]
    refine debounce_modifyInst ?_ o
    exact fun _ => rfl

theorem flight_completePass (w : World) (q q' : Nat) :
    ((w.completePass q).inst q').map (·.flight) =
      if q' = q then (w.inst q).map fun _ => Flight.idle else (w.inst q').map (·.flight) := by
  unfold completePass
  split
  · next hi =>
    split
    · next h => rw [h, hi]; rfl
    · rfl
  · next i hi =>
    rw [(call_quiet _ _).flights q', inst_modifyInst]
    by_cases h : q' = q
    · subst h
      simp [hi, Flight.complete, Flight.idle]
    · simp [h, Ne.symm h]

/-! ### What ending a job does to passes in progress -/

theorem Keeps.trans {w₁ w₂ w₃ : World} {q : Nat} (h₁ : Keeps w₁ w₂ q) (h₂ : Keeps w₂ w₃ q) :
    Keeps w₁ w₃ q :=
  ⟨h₂.flight.trans h₁.flight, fun j x hx => (h₂.views j x hx).trans (h₁.views j x hx)⟩

theorem passOpen_congr {q p : Nat} (hv : ∀ j, w'.viewOf j = w.viewOf j) :
    w'.PassOpen q p ↔ w.PassOpen q p := by
  simp only [PassOpen, Watched, hv]

theorem viewOf_of_slot {j : Nat} {s : JobSlot} (hs : w.slot j = some s) :
    w.viewOf j = some s.view := by
  simp only [viewOf, hs, Option.map_some]

theorem role_of_viewOf {j : Nat} {r : Role} {f : Option (Option String)} {c : Bool}
    (hv : w.viewOf j = some (r, f, c)) : ∀ s, w.slot j = some s → s.job.role = r := by
  intro s hs
  rw [viewOf_of_slot hs] at hv
  exact congrArg Prod.fst (Option.some.inj hv)

theorem viewOf_finish_ne {id j : Nat} (panic : Option String) (hj : j ≠ id) :
    (w.finish id panic).viewOf j = w.viewOf j := by
  rw [viewOf_finish, if_neg hj]

theorem viewOf_finish_self {id : Nat} {panic : Option String} {r : Role}
    {f : Option (Option String)} {c : Bool} (h : w.viewOf id = some (r, f, c)) :
    (w.finish id panic).viewOf id = some (r, some panic, c) := by
  rw [viewOf_finish, if_pos rfl, h]
  rfl

theorem viewOf_of_finish {id j : Nat} {panic : Option String} {r : Role}
    {f : Option (Option String)} {c : Bool} (h : (w.finish id panic).viewOf j = some (r, f, c)) :
    ∃ f₀, w.viewOf j = some (r, f₀, c) ∧ (j = id → f = some panic) ∧ (j ≠ id → f₀ = f) := by
  rw [viewOf_finish] at h
  split at h
  · next hj =>
    obtain ⟨⟨r₀, f₀, c₀⟩, h₀, hx⟩ := Option.map_eq_some_iff.1 h
    cases hx
    exact ⟨f₀, h₀, fun _ => rfl, fun hne => absurd hj hne⟩
  · next hj => exact ⟨f, h, fun he => absurd he hj, fun _ => rfl⟩

theorem watched_of_finish {id q p : Nat} {panic : Option String}
    (h : (w.finish id panic).Watched q p) : w.Watched q p := by
  obtain ⟨v, c, hv⟩ := h
  obtain ⟨f₀, h₀, hself, hne⟩ := viewOf_of_finish hv
  by_cases hvi : v = id
  · cases hself hvi
  · exact ⟨v, c, (hne hvi) ▸ h₀⟩

theorem watched_finish {id q p v : Nat} {c : Bool} (panic : Option String)
    (hv : w.viewOf v = some (.watch q p, none, c)) (hne : v ≠ id) :
    (w.finish id panic).Watched q p :=
  ⟨v, c, (viewOf_finish_ne panic hne).trans hv⟩

theorem passOpen_of_finish {id q p : Nat} (h : (w.finish id none).PassOpen q p) :
    w.PassOpen q p := by
  rcases h with ⟨c, hc⟩ | ⟨⟨m, c, hc⟩, hw⟩
  · obtain ⟨f₀, h₀, hself, hne⟩ := viewOf_of_finish hc
    by_cases hp : p = id
    · cases hself hp
    · exact .inl ⟨c, (hne hp) ▸ h₀⟩
  · obtain ⟨f₀, h₀, hself, hne⟩ := viewOf_of_finish hc
    by_cases hp : p = id
    · cases hself hp
    · exact .inr ⟨⟨m, c, (hne hp) ▸ h₀⟩, watched_of_finish hw⟩

/-- Ending a job keeps the jobs sound, unless it is the watcher of a pass that has not ended. -/
theorem JobsSound.finish (h : JobsSound w) {id : Nat} (panic : Option String)
    (hw : ∀ q p c, w.viewOf id = some (.watch q p, none, c) →
      ∀ c', w.viewOf p ≠ some (.pass q, none, c')) :
    JobsSound (w.finish id panic) := by
  have hq := finish_quiet w id panic
  have hn : (w.finish id panic).nextJob = w.nextJob := hq.nextJob
  have hl : (w.finish id panic).instances.length = w.instances.length := hq.length
  have hd : ∀ o, (w.finish id panic).debounce o = w.debounce o := hq.debounce
  have fwd : ∀ j r f c, w.viewOf j = some (r, f, c) →
      ∃ f', (w.finish id panic).viewOf j = some (r, f', c) ∧ (j ≠ id → f' = f) := by
    intro j r f c hj
    by_cases hji : j = id
    · subst hji
      exact ⟨some panic, viewOf_finish_self hj, fun hne => absurd rfl hne⟩
    · exact ⟨f, (viewOf_finish_ne panic hji).trans hj, fun _ => rfl⟩
  refine ⟨fun j hj => ?_, fun j q f c hj => ?_, fun j r f hj => ?_, fun o j hj => ?_,
    fun q p c hp => ?_, fun v q p f c hv => ?_, fun v v' q p f f' c c' h₁ h₂ => ?_⟩
  · rw [viewOf_finish, h.fresh j (hn ▸ hj)]
    split <;> rfl
  · obtain ⟨f₀, h₀, -⟩ := viewOf_of_finish hj
    exact hl ▸ h.known j q f₀ c h₀
  · obtain ⟨f₀, h₀, -⟩ := viewOf_of_finish hj
    exact h.uncancelled j r f₀ h₀
  · obtain ⟨f, c, hv⟩ := h.armed o j ((hd o) ▸ hj)
    obtain ⟨f', hv', -⟩ := fwd j _ f c hv
    exact ⟨f', c, hv'⟩
  · obtain ⟨f₀, h₀, hself, hne⟩ := viewOf_of_finish hp
    have hpi : p ≠ id := fun he => by cases hself he
    obtain ⟨v, c', hv⟩ := h.watched q p c ((hne hpi) ▸ h₀)
    have hvi : v ≠ id := by
      rintro rfl
      exact hw q p c' hv c ((hne hpi) ▸ h₀)
    exact watched_finish panic hv hvi
  · obtain ⟨f₀, h₀, -⟩ := viewOf_of_finish hv
    obtain ⟨f', c', hp⟩ := h.target v q p f₀ c h₀
    obtain ⟨f'', hp', -⟩ := fwd p _ f' c' hp
    exact ⟨f'', c', hp'⟩
  · obtain ⟨f₀, h₀, -⟩ := viewOf_of_finish h₁
    obtain ⟨f₀', h₀', -⟩ := viewOf_of_finish h₂
    exact h.oneWatcher v v' q p f₀ f₀' c c' h₀ h₀'

theorem keeps_finish {id q : Nat} (panic : Option String)
    (hid : ∀ x, w.viewOf id = some x → x.1.outbox ≠ some q) : Keeps w (w.finish id panic) q := by
  refine ⟨(finish_quiet w id panic).flights q, fun j x hx => ?_⟩
  obtain ⟨r, f, c⟩ := x
  by_cases hj : j = id
  · subst hj
    constructor
    · intro h
      obtain ⟨f₀, h₀, -⟩ := viewOf_of_finish h
      exact absurd hx (hid (r, f₀, c) h₀)
    · intro h
      exact absurd hx (hid _ h)
  · rw [viewOf_finish_ne panic hj]

/-! ### Requests -/

theorem trigger_of_none {q : Nat} (cb : Callback) (hi : w.inst q = none) : w.trigger q cb = w := by
  simp only [trigger, hi]

theorem trigger_of_running {q : Nat} {i : Instance} (cb : Callback) (hi : w.inst q = some i)
    (hr : i.flight.running = true) :
    w.trigger q cb = w.modifyInst q fun i' => { i' with flight := (i.flight.request cb).2 } := by
  simp only [trigger, hi, Flight.request, hr, if_true]

theorem trigger_of_idle {q : Nat} {i : Instance} (cb : Callback) (hi : w.inst q = some i)
    (hr : i.flight.running = false) :
    w.trigger q cb =
      (((w.modifyInst q fun i' => { i' with flight := (i.flight.request cb).2 }).spawn
        (.pass q (.choose PassState.start))).2.spawn (.watch q w.nextJob)).2 := by
  simp only [trigger, hi, Flight.request, hr]
  rfl

/-! ### How events move the flights -/

/-- Instance `q` keeps its waiting callbacks and its passes in progress. -/
def Unmoved (w w' : World) (q : Nat) : Prop :=
  w'.waitingOf q = w.waitingOf q ∧ ∀ p, (w'.PassOpen q p ↔ w.PassOpen q p)

theorem Keeps.unmoved {q : Nat} (h : Keeps w w' q) : Unmoved w w' q :=
  ⟨h.waitingOf_eq, fun _ => h.passOpen_iff⟩

/-- Every job that has ended keeps its view: it stays ended, with its role, its outcome and
whether it was cancelled. -/
def KeepsEnded (w w' : World) : Prop :=
  ∀ j r f c, w.viewOf j = some (r, some f, c) → w'.viewOf j = some (r, some f, c)

theorem KeepsEnded.trans {w₁ w₂ w₃ : World} (h₁ : KeepsEnded w₁ w₂) (h₂ : KeepsEnded w₂ w₃) :
    KeepsEnded w₁ w₃ :=
  fun j r f c hj => h₂ j r f c (h₁ j r f c hj)

theorem Quiet.keepsEnded (h : Quiet w w') : KeepsEnded w w' :=
  fun j _ _ _ hj => (h.views j).trans hj

/-- How an event moves the flights of passes. -/
inductive Moved (w w' : World) : Option Deed → Prop
  /-- Every instance keeps its waiting callbacks and its passes in progress. -/
  | stays (h : ∀ q, Unmoved w w' q) : Moved w w' none
  /-- A callback is left with instance `q` for pass `p`, which was in progress already or is now
  the only one; other instances are unmoved. -/
  | asked (q : Nat) (cb : Callback) (p : Nat) (waiting : w'.waitingOf q = w.waitingOf q ++ [cb])
      (opens : ∀ p', w'.PassOpen q p' ↔ p' = p) (joins : ∀ p', w.PassOpen q p' → p' = p)
      (others : ∀ q', q' ≠ q → Unmoved w w' q') : Moved w w' (some (.asked q cb p))
  /-- Pass `p` of instance `q` has ended: the callbacks waiting for it are called, after steps
  that keep all the flight reads, and then only the turn of the pass or of its watcher ends; no
  pass of `q` is in progress any more, and other instances are unmoved. -/
  | handed (q p j : Nat) (w₁ : World) (quiet : Quiet w w₁)
      (last : w' = (w₁.completePass q).finish j none) (was : w.PassOpen q p)
      (ended : ∃ f c, w'.viewOf p = some (.pass q, some f, c)) (waiting : w'.waitingOf q = [])
      (closed : ∀ p', ¬ w'.PassOpen q p') (others : ∀ q', q' ≠ q → Unmoved w w' q') :
      Moved w w' (some (.handed q (w.waitingOf q) p))

theorem Moved.of_keeps (h : ∀ q, Keeps w w' q) : Moved w w' none :=
  .stays fun q => (h q).unmoved

theorem Quiet.moved (h : Quiet w w') : Moved w w' none :=
  .of_keeps h.keeps

theorem waitingOf_of_inst {q : Nat} {i : Instance} (hi : w.inst q = some i) :
    w.waitingOf q = i.flight.waiting := by
  simp only [waitingOf, hi]
  rfl

theorem waitingOf_of_flight {q : Nat} {f : Flight Callback}
    (h : (w.inst q).map (·.flight) = some f) : w.waitingOf q = f.waiting := by
  obtain ⟨i, hi, rfl⟩ := Option.map_eq_some_iff.1 h
  exact waitingOf_of_inst hi

theorem JobsSound.lt_nextJob {j : Nat} {x : Role × Option (Option String) × Bool}
    (h : JobsSound w) (hj : w.viewOf j = some x) : j < w.nextJob :=
  Nat.lt_of_not_le fun hle => by rw [h.fresh j hle] at hj; cases hj

theorem lt_length_of_inst {q : Nat} {i : Instance} (hi : w.inst q = some i) :
    q < w.instances.length :=
  (List.getElem?_eq_some_iff.1 hi).1

/-- A request while a pass is in progress joins it. -/
theorem trigger_joins {q : Nat} {i : Instance} (h : SingleFlight w) (cb : Callback)
    (hi : w.inst q = some i) (hr : i.flight.running = true) :
    SingleFlight (w.trigger q cb) ∧ (∃ p, Moved w (w.trigger q cb) (some (.asked q cb p))) ∧
      ∀ j, (w.trigger q cb).viewOf j = w.viewOf j := by
  rw [trigger_of_running cb hi hr]
  set w₁ := w.modifyInst q fun i' => { i' with flight := (i.flight.request cb).2 }
  have hv : ∀ j, w₁.viewOf j = w.viewOf j := fun _ => rfl
  have hopen : ∀ q' p, w₁.PassOpen q' p ↔ w.PassOpen q' p := fun _ _ => passOpen_congr hv
  have hi₁ : w₁.inst q = some { i with flight := (i.flight.request cb).2 } := by
    simp only [w₁, inst_modifyInst, if_pos, hi]
    rfl
  have hother : ∀ q', q' ≠ q → Keeps w w₁ q' := fun q' hq' =>
    ⟨by simp only [w₁, inst_modifyInst, if_neg (Ne.symm hq')], fun _ _ _ => Iff.rfl⟩
  obtain ⟨p, hp⟩ := ((h.flies q).held i hi).1 hr
  have hsingle : ∀ p', w.PassOpen q p' → p' = p := fun p' hp' => (h.flies q).single p' p hp' hp
  have hjobs : JobsSound w₁ :=
    h.jobs.congr hv rfl (List.length_modify _ _ _) (debounce_modifyInst fun _ => rfl)
  refine ⟨⟨hjobs, fun q' => ?_⟩, ⟨p, .asked q cb p ?_ ?_ hsingle fun q' hq' =>
    (hother q' hq').unmoved⟩, hv⟩
  · by_cases hq' : q' = q
    · subst hq'
      refine ⟨fun i' hi' => ?_, fun p₁ p₂ h₁ h₂ =>
        (h.flies q').single p₁ p₂ ((hopen _ _).1 h₁) ((hopen _ _).1 h₂), fun i' hi' => ?_⟩
      · rw [hi₁] at hi'
        cases hi'
        exact ⟨fun _ => ⟨p, (hopen _ _).2 hp⟩, fun _ => rfl⟩
      · rw [hi₁] at hi'
        cases hi'
        simp [Flight.request]
    · exact (hother q' hq').flies (h.flies q')
  · rw [waitingOf_of_inst hi₁, waitingOf_of_inst hi]
    rfl
  · intro p'
    rw [hopen]
    exact ⟨hsingle p', fun he => he ▸ hp⟩

theorem viewOf_trigger_of_idle {q : Nat} {i : Instance} (h : JobsSound w) (cb : Callback)
    (hi : w.inst q = some i) (hr : i.flight.running = false) (j : Nat) :
    (w.trigger q cb).viewOf j =
      if j = w.nextJob + 1 then some (.watch q w.nextJob, none, false)
      else if j = w.nextJob then some (.pass q, none, false) else w.viewOf j := by
  rw [trigger_of_idle cb hi hr]
  set w₁ := w.modifyInst q fun i' => { i' with flight := (i.flight.request cb).2 }
  have hfree₁ : w₁.viewOf w₁.nextJob = none := h.fresh w.nextJob le_rfl
  have hn₂ : (w₁.spawn (.pass q (.choose PassState.start))).2.nextJob = w.nextJob + 1 :=
    (spawn_quiet _ _).nextJob
  have hfree₂ : (w₁.spawn (.pass q (.choose PassState.start))).2.viewOf
      (w₁.spawn (.pass q (.choose PassState.start))).2.nextJob = none := by
    rw [hn₂, viewOf_spawn _ _ hfree₁,
      if_neg (show ¬ (w.nextJob + 1 = w₁.nextJob) from Nat.succ_ne_self _)]
    exact h.fresh _ (Nat.le_succ _)
  rw [viewOf_spawn _ _ hfree₂, hn₂, viewOf_spawn _ _ hfree₁]
  rfl

theorem viewOf_trigger_of_lt {q : Nat} {i : Instance} (h : JobsSound w) (cb : Callback)
    (hi : w.inst q = some i) (hr : i.flight.running = false) {j : Nat} (hj : j < w.nextJob) :
    (w.trigger q cb).viewOf j = w.viewOf j := by
  rw [viewOf_trigger_of_idle h cb hi hr, if_neg (by omega), if_neg (by omega)]

/-- A request that starts a pass adds two jobs and changes the flight of its instance only. -/
theorem trigger_of_idle_frame {q : Nat} {i : Instance} (cb : Callback) (hi : w.inst q = some i)
    (hr : i.flight.running = false) :
    (w.trigger q cb).nextJob = w.nextJob + 2 ∧
      (w.trigger q cb).instances.length = w.instances.length ∧
      (∀ o, (w.trigger q cb).debounce o = w.debounce o) ∧
      ((w.trigger q cb).inst q).map (·.flight) = some (i.flight.request cb).2 ∧
      ∀ q', q' ≠ q → ((w.trigger q cb).inst q').map (·.flight) = (w.inst q').map (·.flight) := by
  rw [trigger_of_idle cb hi hr]
  set w₁ := w.modifyInst q fun i' => { i' with flight := (i.flight.request cb).2 }
  have hq₂ := spawn_quiet w₁ (.pass q (.choose PassState.start))
  have hq₃ := spawn_quiet (w₁.spawn (.pass q (.choose PassState.start))).2 (.watch q w.nextJob)
  have hfl : ∀ q', (((w₁.spawn (.pass q (.choose PassState.start))).2.spawn
      (.watch q w.nextJob)).2.inst q').map (·.flight) = (w₁.inst q').map (·.flight) :=
    fun q' => (hq₃.flights q').trans (hq₂.flights q')
  refine ⟨?_, ?_, fun o => ?_, ?_, fun q' hq' => ?_⟩
  · rw [hq₃.nextJob]
    exact congrArg (· + 1) hq₂.nextJob
  · exact (length_of_flights hfl).trans (List.length_modify _ _ _)
  · rw [hq₃.debounce o]
    exact (hq₂.debounce o).trans (debounce_modifyInst (by intro _; rfl) o)
  · rw [hfl q]
    simp only [w₁, inst_modifyInst, if_pos, hi]
    rfl
  · rw [hfl q']
    simp only [w₁, inst_modifyInst, if_neg (Ne.symm hq')]

theorem passOpen_trigger_of_idle {q : Nat} {i : Instance} (h : JobsSound w) (cb : Callback)
    (hi : w.inst q = some i) (hr : i.flight.running = false) (q' p : Nat) :
    (w.trigger q cb).PassOpen q' p ↔ (q' = q ∧ p = w.nextJob) ∨ w.PassOpen q' p := by
  have hv := viewOf_trigger_of_idle h cb hi hr
  have hold : ∀ j, j < w.nextJob → (w.trigger q cb).viewOf j = w.viewOf j :=
    fun _ hj => viewOf_trigger_of_lt h cb hi hr hj
  have hw : ∀ x, x ≠ w.nextJob → ((w.trigger q cb).Watched q' x ↔ w.Watched q' x) := by
    intro x hx
    constructor
    · rintro ⟨v, c, hvw⟩
      rw [hv] at hvw
      split_ifs at hvw
      · cases hvw
        exact absurd rfl hx
      · cases hvw
      · exact ⟨v, c, hvw⟩
    · rintro ⟨v, c, hvw⟩
      exact ⟨v, c, (hold v (h.lt_nextJob hvw)).trans hvw⟩
  constructor
  · rintro (⟨c, hc⟩ | ⟨⟨m, c, hc⟩, hwt⟩)
    · rw [hv] at hc
      split_ifs at hc with h₁ h₂
      · cases hc
      · cases hc
        exact .inl ⟨rfl, h₂⟩
      · exact .inr (.inl ⟨c, hc⟩)
    · rw [hv] at hc
      split_ifs at hc with h₁ h₂
      · cases hc
      · cases hc
      · exact .inr (.inr ⟨⟨m, c, hc⟩, (hw p h₂).1 hwt⟩)
  · rintro (⟨rfl, rfl⟩ | hp)
    · exact .inl ⟨false, by rw [hv, if_neg (by omega), if_pos rfl]⟩
    · have hpn : p < w.nextJob := by
        rcases hp with ⟨c, hc⟩ | ⟨⟨m, c, hc⟩, -⟩
        · exact h.lt_nextJob hc
        · exact h.lt_nextJob hc
      rcases hp with ⟨c, hc⟩ | ⟨⟨m, c, hc⟩, hwt⟩
      · exact .inl ⟨c, (hold p hpn).trans hc⟩
      · exact .inr ⟨⟨m, c, (hold p hpn).trans hc⟩, (hw p (by omega)).2 hwt⟩

/-- A request that starts a pass keeps the jobs sound: the new pass has the new watcher, and
every other watcher watches a pass that was there. -/
theorem JobsSound.trigger_of_idle {q : Nat} {i : Instance} (h : JobsSound w) (cb : Callback)
    (hi : w.inst q = some i) (hr : i.flight.running = false) : JobsSound (w.trigger q cb) := by
  have hv := viewOf_trigger_of_idle h cb hi hr
  have hold : ∀ j, j < w.nextJob → (w.trigger q cb).viewOf j = w.viewOf j :=
    fun _ hj => viewOf_trigger_of_lt h cb hi hr hj
  obtain ⟨hn, hl, hd, -, -⟩ := trigger_of_idle_frame cb hi hr
  -- a watcher of the new world is the new one, of the new pass, or an old one of an old pass
  have hwatch : ∀ u q' p f c, (w.trigger q cb).viewOf u = some (.watch q' p, f, c) →
      (u = w.nextJob + 1 ∧ p = w.nextJob) ∨
        (u < w.nextJob ∧ p < w.nextJob ∧ w.viewOf u = some (.watch q' p, f, c)) := by
    intro u q' p f c hu
    rw [hv] at hu
    split_ifs at hu with h₁
    · cases hu
      exact .inl ⟨h₁, rfl⟩
    · cases hu
    · obtain ⟨f', c', hp⟩ := h.target u q' p f c hu
      exact .inr ⟨h.lt_nextJob hu, h.lt_nextJob hp, hu⟩
  refine ⟨fun j hj => ?_, fun j q' f c hj => ?_, fun j r f hj => ?_, fun o j hj => ?_,
    fun q' p c hp => ?_, fun v q' p f c hw => ?_, fun v v' q' p f f' c c' h₁ h₂ => ?_⟩
  · rw [hn] at hj
    rw [hv, if_neg (by omega), if_neg (by omega)]
    exact h.fresh j (by omega)
  · rw [hl]
    rw [hv] at hj
    split_ifs at hj
    · cases hj
    · cases hj
      exact lt_length_of_inst hi
    · exact h.known j q' f c hj
  · rw [hv] at hj
    split_ifs at hj
    · cases hj
    · cases hj
    · exact h.uncancelled j r f hj
  · obtain ⟨f, c, hj'⟩ := h.armed o j ((hd o) ▸ hj)
    exact ⟨f, c, (hold j (h.lt_nextJob hj')).trans hj'⟩
  · rw [hv] at hp
    split_ifs at hp with h₁ h₂
    · cases hp
    · cases hp
      exact ⟨w.nextJob + 1, false, by rw [hv, if_pos rfl, h₂]⟩
    · obtain ⟨v, c', hvw⟩ := h.watched q' p c hp
      exact ⟨v, c', (hold v (h.lt_nextJob hvw)).trans hvw⟩
  · rcases hwatch v q' p f c hw with ⟨rfl, rfl⟩ | ⟨-, -, hw'⟩
    · rw [hv, if_pos rfl] at hw
      cases hw
      exact ⟨none, false, by rw [hv, if_neg (by omega), if_pos rfl]⟩
    · obtain ⟨f', c', hp⟩ := h.target v q' p f c hw'
      exact ⟨f', c', (hold p (h.lt_nextJob hp)).trans hp⟩
  · rcases hwatch v q' p f c h₁ with ⟨hv₁, hp₁⟩ | ⟨-, hp₁, hw₁⟩ <;>
      rcases hwatch v' q' p f' c' h₂ with ⟨hv₂, hp₂⟩ | ⟨-, hp₂, hw₂⟩
    · omega
    · omega
    · omega
    · exact h.oneWatcher v v' q' p f f' c c' hw₁ hw₂

/-- A request while no pass is in progress starts one, with its watcher, under the next two job
ids. -/
theorem trigger_starts {q : Nat} {i : Instance} (h : SingleFlight w) (cb : Callback)
    (hi : w.inst q = some i) (hr : i.flight.running = false) :
    SingleFlight (w.trigger q cb) ∧ Moved w (w.trigger q cb) (some (.asked q cb w.nextJob)) ∧
      ∀ j, j < w.nextJob → (w.trigger q cb).viewOf j = w.viewOf j := by
  have ho := passOpen_trigger_of_idle h.jobs cb hi hr
  obtain ⟨-, -, -, hflq, hflo⟩ := trigger_of_idle_frame cb hi hr
  have hnone : ∀ p, ¬ w.PassOpen q p := fun p hp => by
    have hrun := ((h.flies q).held i hi).2 ⟨p, hp⟩
    rw [hr] at hrun
    cases hrun
  have hopen : ∀ p, (w.trigger q cb).PassOpen q p ↔ p = w.nextJob := fun p => by
    rw [ho]
    exact ⟨fun h' => h'.elim (·.2) fun hp => absurd hp (hnone p), fun he => .inl ⟨rfl, he⟩⟩
  have hother : ∀ q', q' ≠ q → ∀ p, ((w.trigger q cb).PassOpen q' p ↔ w.PassOpen q' p) :=
    fun q' hq' p => by
      rw [ho]
      exact ⟨fun h' => h'.elim (fun he => absurd he.1 hq') id, .inr⟩
  refine ⟨⟨h.jobs.trigger_of_idle cb hi hr, fun q' => ?_⟩,
    .asked q cb w.nextJob ?_ hopen (fun p hp => absurd hp (hnone p))
      fun q' hq' => ⟨waitingOf_congr (hflo q' hq'), hother q' hq'⟩,
    fun _ hj => viewOf_trigger_of_lt h.jobs cb hi hr hj⟩
  · by_cases hq' : q' = q
    · subst hq'
      have hflight : ∀ i', (w.trigger q' cb).inst q' = some i' →
          i'.flight = (i.flight.request cb).2 := fun i' hi' => by
        rw [hi'] at hflq
        exact Option.some.inj hflq
      refine ⟨fun i' hi' => ?_, fun p p' hp hp' => ((hopen p).1 hp).trans ((hopen p').1 hp').symm,
        fun i' hi' => ?_⟩
      · rw [hflight i' hi']
        exact ⟨fun _ => ⟨w.nextJob, (hopen _).2 rfl⟩, fun _ => rfl⟩
      · rw [hflight i' hi']
        simp [Flight.request]
    · exact Flies.transfer (hflo q' hq') (hother q' hq') (h.flies q')
  · rw [waitingOf_of_flight hflq, waitingOf_of_inst hi]
    rfl

/-- Every request keeps passes in single flight and leaves its callback for the pass it joins or
starts; a request to an instance that does not exist does nothing. Jobs already there keep their
views. -/
theorem trigger_moves (h : SingleFlight w) (q : Nat) (cb : Callback) :
    SingleFlight (w.trigger q cb) ∧
      (Moved w (w.trigger q cb) none ∨ ∃ p, Moved w (w.trigger q cb) (some (.asked q cb p))) ∧
      ∀ j, j < w.nextJob → (w.trigger q cb).viewOf j = w.viewOf j := by
  cases hi : w.inst q with
  | none =>
    rw [trigger_of_none cb hi]
    exact ⟨h, .inl (.of_keeps (Keeps.refl w)), fun _ _ => rfl⟩
  | some i =>
    cases hr : i.flight.running with
    | true =>
      obtain ⟨h₁, h₂, h₃⟩ := trigger_joins h cb hi hr
      exact ⟨h₁, .inr h₂, fun j _ => h₃ j⟩
    | false =>
      obtain ⟨h₁, h₂, h₃⟩ := trigger_starts h cb hi hr
      exact ⟨h₁, .inr ⟨_, h₂⟩, h₃⟩

/-! ### Timers -/

theorem viewOf_setDebounce (w : World) (o : TimerOwner) (t : Debounce) (j : Nat) :
    (w.setDebounce o t).viewOf j = w.viewOf j := by
  cases o <;> rfl

theorem nextJob_setDebounce (w : World) (o : TimerOwner) (t : Debounce) :
    (w.setDebounce o t).nextJob = w.nextJob := by
  cases o <;> rfl

theorem flight_setDebounce (w : World) (o : TimerOwner) (t : Debounce) (q : Nat) :
    ((w.setDebounce o t).inst q).map (·.flight) = (w.inst q).map (·.flight) := by
  cases o with
  | queue q' =>
    simp only [setDebounce, inst_modifyInst]
    split <;> cases w.inst q <;> rfl
  | probe l => rfl

theorem debounce_setDebounce (w : World) (o : TimerOwner) (t : Debounce) (o' : TimerOwner) :
    (w.setDebounce o t).debounce o' = w.debounce o' ∨ (w.setDebounce o t).debounce o' = t := by
  cases o with
  | queue q =>
    cases o' with
    | queue q' =>
      simp only [setDebounce, debounce, inst_modifyInst]
      split
      · cases w.inst q' <;> simp
      · exact .inl rfl
    | probe l => exact .inl rfl
  | probe l =>
    cases o' with
    | queue q' => exact .inl rfl
    | probe l' => exact .inr rfl

theorem SingleFlight.setDebounce (h : SingleFlight w) (o : TimerOwner) (t : Debounce)
    (ht : ∀ j, t.pending = some j → ∃ f c, w.viewOf j = some (.timer, f, c)) :
    SingleFlight (w.setDebounce o t) ∧ ∀ q, Keeps w (w.setDebounce o t) q := by
  have hr : Retimed w (w.setDebounce o t) :=
    ⟨flight_setDebounce w o t, fun j x _ => by rw [viewOf_setDebounce]⟩
  refine ⟨h.retimed hr (fun j hj => ?_) (fun j r f hj => ?_) (fun o' j hj => ?_), hr.keeps⟩
  · rw [viewOf_setDebounce]
    exact h.jobs.fresh j (nextJob_setDebounce w o t ▸ hj)
  · rw [viewOf_setDebounce] at hj
    exact h.jobs.uncancelled j r f hj
  · rw [viewOf_setDebounce]
    rcases debounce_setDebounce w o t o' with he | he <;> rw [he] at hj
    · exact h.jobs.armed o' j hj
    · exact ht j hj

theorem retimed_modifySlot {id : Nat} {g : JobSlot → JobSlot}
    (hid : ∀ s, w.slot id = some s → s.job.role = .timer)
    (hg : ∀ s, s.job.role = .timer → (g s).job.role = .timer) :
    Retimed w (w.modifySlot id g) := by
  refine ⟨fun q => rfl, fun j x hx => ?_⟩
  rw [viewOf_modifySlot]
  split
  · next hj =>
    subst hj
    cases hs : w.slot j with
    | none => simp [viewOf, hs]
    | some s =>
      have hrole := hid s hs
      simp only [viewOf, hs, Option.map_some, Option.some.injEq]
      constructor <;> rintro rfl
      · exact absurd (hg s hrole) hx
      · exact absurd hrole hx
  · exact Iff.rfl

/-- Changing a timer job, which stays a timer job, keeps passes in single flight. -/
theorem SingleFlight.modifyTimer (h : SingleFlight w) {id : Nat} {g : JobSlot → JobSlot}
    (hid : ∀ s, w.slot id = some s → s.job.role = .timer)
    (hg : ∀ s, s.job.role = .timer → (g s).job.role = .timer) :
    SingleFlight (w.modifySlot id g) ∧ ∀ q, Keeps w (w.modifySlot id g) q := by
  have hr := retimed_modifySlot hid hg
  refine ⟨h.retimed hr (fun j hj => ?_) (fun j r f hj => ?_) (fun o j hj => ?_), hr.keeps⟩
  · have hnone := h.jobs.fresh j hj
    rw [viewOf_modifySlot]
    split
    · simp only [viewOf, Option.map_eq_none_iff] at hnone ⊢
      exact hnone
    · exact hnone
  · rw [viewOf_modifySlot] at hj
    split at hj
    · next hj' =>
      obtain ⟨s, hs, hx⟩ := Option.map_eq_some_iff.1 hj
      rw [hj'] at hs
      have hrole : (g s).job.role = r := congrArg Prod.fst hx
      rw [← hrole]
      exact hg s (hid s hs)
    · exact h.jobs.uncancelled j r f hj
  · obtain ⟨f, c, hv⟩ := h.jobs.armed o j hj
    obtain ⟨s, hs, -⟩ := Option.map_eq_some_iff.1 hv
    rw [viewOf_modifySlot]
    split
    · next hj' =>
      rw [hj'] at hs ⊢
      refine ⟨(g s).finished, (g s).cancelled, ?_⟩
      rw [hs]
      simp only [Option.map_some, JobSlot.view, hg s (hid s hs)]
    · exact ⟨f, c, hv⟩

theorem SingleFlight.finishTimer (h : SingleFlight w) {id : Nat}
    (hid : ∀ s, w.slot id = some s → s.job.role = .timer) (panic : Option String) :
    SingleFlight (w.finish id panic) ∧ ∀ q, Keeps w (w.finish id panic) q := by
  obtain ⟨h₁, hk⟩ : SingleFlight (w.modifySlot id fun s => { s with finished := some panic }) ∧
      ∀ q, Keeps w (w.modifySlot id fun s => { s with finished := some panic }) q :=
    h.modifyTimer hid fun _ hs => hs
  exact ⟨h₁.of_quiet (finish_quiet w id panic),
    fun q => (hk q).trans ((finish_quiet w id panic).keeps q)⟩

/-- Arming a timer keeps passes in single flight, touches timers only, and keeps the jobs
already there. -/
theorem schedule_moves (h : SingleFlight w) (o : TimerOwner) (delay : Time.Duration) :
    SingleFlight (w.schedule o delay).2 ∧ (∀ q, Keeps w (w.schedule o delay).2 q) ∧
      ∀ j, j < w.nextJob → (w.schedule o delay).2.viewOf j = w.viewOf j := by
  by_cases hs : (w.debounce o).scheduled = true
  · have he : (w.schedule o delay).2 = w := by simp [schedule, Debounce.schedule, hs]
    rw [he]
    exact ⟨h, Keeps.refl w, fun _ _ => rfl⟩
  · simp only [schedule, Debounce.schedule, hs, Bool.false_eq_true, ↓reduceIte]
    set t : Debounce := ⟨(w.debounce o).generation + 1, some w.nextJob⟩
    set w₁ := w.setDebounce o t
    have hq₂ := spawn_quiet w₁ (.timer o t.generation delay false)
    have hfree : w₁.viewOf w₁.nextJob = none := by
      rw [viewOf_setDebounce, nextJob_setDebounce]
      exact h.jobs.fresh _ le_rfl
    have hv : ∀ j, (w₁.spawn (.timer o t.generation delay false)).2.viewOf j =
        if j = w.nextJob then some (.timer, none, false) else w.viewOf j := fun j => by
      rw [viewOf_spawn _ _ hfree, nextJob_setDebounce, viewOf_setDebounce]
      rfl
    have hn : (w₁.spawn (.timer o t.generation delay false)).2.nextJob = w.nextJob + 1 := by
      rw [hq₂.nextJob]
      exact congrArg (· + 1) (nextJob_setDebounce w o t)
    have hd : ∀ o', (w₁.spawn (.timer o t.generation delay false)).2.debounce o' =
        w₁.debounce o' := hq₂.debounce
    have hr : Retimed w (w₁.spawn (.timer o t.generation delay false)).2 := by
      refine ⟨fun q => (hq₂.flights q).trans (flight_setDebounce w o t q), fun j x hx => ?_⟩
      rw [hv]
      split
      · next hj =>
        rw [hj, h.jobs.fresh _ le_rfl]
        exact ⟨fun he => absurd (congrArg Prod.fst (Option.some.inj he)).symm hx,
          fun he => by cases he⟩
      · exact Iff.rfl
    refine ⟨h.retimed hr (fun j hj => ?_) (fun j r f hj => ?_) (fun o' j hj => ?_), hr.keeps,
      fun j hj => ?_⟩
    · rw [hn] at hj
      rw [hv, if_neg (by omega)]
      exact h.jobs.fresh j (by omega)
    · rw [hv] at hj
      split at hj
      · cases hj
      · exact h.jobs.uncancelled j r f hj
    · rw [hd] at hj
      rw [hv]
      rcases debounce_setDebounce w o t o' with he | he <;> rw [he] at hj
      · obtain ⟨f, c, hj'⟩ := h.jobs.armed o' j hj
        rw [if_neg (Nat.ne_of_lt (h.jobs.lt_nextJob hj'))]
        exact ⟨f, c, hj'⟩
      · obtain rfl : w.nextJob = j := Option.some.inj hj
        exact ⟨none, false, if_pos rfl⟩
    · rw [hv, if_neg (Nat.ne_of_lt hj)]

theorem SingleFlight.abort (h : SingleFlight w) {id : Nat}
    (hid : ∀ s, w.slot id = some s → s.job.role = .timer) :
    SingleFlight (w.abort id) ∧ (∀ q, Keeps w (w.abort id) q) ∧ KeepsEnded w (w.abort id) := by
  unfold World.abort
  split
  · rename_i s hs
    split
    · exact ⟨h, Keeps.refl w, fun _ _ _ _ hj => hj⟩
    · rename_i hf
      obtain ⟨h₁, hk⟩ : SingleFlight (w.modifySlot id fun s => { s with cancelled := true }) ∧
          ∀ q, Keeps w (w.modifySlot id fun s => { s with cancelled := true }) q :=
        h.modifyTimer hid fun _ hs => hs
      -- the job cancelled has not ended, so every job that has is another
      have he : KeepsEnded w (w.modifySlot id fun s => { s with cancelled := true }) := by
        intro j r f c hj
        have hji : j ≠ id := by
          rintro rfl
          rw [viewOf_of_slot hs] at hj
          have hfin : s.finished = some f := congrArg (fun x => x.2.1) (Option.some.inj hj)
          rw [hfin] at hf
          exact hf rfl
        rw [viewOf_modifySlot, if_neg hji]
        exact hj
      exact ⟨h₁.of_quiet (wake_quiet _ id), fun q => (hk q).trans ((wake_quiet _ id).keeps q),
        he.trans (wake_quiet _ id).keepsEnded⟩
  · exact ⟨h, Keeps.refl w, fun _ _ _ _ hj => hj⟩

theorem cancelTimer_moves (h : SingleFlight w) (o : TimerOwner) :
    SingleFlight (w.cancelTimer o).2 ∧ (∀ q, Keeps w (w.cancelTimer o).2 q) ∧
      KeepsEnded w (w.cancelTimer o).2 := by
  obtain ⟨h₁, hk₁⟩ := h.setDebounce o (w.debounce o).cancel.2 fun j hj => by cases hj
  have he₁ : KeepsEnded w (w.setDebounce o (w.debounce o).cancel.2) :=
    fun j _ _ _ hj => (viewOf_setDebounce _ _ _ j).trans hj
  unfold cancelTimer Debounce.cancel
  dsimp only
  cases hp : (w.debounce o).pending with
  | none => exact ⟨h₁, hk₁, he₁⟩
  | some job =>
    obtain ⟨f, c, hv⟩ := h.jobs.armed o job hp
    obtain ⟨h₂, hk₂, he₂⟩ :=
      h₁.abort (role_of_viewOf ((viewOf_setDebounce w o (w.debounce o).cancel.2 job).trans hv))
    exact ⟨h₂, fun q => (hk₁ q).trans (hk₂ q), he₁.trans he₂⟩

/-- A timer that fires sets its timer, to no firing pending or as it was, and may then request a
pass. -/
theorem fireTimer_cases (w : World) (o : TimerOwner) (g : Nat) :
    w.fireTimer o g = w ∨ ∃ t : Debounce, (t.pending = none ∨ t.pending = (w.debounce o).pending) ∧
      (Quiet (w.setDebounce o t) (w.fireTimer o g) ∨
        ∃ q, w.fireTimer o g = (w.setDebounce o t).trigger q .nothing) := by
  cases o with
  | queue q =>
    cases hi : w.inst q with
    | none => exact .inl (by simp only [fireTimer, hi])
    | some i =>
      refine .inr ⟨(i.timer.wake g).2, ?_, ?_⟩
      · simp only [Debounce.wake, debounce, hi]
        split <;> simp
      · simp only [fireTimer, hi]
        by_cases hf : (i.timer.wake g).1 = true
        · rw [if_pos hf]
          exact .inr ⟨q, rfl⟩
        · rw [if_neg hf]
          exact .inl (Quiet.refl _)
  | probe l =>
    refine .inr ⟨(w.probe.wake g).2, ?_, .inl ?_⟩
    · simp only [Debounce.wake, debounce]
      split <;> simp
    · simp only [fireTimer]
      split <;> exact quiet_of_eq rfl rfl rfl rfl

theorem Moved.keeps {w₀ w₁ w₂ w₃ : World} {d : Option Deed} (h₁ : ∀ q, Keeps w₀ w₁ q)
    (h : Moved w₁ w₂ d) (h₂ : ∀ q, Keeps w₂ w₃ q) (hd : ∀ q cbs p, d ≠ some (.handed q cbs p)) :
    Moved w₀ w₃ d := by
  have hu : ∀ q, Unmoved w₁ w₂ q → Unmoved w₀ w₃ q := fun q ⟨hw, ho⟩ =>
    ⟨((h₂ q).waitingOf_eq.trans hw).trans (h₁ q).waitingOf_eq,
      fun p => ((h₂ q).passOpen_iff.trans (ho p)).trans (h₁ q).passOpen_iff⟩
  cases h with
  | stays hs => exact .stays fun q => hu q (hs q)
  | asked q cb p hw ho hj hot =>
    refine .asked q cb p ?_ (fun p' => (h₂ q).passOpen_iff.trans (ho p'))
      (fun p' hp' => hj p' ((h₁ q).passOpen_iff.2 hp')) fun q' hq' => hu q' (hot q' hq')
    rw [(h₂ q).waitingOf_eq, hw, (h₁ q).waitingOf_eq]
  | handed q p j w' hq hl hp he hw hc hot => exact absurd rfl (hd q _ p)

/-- A timer that fires keeps passes in single flight, and requests a pass if it belongs to an
instance that still waits for it. -/
theorem fireTimer_moves (h : SingleFlight w) (o : TimerOwner) (g : Nat) :
    SingleFlight (w.fireTimer o g) ∧
      (Moved w (w.fireTimer o g) none ∨ ∃ q p, Moved w (w.fireTimer o g) (some (.asked q .nothing p))) ∧
      ∀ j, j < w.nextJob → (w.fireTimer o g).viewOf j = w.viewOf j := by
  rcases fireTimer_cases w o g with he | ⟨t, ht, hq | ⟨q, he⟩⟩
  · rw [he]
    exact ⟨h, .inl (.of_keeps (Keeps.refl w)), fun _ _ => rfl⟩
  all_goals
    have hp : ∀ j, t.pending = some j → ∃ f c, w.viewOf j = some (.timer, f, c) := by
      intro j hj
      rcases ht with ht | ht <;> rw [ht] at hj
      · cases hj
      · exact h.jobs.armed o j hj
    obtain ⟨h₁, hk₁⟩ := h.setDebounce o t hp
  · exact ⟨h₁.of_quiet hq, .inl (.of_keeps fun q => (hk₁ q).trans (hq.keeps q)),
      fun j _ => (hq.views j).trans (viewOf_setDebounce w o t j)⟩
  · obtain ⟨h₂, hm, hv⟩ := trigger_moves h₁ q .nothing
    rw [he]
    refine ⟨h₂, ?_, fun j hj =>
      (hv j ((nextJob_setDebounce w o t).symm ▸ hj)).trans (viewOf_setDebounce w o t j)⟩
    rcases hm with hm | ⟨p, hm⟩
    · exact .inl (hm.keeps hk₁ (Keeps.refl _) fun _ _ _ h' => by cases h')
    · exact .inr ⟨q, p, hm.keeps hk₁ (Keeps.refl _) fun _ _ _ h' => by cases h'⟩

end World

end Outbox.Scenario
