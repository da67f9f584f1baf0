import Mathlib
import Outbox.Scenario.Queue

/-!
One pass in flight per outbox, whatever the order in which the agenda gives its jobs their
turns.

An outbox starts a pass only when its flight says that none is running, together with a watcher
that ends the pass for it if it panics. A pass is in progress (`World.PassOpen`) from then until
its own last turn ends it, or, after a panic, until its watcher does. `World.SingleFlight` holds
in every world reached by any interleaving of requests, turns, rests, timers and steps that only
touch the store (`Event`): each outbox has at most one pass in progress, its flight is running
exactly while one is, and no callback waits while none is. A request joins the pass in progress
or starts one; a completion hands every waiting callback back at once, as the pass's last act or
its watcher's, when the pass has ended.
-/

set_option autoImplicit false

namespace Outbox.Scenario

open Outbox.Queue

/-- What a job is to the flight of passes: a pass of an instance, the watcher of a pass, or a
timer. -/
inductive Role where
  | pass (q : Nat)
  | watch (q target : Nat)
  | timer
  deriving DecidableEq

def Job.role : Job → Role
  | .pass q _ => .pass q
  | .watch q target => .watch q target
  | .timer .. => .timer

def Role.outbox : Role → Option Nat
  | .pass q => some q
  | .watch q _ => some q
  | .timer => none

/-- What the flight of passes reads of a job: its role, whether and how it ended, and whether it
was cancelled. -/
def JobSlot.view (s : JobSlot) : Role × Option (Option String) × Bool :=
  (s.job.role, s.finished, s.cancelled)

theorem lookup_cons_nat {β : Type} (k j : Nat) (b : β) (l : List (Nat × β)) :
    ((k, b) :: l).lookup j = if j = k then some b else l.lookup j := by
  by_cases hj : j = k
  · simp [hj]
  · simp [List.lookup_cons, hj, beq_eq_false_iff_ne.2 hj]

theorem lookup_modify {β : Type} (l : List (Nat × β)) (id j : Nat) (f : β → β) :
    (l.map fun p => if p.1 = id then (p.1, f p.2) else p).lookup j =
      if j = id then (l.lookup j).map f else l.lookup j := by
  induction l with
  | nil => simp
  | cons p l ih =>
    obtain ⟨k, b⟩ := p
    simp only [List.map_cons]
    by_cases hk : k = id
    · subst hk
      by_cases hj : j = k <;> simp [lookup_cons_nat, hj, ih]
    · by_cases hj : j = k
      · subst hj
        simp [hk]
      · simp [lookup_cons_nat, hk, hj, ih]

namespace World

variable {w w' : World}

theorem slot_modifySlot (w : World) (id : Nat) (f : JobSlot → JobSlot) (j : Nat) :
    (w.modifySlot id f).slot j = if j = id then (w.slot j).map f else w.slot j :=
  lookup_modify w.jobs id j f

def viewOf (w : World) (j : Nat) : Option (Role × Option (Option String) × Bool) :=
  (w.slot j).map JobSlot.view

theorem inst_modifyInst (w : World) (q : Nat) (f : Instance → Instance) (q' : Nat) :
    (w.modifyInst q f).inst q' = if q = q' then (w.inst q').map f else w.inst q' := by
  simp only [inst, modifyInst, List.getElem?_modify]
  by_cases h : q = q' <;> cases w.instances[q']? <;> simp [h]

theorem length_of_flights
    (h : ∀ q, (w'.inst q).map (·.flight) = (w.inst q).map (·.flight)) :
    w'.instances.length = w.instances.length := by
  have hlt : ∀ q, q < w'.instances.length ↔ q < w.instances.length := fun q => by
    have := congrArg (fun o => o.isSome = true) (h q)
    simpa [inst] using this
  rcases Nat.lt_trichotomy w'.instances.length w.instances.length with hl | hl | hl
  · exact absurd ((hlt _).2 hl) (Nat.lt_irrefl _)
  · exact hl
  · exact absurd ((hlt _).1 hl) (Nat.lt_irrefl _)

theorem inst_of_flight {q : Nat} {i' : Instance}
    (h : (w'.inst q).map (·.flight) = (w.inst q).map (·.flight)) (hi : w'.inst q = some i') :
    ∃ i, w.inst q = some i ∧ i.flight = i'.flight := by
  rw [hi] at h
  cases hw : w.inst q with
  | none => simp [hw] at h
  | some i =>
    rw [hw] at h
    exact ⟨i, rfl, (Option.some.inj h).symm⟩

/-- `w'` keeps all that the flight of passes reads: the instances' flights and timers, the
probe's timer, the next job id, and the view of every job. -/
structure Quiet (w w' : World) : Prop where
  flights : ∀ q, (w'.inst q).map (·.flight) = (w.inst q).map (·.flight)
  timers : ∀ q, (w'.inst q).map (·.timer) = (w.inst q).map (·.timer)
  probe : w'.probe = w.probe
  nextJob : w'.nextJob = w.nextJob
  views : ∀ j, w'.viewOf j = w.viewOf j

namespace Quiet

variable {w₁ w₂ w₃ : World}

theorem refl (w : World) : Quiet w w := ⟨fun _ => rfl, fun _ => rfl, rfl, rfl, fun _ => rfl⟩

theorem trans (h₁ : Quiet w₁ w₂) (h₂ : Quiet w₂ w₃) : Quiet w₁ w₃ :=
  ⟨fun q => (h₂.flights q).trans (h₁.flights q), fun q => (h₂.timers q).trans (h₁.timers q),
    h₂.probe.trans h₁.probe, h₂.nextJob.trans h₁.nextJob, fun j => (h₂.views j).trans (h₁.views j)⟩

theorem length (h : Quiet w₁ w₂) : w₂.instances.length = w₁.instances.length :=
  length_of_flights h.flights

theorem debounce (h : Quiet w₁ w₂) (o : TimerOwner) : w₂.debounce o = w₁.debounce o := by
  cases o with
  | queue q => simp only [World.debounce, h.timers q]
  | probe l => simp only [World.debounce, h.probe]

end Quiet

theorem quiet_of_eq (hj : w'.jobs = w.jobs) (hi : w'.instances = w.instances)
    (hp : w'.probe = w.probe) (hn : w'.nextJob = w.nextJob) : Quiet w w' := by
  refine ⟨fun q => ?_, fun q => ?_, hp, hn, fun j => ?_⟩
  · simp only [inst, hi]
  · simp only [inst, hi]
  · simp only [viewOf, slot, hj]

theorem viewOf_modifySlot (w : World) (id : Nat) (f : JobSlot → JobSlot) (j : Nat) :
    (w.modifySlot id f).viewOf j =
      if j = id then (w.slot j).map fun s => (f s).view else w.viewOf j := by
  simp only [viewOf, slot_modifySlot]
  split <;> simp [Option.map_map, Function.comp_def]

theorem modifySlot_quiet {id : Nat} {f : JobSlot → JobSlot}
    (h : ∀ s, w.slot id = some s → (f s).view = s.view) : Quiet w (w.modifySlot id f) := by
  refine ⟨fun q => rfl, fun q => rfl, rfl, rfl, fun j => ?_⟩
  rw [viewOf_modifySlot]
  split
  · next hj =>
    subst hj
    cases hs : w.slot j with
    | none => simp [viewOf, hs]
    | some s => simp [viewOf, hs, h s hs]
  · rfl

theorem modifyInst_quiet {q : Nat} {f : Instance → Instance}
    (h : ∀ i, (f i).flight = i.flight ∧ (f i).timer = i.timer) : Quiet w (w.modifyInst q f) := by
  refine ⟨fun q' => ?_, fun q' => ?_, rfl, rfl, fun j => rfl⟩
  · rw [inst_modifyInst]
    split <;> cases w.inst q' <;> simp [h]
  · rw [inst_modifyInst]
    split <;> cases w.inst q' <;> simp [h]

theorem enqueue_quiet (w : World) (id : Nat) : Quiet w (w.enqueue id) := by
  unfold enqueue
  split <;> exact quiet_of_eq rfl rfl rfl rfl

theorem wake_quiet (w : World) (id : Nat) : Quiet w (w.wake id) := by
  unfold wake
  split
  · split
    · exact Quiet.refl w
    · have h₁ : Quiet w (w.modifySlot id fun s => { s with queued := true }) :=
        modifySlot_quiet fun s _ => rfl
      exact h₁.trans (enqueue_quiet _ id)
  · exact Quiet.refl w

theorem wakeMain_quiet (w : World) : Quiet w w.wakeMain := quiet_of_eq rfl rfl rfl rfl

theorem defer_quiet (w : World) (waker : Waker) : Quiet w (w.defer waker) := by
  unfold defer
  split
  · split
    · exact Quiet.refl w
    · exact quiet_of_eq rfl rfl rfl rfl
  · exact quiet_of_eq rfl rfl rfl rfl

theorem call_quiet (w : World) (cbs : List Callback) : Quiet w (w.call cbs) := by
  induction cbs generalizing w with
  | nil => exact Quiet.refl w
  | cons cb rest ih =>
    cases cb with
    | nothing => exact ih w
    | label i =>
      refine Quiet.trans ?_ (ih _)
      exact quiet_of_eq rfl rfl rfl rfl
    | signal =>
      refine Quiet.trans ?_ (ih _)
      exact quiet_of_eq rfl rfl rfl rfl

theorem settle_quiet (w : World) (q : Nat) (e : Task.Entry) (r : Task.Record)
    (o : Except RunFailure Unit) : Quiet w (w.settle q e r o).1 := by
  unfold settle
  split
  · exact Quiet.refl w
  · next i _ =>
    generalize Pass.settle i.shelf w.depot e r o = t
    obtain ⟨st, sh, d⟩ := t
    refine Quiet.trans ?_ (modifyInst_quiet fun _ => ⟨rfl, rfl⟩)
    exact quiet_of_eq rfl rfl rfl rfl

theorem pollSleep_quiet (w : World) (id deadline : Nat) (registered : Bool) :
    Quiet w (w.pollSleep id deadline registered).2 := by
  unfold pollSleep
  split
  · exact defer_quiet w _
  · split
    · split
      · exact Quiet.refl w
      · exact quiet_of_eq rfl rfl rfl rfl
    · split
      · exact quiet_of_eq rfl rfl rfl rfl
      · exact quiet_of_eq rfl rfl rfl rfl

def Watched (w : World) (q p : Nat) : Prop :=
  ∃ v c, w.viewOf v = some (.watch q p, none, c)

/-- Pass `p` of instance `q` is in progress: its job has not ended, or it panicked and its
watcher has not ended it yet. -/
def PassOpen (w : World) (q p : Nat) : Prop :=
  (∃ c, w.viewOf p = some (.pass q, none, c)) ∨
    (∃ m c, w.viewOf p = some (.pass q, some (some m), c)) ∧ w.Watched q p

/-- The callbacks waiting on the flight of instance `q`: none if there is no such instance. -/
def waitingOf (w : World) (q : Nat) : List Callback :=
  ((w.inst q).map (·.flight.waiting)).getD []

theorem waitingOf_congr {q : Nat}
    (h : (w'.inst q).map (·.flight) = (w.inst q).map (·.flight)) :
    w'.waitingOf q = w.waitingOf q := by
  have hm : ∀ v : World,
      (v.inst q).map (·.flight.waiting) = ((v.inst q).map (·.flight)).map (·.waiting) :=
    fun v => by cases v.inst q <;> rfl
  simp only [waitingOf, hm, h]

/-- The jobs are sound for the flight of passes: job ids at and past the next are free; passes
belong to existing instances; only timers are cancelled, and an armed timer names a timer job;
every pass that has not ended is watched, each watcher watches a pass of its instance, and no
pass has two watchers. -/
structure JobsSound (w : World) : Prop where
  fresh : ∀ j, w.nextJob ≤ j → w.viewOf j = none
  known : ∀ j q f c, w.viewOf j = some (.pass q, f, c) → q < w.instances.length
  uncancelled : ∀ j r f, w.viewOf j = some (r, f, true) → r = .timer
  armed : ∀ o j, (w.debounce o).pending = some j → ∃ f c, w.viewOf j = some (.timer, f, c)
  watched : ∀ q p c, w.viewOf p = some (.pass q, none, c) → w.Watched q p
  target : ∀ v q p f c, w.viewOf v = some (.watch q p, f, c) →
    ∃ f' c', w.viewOf p = some (.pass q, f', c')
  oneWatcher : ∀ v v' q p f f' c c', w.viewOf v = some (.watch q p, f, c) →
    w.viewOf v' = some (.watch q p, f', c') → v = v'

/-- Instance `q` flies its passes singly: its flight runs exactly while one of its passes is in
progress, and then only one is; callbacks wait on it exactly while it runs. -/
structure Flies (w : World) (q : Nat) : Prop where
  held : ∀ i, w.inst q = some i → (i.flight.running = true ↔ ∃ p, w.PassOpen q p)
  single : ∀ p p', w.PassOpen q p → w.PassOpen q p' → p = p'
  idle : ∀ i, w.inst q = some i → (i.flight.running = false ↔ i.flight.waiting = [])

/-- Passes fly singly: the jobs are sound, and every instance flies its passes singly. -/
structure SingleFlight (w : World) : Prop where
  jobs : JobsSound w
  flies : ∀ q, Flies w q

/-- `w'` keeps what the flight of instance `q` reads: the flight, and the view of each of its
passes and watchers. -/
structure Keeps (w w' : World) (q : Nat) : Prop where
  flight : (w'.inst q).map (·.flight) = (w.inst q).map (·.flight)
  views : ∀ j x, x.1.outbox = some q → (w'.viewOf j = some x ↔ w.viewOf j = some x)

namespace Keeps

variable {q : Nat}

theorem watched_iff {p : Nat} (h : Keeps w w' q) : w'.Watched q p ↔ w.Watched q p := by
  simp only [Watched]
  exact exists_congr fun v => exists_congr fun c => h.views v _ rfl

theorem passOpen_iff {p : Nat} (h : Keeps w w' q) : w'.PassOpen q p ↔ w.PassOpen q p := by
  have hv : ∀ f c, w'.viewOf p = some (.pass q, f, c) ↔ w.viewOf p = some (.pass q, f, c) :=
    fun f c => h.views p _ rfl
  simp only [PassOpen, hv, h.watched_iff]

theorem waitingOf_eq (h : Keeps w w' q) : w'.waitingOf q = w.waitingOf q :=
  waitingOf_congr h.flight

theorem flies (h : Keeps w w' q) (hf : Flies w q) : Flies w' q where
  held i hi := by
    obtain ⟨i₀, hi₀, hfl⟩ := inst_of_flight h.flight hi
    rw [← hfl, hf.held i₀ hi₀]
    simp only [h.passOpen_iff]
  single p p' hp hp' := hf.single p p' (h.passOpen_iff.1 hp) (h.passOpen_iff.1 hp')
  idle i hi := by
    obtain ⟨i₀, hi₀, hfl⟩ := inst_of_flight h.flight hi
    rw [← hfl]
    exact hf.idle i₀ hi₀

end Keeps

theorem Quiet.keeps (h : Quiet w w') (q : Nat) : Keeps w w' q :=
  ⟨h.flights q, fun j x _ => by rw [h.views j]⟩

theorem JobsSound.of_quiet (h : JobsSound w) (hq : Quiet w w') : JobsSound w' where
  fresh j hj := (hq.views j).trans (h.fresh j (hq.nextJob ▸ hj))
  known j q f c hj := hq.length ▸ h.known j q f c ((hq.views j).symm.trans hj)
  uncancelled j r f hj := h.uncancelled j r f ((hq.views j).symm.trans hj)
  armed o j hj := by
    obtain ⟨f, c, hv⟩ := h.armed o j (hq.debounce o ▸ hj)
    exact ⟨f, c, (hq.views j).trans hv⟩
  watched q p c hp := (hq.keeps q).watched_iff.2 (h.watched q p c ((hq.views p).symm.trans hp))
  target v q p f c hv := by
    obtain ⟨f', c', hp⟩ := h.target v q p f c ((hq.views v).symm.trans hv)
    exact ⟨f', c', (hq.views p).trans hp⟩
  oneWatcher v v' q p f f' c c' hv hv' :=
    h.oneWatcher v v' q p f f' c c' ((hq.views v).symm.trans hv) ((hq.views v').symm.trans hv')

theorem SingleFlight.of_quiet (h : SingleFlight w) (hq : Quiet w w') : SingleFlight w' :=
  ⟨h.jobs.of_quiet hq, fun q => (hq.keeps q).flies (h.flies q)⟩

/-- `w'` differs from `w` in timers only: it keeps every flight, and every view of a pass or a
watcher. -/
structure Retimed (w w' : World) : Prop where
  flights : ∀ q, (w'.inst q).map (·.flight) = (w.inst q).map (·.flight)
  views : ∀ j x, x.1 ≠ .timer → (w'.viewOf j = some x ↔ w.viewOf j = some x)

theorem Retimed.keeps (h : Retimed w w') (q : Nat) : Keeps w w' q :=
  ⟨h.flights q, fun j x hx => h.views j x fun ht => by rw [ht] at hx; cases hx⟩

theorem SingleFlight.retimed (h : SingleFlight w) (hr : Retimed w w')
    (fresh : ∀ j, w'.nextJob ≤ j → w'.viewOf j = none)
    (uncancelled : ∀ j r f, w'.viewOf j = some (r, f, true) → r = .timer)
    (armed : ∀ o j, (w'.debounce o).pending = some j → ∃ f c, w'.viewOf j = some (.timer, f, c)) :
    SingleFlight w' := by
  have hp : ∀ j q f c, w'.viewOf j = some (.pass q, f, c) ↔ w.viewOf j = some (.pass q, f, c) :=
    fun j q f c => hr.views j _ fun h => by cases h
  have hw : ∀ j q p f c,
      w'.viewOf j = some (.watch q p, f, c) ↔ w.viewOf j = some (.watch q p, f, c) :=
    fun j q p f c => hr.views j _ fun h => by cases h
  refine ⟨⟨fresh, fun j q f c hj => ?_, uncancelled, armed, fun q p c hj => ?_,
    fun v q p f c hv => ?_, fun v v' q p f f' c c' hv hv' => ?_⟩,
    fun q => (hr.keeps q).flies (h.flies q)⟩
  · rw [length_of_flights hr.flights]
    exact h.jobs.known j q f c ((hp j q f c).1 hj)
  · exact (hr.keeps q).watched_iff.2 (h.jobs.watched q p c ((hp p q none c).1 hj))
  · obtain ⟨f', c', hj⟩ := h.jobs.target v q p f c ((hw v q p f c).1 hv)
    exact ⟨f', c', (hp p q f' c').2 hj⟩
  · exact h.jobs.oneWatcher v v' q p f f' c c' ((hw v q p f c).1 hv) ((hw v' q p f' c').1 hv')

/-! ### The steps of a pass within one turn -/

/-- The changes a pass of `q`, run as job `id`, makes to the world before its turn ends: it
chooses a task, logs a run or a request, keeps its client's state, settles an outcome, or wakes
from a sleep that is over. -/
inductive PassMove (q id : Nat) : World → World → Prop
  | choose (w : World) (d : Depot) (sel : Selection) (sh : Shelf) :
    PassMove q id w ({ w with depot := d }.modifyInst q fun i => { i with selection := sel, shelf := sh })
  | ran (w : World) (record : Task.Record) :
    PassMove q id w { w with runLog := w.runLog ++ [Logged.ran record] }
  | client (w : World) (c : Http.Client) :
    PassMove q id w (w.modifyInst q fun i => { i with client := c })
  | sent (w : World) (t : Transport) (req : Http.Request) :
    PassMove q id w { w with transport := t, runLog := w.runLog ++ [Logged.sent req] }
  | settle (w : World) (next : Task.Entry) (record : Task.Record) (o : Except RunFailure Unit) :
    PassMove q id w (w.settle q next record o).1
  | wake (w w' : World) (deadline : Nat) (registered : Bool) :
    w.pollSleep id deadline registered = (.over, w') → PassMove q id w w'

/-- The ways a turn of a pass ends in `r` from the world `w` its own steps led to: it completes
its instance's flight, finds its instance gone, panics, runs out of steps and puts itself aside,
or waits in a sleep. -/
inductive PassExit (q id : Nat) (w : World) : World × Poll → Prop
  | complete : PassExit q id w (w.completePass q, .ready)
  | gone : w.inst q = none → PassExit q id w (w, .ready)
  | panicked (m : String) : PassExit q id w (w, .panicked m)
  | spent (ph : Phase) :
    PassExit q id w ((w.defer (.job id)).modifySlot id fun s => { s with job := .pass q ph }, .pending)
  | asleep (deadline : Nat) (registered : Bool) (slept : Slept) (w' : World) (ph : Phase) :
    w.pollSleep id deadline registered = (slept, w') → slept ≠ .over →
    PassExit q id w (w'.modifySlot id fun s => { s with job := .pass q ph }, .pending)

/-- A turn of a pass of `q` from `w` that ends in `r`: steps of its own, then a way out. -/
def PassRun (q id : Nat) (w : World) (r : World × Poll) : Prop :=
  ∃ w₁, Relation.ReflTransGen (PassMove q id) w w₁ ∧ PassExit q id w₁ r

theorem PassRun.of_moves {q id : Nat} {w₁ : World} {r : World × Poll}
    (h : Relation.ReflTransGen (PassMove q id) w w₁) (hr : PassRun q id w₁ r) : PassRun q id w r :=
  let ⟨w₂, h₂, he⟩ := hr
  ⟨w₂, h.trans h₂, he⟩

/-- Every turn of a pass is a run of its own steps and a way out. The induction follows the fuel,
and the cases the pass's phases. -/
theorem passLoop_run (fuel : Nat) (w : World) (q id : Nat) (phase : Phase) :
    PassRun q id w (World.passLoop fuel w q id phase) := by
  induction fuel generalizing w phase with
  | zero => exact ⟨w, .refl, .spent phase⟩
  | succ fuel ih =>
    have step : ∀ w₂ ph, Relation.ReflTransGen (PassMove q id) w w₂ →
        PassRun q id w (World.passLoop fuel w₂ q id ph) :=
      fun w₂ ph h₂ => (ih w₂ ph).of_moves h₂
    -- after settling an outcome the pass completes when it stops, or goes on choosing
    have settled : ∀ w₂, Relation.ReflTransGen (PassMove q id) w w₂ → ∀ next record o,
        PassRun q id w ((w₂.settle q next record o).1.completePass q, .ready) ∧
          ∀ st, PassRun q id w (World.passLoop fuel (w₂.settle q next record o).1 q id (.choose st)) :=
      fun w₂ h₂ next record o =>
        have h₃ := h₂.tail (.settle w₂ next record o)
        ⟨⟨_, h₃, .complete⟩, fun _ => step _ _ h₃⟩
    cases hi : w.inst q with
    | none =>
      simp only [World.passLoop, hi]
      exact ⟨w, .refl, .gone hi⟩
    | some i =>
    simp only [World.passLoop, hi]
    cases phase with
    | choose st =>
      dsimp only
      generalize Pass.advance i.selection i.shelf w.depot st = t
      obtain ⟨next?, sel, sh, d⟩ := t
      dsimp only
      have h₂ : Relation.ReflTransGen (PassMove q id) w
          ({ w with depot := d }.modifyInst q fun i => { i with selection := sel, shelf := sh }) :=
        .single (.choose w d sel sh)
      generalize ({ w with depot := d }.modifyInst q
        fun i => { i with selection := sel, shelf := sh }) = w₂ at h₂ ⊢
      cases next? with
      | stop => exact ⟨w₂, h₂, .complete⟩
      | run next record =>
        dsimp only
        split
        · split
          · exact step _ _ h₂
          · exact step _ _ h₂
        · split
          · split
            · exact (settled w₂ h₂ next record _).1
            · exact (settled w₂ h₂ next record _).2 _
          · exact step _ _ h₂
    | answer st next record =>
      dsimp only
      have h₂ : Relation.ReflTransGen (PassMove q id) w
          { w with runLog := w.runLog ++ [Logged.ran record] } :=
        .single (.ran w record)
      generalize ({ w with runLog := w.runLog ++ [Logged.ran record] } : World) = w₂ at h₂ ⊢
      split
      · exact ⟨w₂, h₂, .panicked _⟩
      all_goals
        split
        · exact (settled w₂ h₂ next record _).1
        · exact (settled w₂ h₂ next record _).2 _
    | round st next record req retries =>
      dsimp only
      generalize i.client.checkPaused w.depot.clock = t
      obtain ⟨paused, client⟩ := t
      dsimp only
      have h₂ : Relation.ReflTransGen (PassMove q id) w
          (w.modifyInst q fun i => { i with client := client }) :=
        .single (.client w client)
      generalize w.modifyInst q (fun i => { i with client := client }) = w₂ at h₂ ⊢
      split
      · split
        · exact (settled w₂ h₂ next record _).1
        · exact (settled w₂ h₂ next record _).2 _
      generalize w₂.transport.answer = t
      obtain ⟨answer, transport⟩ := t
      dsimp only
      let w₃ : World := { w₂ with transport, runLog := w₂.runLog ++ [Logged.sent req] }
      have h₃ : Relation.ReflTransGen (PassMove q id) w w₃ := h₂.tail (.sent w₂ transport req)
      generalize client.decide w₂.depot.clock retries answer = t
      obtain ⟨attempt, client⟩ := t
      dsimp only
      have h₄ : Relation.ReflTransGen (PassMove q id) w
          (w₃.modifyInst q fun i => { i with client := client }) :=
        h₃.tail (.client w₃ client)
      generalize w₃.modifyInst q (fun i => { i with client := client }) = w₄ at h₄ ⊢
      cases attempt with
      | finished o =>
        cases o <;> dsimp only
        all_goals
          split
          · exact (settled w₄ h₄ next record _).1
          · exact (settled w₄ h₄ next record _).2 _
      | panicked m => exact ⟨w₄, h₄, .panicked m⟩
      | retryAfter d r => exact step _ _ h₄
    | sleep deadline registered after =>
      dsimp only
      generalize hs : w.pollSleep id deadline registered = t
      obtain ⟨slept, w₂⟩ := t
      cases slept
      · exact step _ _ (.single (.wake w w₂ deadline registered hs))
      · exact ⟨w, .refl, .asleep deadline registered _ w₂ _ hs fun h => by cases h⟩
      · exact ⟨w, .refl, .asleep deadline registered _ w₂ _ hs fun h => by cases h⟩

/-! ### Turns of a pass and the flight -/

theorem PassMove.quiet {q id : Nat} (h : PassMove q id w w') : Quiet w w' := by
  cases h with
  | choose d sel sh =>
    refine Quiet.trans ?_ (modifyInst_quiet fun _ => ⟨rfl, rfl⟩)
    exact quiet_of_eq rfl rfl rfl rfl
  | ran record => exact quiet_of_eq rfl rfl rfl rfl
  | client c => exact modifyInst_quiet fun _ => ⟨rfl, rfl⟩
  | sent t req => exact quiet_of_eq rfl rfl rfl rfl
  | settle next record o => exact settle_quiet w q next record o
  | wake _ deadline registered hs =>
    have h := pollSleep_quiet w id deadline registered
    rw [hs] at h
    exact h

theorem quiet_of_moves {q id : Nat} (h : Relation.ReflTransGen (PassMove q id) w w') :
    Quiet w w' := by
  induction h with
  | refl => exact .refl w
  | tail _ hm ih => exact ih.trans hm.quiet

/-- How a turn of a pass of instance `q` leaves the world, as the flight of passes sees it: it
completes the instance's flight as its last act, after steps that keep all the flight reads, or
it keeps all the flight reads and is pending or has panicked. -/
def PassTurn (w : World) (q : Nat) (r : World × Poll) : Prop :=
  (∃ w₁, Quiet w w₁ ∧ r = (w₁.completePass q, .ready)) ∨
    Quiet w r.1 ∧ (r.2 = .pending ∨ ∃ m, r.2 = .panicked m)

theorem keepPass_quiet {q id : Nat} (hrole : ∀ x, w.viewOf id = some x → x.1 = .pass q)
    (ph : Phase) : Quiet w (w.modifySlot id fun s => { s with job := .pass q ph }) := by
  refine modifySlot_quiet fun s hs => ?_
  have hr := hrole s.view (by simp [viewOf, hs])
  simp only [JobSlot.view] at hr ⊢
  rw [hr]
  rfl

theorem PassTurn.pending {q id : Nat} {w₁ : World}
    (hrole : ∀ x, w.viewOf id = some x → x.1 = .pass q) (h₁ : Quiet w w₁) (ph : Phase) :
    PassTurn w q (w₁.modifySlot id (fun s => { s with job := .pass q ph }), .pending) := by
  have hrole₁ : ∀ x, w₁.viewOf id = some x → x.1 = .pass q :=
    fun x hx => hrole x ((h₁.views id).symm.trans hx)
  exact .inr ⟨h₁.trans (keepPass_quiet hrole₁ ph), .inl rfl⟩

/-- A turn of a pass, however many steps it takes: every step keeps all the flight reads, and
the only way the pass ends its turn as ready is by completing its instance's flight. -/
theorem passLoop_turn (fuel : Nat) (w : World) (q id : Nat) (phase : Phase)
    (hrole : ∀ x, w.viewOf id = some x → x.1 = .pass q) (hq : q < w.instances.length) :
    PassTurn w q (World.passLoop fuel w q id phase) := by
  obtain ⟨w₁, hm, he⟩ := passLoop_run fuel w q id phase
  have h₁ := quiet_of_moves hm
  generalize World.passLoop fuel w q id phase = r at he ⊢
  cases he with
  | complete => exact .inl ⟨w₁, h₁, rfl⟩
  | gone hi =>
    -- the pass's steps keep every instance
    have hlt : q < w₁.instances.length := h₁.length ▸ hq
    exact absurd hi (by simp only [inst, List.getElem?_eq_getElem hlt, reduceCtorEq, not_false_eq_true])
  | panicked m => exact .inr ⟨h₁, .inr ⟨m, rfl⟩⟩
  | spent ph => exact .pending hrole (h₁.trans (defer_quiet w₁ _)) ph
  | asleep deadline registered slept w₂ ph hs _ =>
    have h₂ := pollSleep_quiet w₁ id deadline registered
    rw [hs] at h₂
    exact .pending hrole (h₁.trans h₂) ph

end World

end Outbox.Scenario
