import Mathlib
import Outbox.Proofs.FlightSteps

/-!
What the turns of jobs do to the flight of passes, and all the events of a world together. A turn
ends a cancelled timer, fires a timer, runs a pass until it sleeps, ends or panics, or lets a
watcher look at its pass; a pass that ends, or the watcher of one that panicked, calls the
callbacks left for it as its last act. A new outbox starts idle. Every event keeps passes in
single flight and moves the flights in one of the ways `Moved` lists (`Event.moves`), and a job
that has ended stays ended, its turns leaving the store as it is (`Event.keepsEnded`,
`depot_pollJob_of_ended`).
-/

set_option autoImplicit false

namespace Outbox.Scenario

open Outbox.Queue

namespace World

variable {w w' : World}

/-! ### The end of a pass -/

theorem length_completePass (w : World) (q : Nat) :
    (w.completePass q).instances.length = w.instances.length := by
  unfold completePass
  split
  · rfl
  · exact (call_quiet _ _).length.trans (List.length_modify _ _ _)

theorem inst_of_passOpen {q p : Nat} (h : JobsSound w) (hp : w.PassOpen q p) :
    ∃ i, w.inst q = some i :=
  ⟨_, List.getElem?_eq_getElem (h.passOpen_lt hp)⟩

/-- Job `j` makes the last act of pass `p` of instance `q`: the pass itself while it runs, or its
watcher once the pass has panicked. -/
inductive LastAct (w : World) (q p : Nat) : Nat → Prop
  | pass (c : Bool) : w.viewOf p = some (.pass q, none, c) → LastAct w q p p
  | watcher {j : Nat} (m : String) (c c' : Bool) : w.viewOf p = some (.pass q, some (some m), c) →
      w.viewOf j = some (.watch q p, none, c') → LastAct w q p j

theorem LastAct.passOpen {q p j : Nat} (ha : LastAct w q p j) : w.PassOpen q p := by
  cases ha with
  | pass c hp => exact .inl ⟨c, hp⟩
  | watcher m c c' hp hj => exact .inr ⟨⟨m, c, hp⟩, j, c', hj⟩

theorem LastAct.outbox {q p j : Nat} (ha : LastAct w q p j) :
    ∀ x, w.viewOf j = some x → x.1.outbox = some q := by
  intro x hx
  cases ha with
  | pass c hp =>
    rw [hp] at hx
    cases hx
    rfl
  | watcher m c c' hp hj =>
    rw [hj] at hx
    cases hx
    rfl

theorem LastAct.congr {q p j : Nat} (hv : ∀ k, w'.viewOf k = w.viewOf k) (ha : LastAct w q p j) :
    LastAct w' q p j := by
  cases ha with
  | pass c hp => exact .pass c ((hv p).trans hp)
  | watcher m c c' hp hj => exact .watcher m c c' ((hv p).trans hp) ((hv j).trans hj)

theorem JobsSound.lastAct (h : JobsSound w) {q p j : Nat} (ha : LastAct w q p j) :
    JobsSound (w.finish j none) := by
  refine h.finish none fun q' p' c hw c' hp' => ?_
  cases ha with
  | pass c₀ hp =>
    rw [hp] at hw
    cases hw
  | watcher m c₀ c₁ hp hj =>
    rw [hj] at hw
    cases hw
    rw [hp] at hp'
    cases hp'

/-- Once the last act of a pass ends its job, the pass has ended and is in progress no more. -/
theorem LastAct.ended (h : JobsSound w) {q p j : Nat} (ha : LastAct w q p j) :
    (∃ f c, (w.finish j none).viewOf p = some (.pass q, some f, c)) ∧
      ¬ (w.finish j none).PassOpen q p := by
  cases ha with
  | pass c hp =>
    have hF : (w.finish p none).viewOf p = some (.pass q, some none, c) := viewOf_finish_self hp
    refine ⟨⟨none, c, hF⟩, ?_⟩
    rintro (⟨c₁, hc⟩ | ⟨⟨m, c₁, hc⟩, -⟩) <;> rw [hF] at hc <;> cases hc
  | watcher m c c' hp hj =>
    have hpj : p ≠ j := fun he => by
      rw [he, hj] at hp
      cases hp
    have hF : (w.finish j none).viewOf p = some (.pass q, some (some m), c) :=
      (viewOf_finish_ne none hpj).trans hp
    refine ⟨⟨some m, c, hF⟩, ?_⟩
    rintro (⟨c₁, hc⟩ | ⟨-, u, c₁, hu⟩)
    · rw [hF] at hc
      cases hc
    · -- a watcher of `p` left in progress would be a second watcher of it
      obtain ⟨f₀, h₀, hself, hne⟩ := viewOf_of_finish hu
      by_cases hu' : u = j
      · cases hself hu'
      · exact hu' (h.oneWatcher u j q p none none c₁ c' ((hne hu') ▸ h₀) hj)

/-- The last act of a pass, or of its watcher after the pass panicked: the flight of its instance
completes, handing back every callback waiting on it, and the job ends. -/
theorem complete_moves (h : SingleFlight w) {q p j : Nat} {w₁ : World} (hq : Quiet w w₁)
    (ha : LastAct w q p j) :
    SingleFlight ((w₁.completePass q).finish j none) ∧
      Moved w ((w₁.completePass q).finish j none) (some (.handed q (w.waitingOf q) p)) := by
  set C := w₁.completePass q
  set F := C.finish j none
  have hvC : ∀ k, C.viewOf k = w.viewOf k := fun k =>
    (viewOf_completePass w₁ q k).trans (hq.views k)
  have hjobsC : JobsSound C := h.jobs.congr hvC ((nextJob_completePass w₁ q).trans hq.nextJob)
    ((length_completePass w₁ q).trans hq.length)
    fun o => (debounce_completePass w₁ q o).trans (hq.debounce o)
  have haC : LastAct C q p j := ha.congr hvC
  have hp := ha.passOpen
  obtain ⟨i, hi⟩ := inst_of_passOpen h.jobs hp
  obtain ⟨i₁, hi₁, -⟩ : ∃ i₁, w₁.inst q = some i₁ ∧ i₁.flight = i.flight := by
    have hf := hq.flights q
    rw [hi] at hf
    exact Option.map_eq_some_iff.1 hf
  have hfF : ∀ q', (F.inst q').map (·.flight) = (C.inst q').map (·.flight) :=
    (finish_quiet C j none).flights
  have hfq : (F.inst q).map (·.flight) = some Flight.idle := by
    rw [hfF, flight_completePass, if_pos rfl, hi₁]
    rfl
  have hfo : ∀ q', q' ≠ q → (C.inst q').map (·.flight) = (w.inst q').map (·.flight) :=
    fun q' hq' => by rw [flight_completePass, if_neg hq', hq.flights q']
  have hback : ∀ q' x, F.PassOpen q' x → w.PassOpen q' x := fun q' x hx =>
    (passOpen_congr hvC).1 (passOpen_of_finish hx)
  obtain ⟨hend, hended⟩ := haC.ended hjobsC
  have hnone : ∀ x, ¬ F.PassOpen q x := fun x hx => by
    obtain rfl := (h.flies q).single x p (hback q x hx) hp
    exact hended hx
  have hkeep : ∀ q', q' ≠ q → Keeps w F q' := fun q' hq' =>
    Keeps.trans (⟨hfo q' hq', fun k x _ => by rw [hvC]⟩ : Keeps w C q')
      (keeps_finish none fun x hx he => hq' (Option.some.inj ((haC.outbox x hx).symm.trans he)).symm)
  refine ⟨⟨hjobsC.lastAct haC, fun q' => ?_⟩, .handed q p j w₁ hq rfl hp hend ?_ hnone
    fun q' hq' => (hkeep q' hq').unmoved⟩
  · by_cases hq' : q' = q
    · subst hq'
      have hidle : ∀ i', F.inst q' = some i' → i'.flight = Flight.idle := fun i' hi' => by
        rw [hi'] at hfq
        exact Option.some.inj hfq
      refine ⟨fun i' hi' => ?_, fun x _ hx => absurd hx (hnone x), fun i' hi' => ?_⟩
      · rw [hidle i' hi']
        refine ⟨(fun hr => by cases hr), ?_⟩
        rintro ⟨x, hx⟩
        exact absurd hx (hnone x)
      · rw [hidle i' hi']
        exact ⟨fun _ => rfl, fun _ => rfl⟩
    · exact (hkeep q' hq').flies (h.flies q')
  · exact waitingOf_of_flight hfq

/-- A pass that panics ends its job but stays in progress: its watcher has yet to end it. -/
theorem panic_moves (h : SingleFlight w) {q id : Nat} {w₁ : World} {c : Bool} (hq : Quiet w w₁)
    (hid : w.viewOf id = some (.pass q, none, c)) (m : String) :
    SingleFlight (w₁.finish id (some m)) ∧ Moved w (w₁.finish id (some m)) none := by
  have hv₁ : ∀ k, w₁.viewOf k = w.viewOf k := hq.views
  have hjobs : JobsSound (w₁.finish id (some m)) :=
    (h.jobs.of_quiet hq).finish (some m) fun q' p' c' hw => by
      rw [hv₁, hid] at hw
      cases hw
  have hopen : ∀ q' x, (w₁.finish id (some m)).PassOpen q' x ↔ w.PassOpen q' x := by
    intro q' x
    rw [← passOpen_congr hv₁]
    by_cases hx : x = id
    · subst hx
      have hF : (w₁.finish x (some m)).viewOf x = some (.pass q, some (some m), c) :=
        viewOf_finish_self ((hv₁ x).trans hid)
      obtain ⟨v, c', hw⟩ := h.jobs.watched q x c hid
      have hvx : v ≠ x := fun he => by
        rw [he, hid] at hw
        cases hw
      constructor
      · rintro (⟨c₁, hc₁⟩ | ⟨⟨m₁, c₁, hc₁⟩, -⟩) <;> rw [hF] at hc₁ <;> cases hc₁
        exact .inl ⟨c, (hv₁ x).trans hid⟩
      · rintro (⟨c₁, hc₁⟩ | ⟨⟨m₁, c₁, hc₁⟩, -⟩) <;> rw [hv₁, hid] at hc₁ <;> cases hc₁
        exact .inr ⟨⟨m, c, hF⟩, watched_finish (some m) ((hv₁ v).trans hw) hvx⟩
    · -- the pass that panicked watches nothing, so every other pass keeps its watcher
      have hwatch : (w₁.finish id (some m)).Watched q' x ↔ w₁.Watched q' x :=
        ⟨watched_of_finish, by
          rintro ⟨v, c₁, hw⟩
          refine watched_finish (some m) hw fun he => ?_
          rw [he, hv₁, hid] at hw
          cases hw⟩
      simp only [PassOpen, viewOf_finish_ne _ hx, hwatch]
  have hfl : ∀ q', ((w₁.finish id (some m)).inst q').map (·.flight) = (w.inst q').map (·.flight) :=
    fun q' => ((finish_quiet w₁ id (some m)).flights q').trans (hq.flights q')
  exact ⟨⟨hjobs, fun q' => Flies.transfer (hfl q') (hopen q') (h.flies q')⟩,
    .stays fun q' => ⟨waitingOf_congr (hfl q'), hopen q'⟩⟩

/-- A watcher whose pass ended without a panic, or is gone, ends, and nothing else changes. -/
theorem watcherEnds_moves (h : SingleFlight w) {q p v : Nat} {w₁ : World} {c : Bool}
    (hq : Quiet w w₁) (hv : w.viewOf v = some (.watch q p, none, c))
    (hp : ∀ f c', w.viewOf p = some (.pass q, f, c') → f = some none) :
    SingleFlight (w₁.finish v none) ∧ Moved w (w₁.finish v none) none := by
  have hv₁ : ∀ k, w₁.viewOf k = w.viewOf k := hq.views
  have hjobs : JobsSound (w₁.finish v none) :=
    (h.jobs.of_quiet hq).finish none fun q' p' c' hw c'' hp' => by
      rw [hv₁, hv] at hw
      cases hw
      cases hp none c'' ((hv₁ p).symm.trans hp')
  have hopen : ∀ q' x, (w₁.finish v none).PassOpen q' x ↔ w.PassOpen q' x := by
    intro q' x
    refine ⟨fun hx => (passOpen_congr hv₁).1 (passOpen_of_finish hx), fun hx => ?_⟩
    have hxv : ∀ f c', w.viewOf x = some (.pass q', f, c') → x ≠ v := fun f c' hx' he => by
      rw [he, hv] at hx'
      cases hx'
    rcases hx with ⟨c₁, hc₁⟩ | ⟨⟨m, c₁, hc₁⟩, u, c₂, hu⟩
    · exact .inl ⟨c₁, (viewOf_finish_ne none (hxv _ _ hc₁)).trans ((hv₁ x).trans hc₁)⟩
    · -- the watcher that ends watches a pass that did not panic
      have huv : u ≠ v := fun he => by
        rw [he, hv] at hu
        cases hu
        cases hp _ _ hc₁
      exact .inr ⟨⟨m, c₁, (viewOf_finish_ne none (hxv _ _ hc₁)).trans ((hv₁ x).trans hc₁)⟩,
        watched_finish none ((hv₁ u).trans hu) huv⟩
  have hfl : ∀ q', ((w₁.finish v none).inst q').map (·.flight) = (w.inst q').map (·.flight) :=
    fun q' => ((finish_quiet w₁ v none).flights q').trans (hq.flights q')
  exact ⟨⟨hjobs, fun q' => Flies.transfer (hfl q') (hopen q') (h.flies q')⟩,
    .stays fun q' => ⟨waitingOf_congr (hfl q'), hopen q'⟩⟩

/-! ### Turns -/

theorem pollJob_live {id : Nat} {s : JobSlot} (hs : w.slot id = some s) (hf : s.finished = none)
    (hc : s.cancelled = false) :
    w.pollJob id = endTurn id (jobTurn { w.modifySlot id fun s => { s with queued := false } with
      budget := turnBudget } id s.job) := by
  simp only [pollJob, hs, hf, hc, Option.isSome_none, Bool.false_eq_true, ↓reduceIte]

theorem pollJob_of_none {id : Nat} (hs : w.slot id = none) : w.pollJob id = w := by
  simp only [pollJob, hs]

theorem pollJob_of_ended {id : Nat} {s : JobSlot} (hs : w.slot id = some s)
    (hf : s.finished.isSome = true) : Quiet w (w.pollJob id) := by
  simp only [pollJob, hs, hf, if_true]
  exact modifySlot_quiet fun _ _ => rfl

theorem pollJob_of_cancelled {id : Nat} {s : JobSlot} (hs : w.slot id = some s)
    (hf : s.finished = none) (hc : s.cancelled = true) :
    ∃ w₁, Quiet w w₁ ∧ w.pollJob id = w₁.finish id none := by
  simp only [pollJob, hs, hf, hc, Option.isSome_none, Bool.false_eq_true, ↓reduceIte]
  have h₁ : Quiet w (w.modifySlot id fun s => { s with queued := false }) :=
    modifySlot_quiet fun _ _ => rfl
  refine ⟨_, ?_, rfl⟩
  exact h₁.trans (quiet_of_eq rfl rfl rfl rfl)

theorem endTurn_of_pending {id : Nat} {r : World × Poll} (h : r.2 = .pending) :
    endTurn id r = r.1 := by
  obtain ⟨w, p⟩ := r
  subst h
  rfl

theorem endTurn_of_ready {id : Nat} {r : World × Poll} (h : r.2 = .ready) :
    endTurn id r = r.1.finish id none := by
  obtain ⟨w, p⟩ := r
  subst h
  rfl

theorem endTurn_of_panicked {id : Nat} {r : World × Poll} {m : String} (h : r.2 = .panicked m) :
    endTurn id r = r.1.finish id (some m) := by
  obtain ⟨w, p⟩ := r
  subst h
  rfl

theorem pollTimer_cases (w : World) (id : Nat) (o : TimerOwner) (g : Nat) (d : Time.Duration)
    (a : Bool) :
    w.pollTimer id o g d a = (w.fireTimer o g, .ready) ∨
      ∃ w₁, Quiet w w₁ ∧ w.pollTimer id o g d a =
        (w₁.modifySlot id fun s => { s with job := .timer o g d true }, .pending) := by
  unfold pollTimer
  split
  · exact .inl rfl
  · split
    · exact .inl rfl
    · refine .inr ⟨_, ?_, rfl⟩
      exact quiet_of_eq rfl rfl rfl rfl

theorem pollWatch_cases (w : World) (id q target : Nat) :
    (∃ s m, w.slot target = some s ∧ s.finished = some (some m) ∧
        w.pollWatch id q target = (w.completePass q, .ready)) ∨
      ((∀ s, w.slot target = some s → s.finished = some none) ∧
        w.pollWatch id q target = (w, .ready)) ∨
      (Quiet w (w.pollWatch id q target).1 ∧ (w.pollWatch id q target).2 = .pending) := by
  unfold pollWatch
  split
  · rename_i s hs
    split
    · rename_i m hm
      exact .inl ⟨s, m, hs, hm, rfl⟩
    · rename_i hm
      exact .inr (.inl ⟨(fun s' hs' => by rw [hs] at hs'; cases hs'; exact hm), rfl⟩)
    · have hq : Quiet w (w.modifySlot target fun s => { s with joiner := some (.job id) }) :=
        modifySlot_quiet fun _ _ => rfl
      exact .inr (.inr ⟨hq, rfl⟩)
  · rename_i hs
    exact .inr (.inl ⟨(fun s' hs' => by rw [hs] at hs'; cases hs'), rfl⟩)

/-- What a turn of job `id` does, as the flight of passes sees it: it keeps passes in single
flight, moves the flights as an event may, and leaves the other jobs that were there as they
were. -/
def TurnMoves (w : World) (id : Nat) (w' : World) : Prop :=
  SingleFlight w' ∧ (∃ d, Moved w w' d) ∧ ∀ k, k ≠ id → k < w.nextJob → w'.viewOf k = w.viewOf k

theorem timerTurn_moves (h : SingleFlight w) {id : Nat} {W : World} (hW : Quiet w W)
    (hv : w.viewOf id = some (.timer, none, false)) (o : TimerOwner) (g : Nat)
    (d : Time.Duration) (a : Bool) : TurnMoves w id (endTurn id (W.pollTimer id o g d a)) := by
  have hWv := (hW.views id).trans hv
  rcases pollTimer_cases W id o g d a with he | ⟨w₁, hq₁, he⟩
  · -- the timer fires, then its job ends
    rw [he, endTurn_of_ready rfl]
    obtain ⟨h₂, hm, hold⟩ := fireTimer_moves (h.of_quiet hW) o g
    obtain ⟨h₃, hk⟩ := h₂.finishTimer
      (role_of_viewOf ((hold id ((h.of_quiet hW).jobs.lt_nextJob hWv)).trans hWv)) none
    refine ⟨h₃, ?_, fun k hk hlt => (viewOf_finish_ne none hk).trans
      ((hold k (hW.nextJob ▸ hlt)).trans (hW.views k))⟩
    rcases hm with hm | ⟨q, p, hm⟩
    · exact ⟨none, hm.keeps hW.keeps hk fun _ _ _ h' => by cases h'⟩
    · exact ⟨_, hm.keeps hW.keeps hk fun _ _ _ h' => by cases h'⟩
  · -- the timer starts its sleep
    rw [he, endTurn_of_pending rfl]
    obtain ⟨h₂, hk⟩ :
        SingleFlight (w₁.modifySlot id fun s => { s with job := .timer o g d true }) ∧
          ∀ q, Keeps w₁ (w₁.modifySlot id fun s => { s with job := .timer o g d true }) q :=
      (h.of_quiet (hW.trans hq₁)).modifyTimer (role_of_viewOf ((hq₁.views id).trans hWv))
        fun _ _ => rfl
    refine ⟨h₂, ⟨none, .of_keeps fun q => ((hW.trans hq₁).keeps q).trans (hk q)⟩,
      fun k hk _ => ?_⟩
    rw [viewOf_modifySlot, if_neg hk]
    exact (hW.trans hq₁).views k

theorem passTurn_moves (h : SingleFlight w) {id q : Nat} {W : World} (hW : Quiet w W)
    (hv : w.viewOf id = some (.pass q, none, false)) (phase : Phase) :
    TurnMoves w id (endTurn id (World.passLoop W.passFuel W q id phase)) := by
  have hrole : ∀ x, W.viewOf id = some x → x.1 = .pass q := fun x hx => by
    rw [hW.views, hv] at hx
    cases hx
    rfl
  have hq : q < W.instances.length := hW.length ▸ h.jobs.known id q none false hv
  rcases passLoop_turn W.passFuel W q id phase hrole hq with ⟨w₁, hq₁, he⟩ | ⟨hq₁, hp | ⟨m, hp⟩⟩
  · -- the pass completes its flight as its last act
    rw [he, endTurn_of_ready rfl]
    obtain ⟨h₂, hm⟩ := complete_moves h (hW.trans hq₁) (.pass false hv)
    exact ⟨h₂, ⟨_, hm⟩, fun k hk _ => (viewOf_finish_ne none hk).trans
      ((viewOf_completePass w₁ q k).trans ((hW.trans hq₁).views k))⟩
  · rw [endTurn_of_pending hp]
    exact ⟨h.of_quiet (hW.trans hq₁), ⟨none, (hW.trans hq₁).moved⟩,
      fun k _ _ => (hW.trans hq₁).views k⟩
  · rw [endTurn_of_panicked hp]
    obtain ⟨h₂, hm⟩ := panic_moves h (hW.trans hq₁) hv m
    exact ⟨h₂, ⟨none, hm⟩, fun k hk _ => (viewOf_finish_ne _ hk).trans ((hW.trans hq₁).views k)⟩

theorem watchTurn_moves (h : SingleFlight w) {id q target : Nat} {W : World} (hW : Quiet w W)
    (hv : w.viewOf id = some (.watch q target, none, false)) :
    TurnMoves w id (endTurn id (W.pollWatch id q target)) := by
  rcases pollWatch_cases W id q target with ⟨s', m, hs', hm, he⟩ | ⟨hs', he⟩ | ⟨hq₁, hp⟩
  · -- the pass panicked: its watcher completes the flight
    rw [he, endTurn_of_ready rfl]
    obtain ⟨f', c', ht⟩ := h.jobs.target id q target none false hv
    have hpm : w.viewOf target = some (.pass q, some (some m), c') := by
      have hWt := (hW.views target).trans ht
      rw [viewOf_of_slot hs'] at hWt
      have hfin := congrArg (fun x => x.2.1) (Option.some.inj hWt)
      simp only [JobSlot.view, hm] at hfin
      rw [ht, ← hfin]
    obtain ⟨h₂, hm₂⟩ := complete_moves h hW (.watcher m c' false hpm hv)
    exact ⟨h₂, ⟨_, hm₂⟩, fun k hk _ => (viewOf_finish_ne none hk).trans
      ((viewOf_completePass W q k).trans (hW.views k))⟩
  · -- the pass ended otherwise, or is gone: the watcher just ends
    rw [he, endTurn_of_ready rfl]
    have hp : ∀ f c', w.viewOf target = some (.pass q, f, c') → f = some none := fun f c' ht => by
      obtain ⟨s', hs'', hx⟩ := Option.map_eq_some_iff.1 ((hW.views target).trans ht)
      have hfin := congrArg (fun x => x.2.1) hx
      simp only [JobSlot.view] at hfin
      rw [← hfin]
      exact hs' s' hs''
    obtain ⟨h₂, hm⟩ := watcherEnds_moves h hW hv hp
    exact ⟨h₂, ⟨none, hm⟩, fun k hk _ => (viewOf_finish_ne none hk).trans (hW.views k)⟩
  · rw [endTurn_of_pending hp]
    exact ⟨h.of_quiet (hW.trans hq₁), ⟨none, (hW.trans hq₁).moved⟩,
      fun k _ _ => (hW.trans hq₁).views k⟩

/-- A turn of any job keeps passes in single flight, moves the flights as an event may, and
leaves the other jobs that were there as they were. -/
theorem pollJob_moves (h : SingleFlight w) (id : Nat) : TurnMoves w id (w.pollJob id) := by
  cases hs : w.slot id with
  | none =>
    rw [pollJob_of_none hs]
    exact ⟨h, ⟨none, .of_keeps (Keeps.refl w)⟩, fun _ _ _ => rfl⟩
  | some s =>
    have hview := viewOf_of_slot hs
    cases hf : s.finished with
    | some f =>
      have hq := pollJob_of_ended hs (by rw [hf]; rfl)
      exact ⟨h.of_quiet hq, ⟨none, hq.moved⟩, fun k _ _ => hq.views k⟩
    | none =>
      cases hc : s.cancelled with
      | true =>
        -- only timers are cancelled; a cancelled timer just ends
        have hv : w.viewOf id = some (s.job.role, none, true) := by rw [hview, JobSlot.view, hf, hc]
        have hrole := h.jobs.uncancelled id _ _ hv
        obtain ⟨w₁, hq, he⟩ := pollJob_of_cancelled hs hf hc
        have hv₁ := (hq.views id).trans hv
        rw [hrole] at hv₁
        obtain ⟨h₁, hk⟩ := (h.of_quiet hq).finishTimer (role_of_viewOf hv₁) none
        rw [he]
        exact ⟨h₁, ⟨none, .of_keeps fun q => (hq.keeps q).trans (hk q)⟩,
          fun k hk _ => (viewOf_finish_ne none hk).trans (hq.views k)⟩
      | false =>
        rw [pollJob_live hs hf hc]
        have hW : Quiet w
            { w.modifySlot id fun s => { s with queued := false } with budget := turnBudget } := by
          have h₁ : Quiet w (w.modifySlot id fun s => { s with queued := false }) :=
            modifySlot_quiet fun _ _ => rfl
          exact h₁.trans (quiet_of_eq rfl rfl rfl rfl)
        have hv : w.viewOf id = some (s.job.role, none, false) := by
          rw [hview, JobSlot.view, hf, hc]
        cases hj : s.job with
        | timer o g d a =>
          rw [hj] at hv
          exact timerTurn_moves h hW hv o g d a
        | pass q phase =>
          rw [hj] at hv
          exact passTurn_moves h hW hv phase
        | watch q target =>
          rw [hj] at hv
          exact watchTurn_moves h hW hv

/-! ### New outboxes, and all events -/

theorem inst_append (w : World) (i : Instance) (q : Nat) :
    ({ w with instances := w.instances ++ [i] } : World).inst q =
      if q < w.instances.length then w.inst q
      else if q = w.instances.length then some i else none := by
  simp only [inst]
  split_ifs with h₁ h₂
  · exact List.getElem?_append_left h₁
  · subst h₂
    simp
  · rw [List.getElem?_eq_none]
    simp only [List.length_append, List.length_singleton]
    omega

theorem waitingOf_of_length {q : Nat} (hq : w.instances.length ≤ q) : w.waitingOf q = [] := by
  simp only [waitingOf, inst, List.getElem?_eq_none hq, Option.map_none, Option.getD_none]

/-- A new outbox, idle and with no timer armed, keeps passes in single flight and moves no
flight. -/
theorem build_moves (h : SingleFlight w) (i : Instance) (hf : i.flight = Flight.idle)
    (ht : i.timer.pending = none) :
    SingleFlight { w with instances := w.instances ++ [i] } ∧
      Moved w { w with instances := w.instances ++ [i] } none := by
  set W : World := { w with instances := w.instances ++ [i] }
  have hv : ∀ j, W.viewOf j = w.viewOf j := fun _ => rfl
  have hlen : W.instances.length = w.instances.length + 1 := by simp [W]
  have hopen : ∀ q p, W.PassOpen q p ↔ w.PassOpen q p := fun _ _ => passOpen_congr hv
  have hWi : ∀ q, W.inst q = if q < w.instances.length then w.inst q
      else if q = w.instances.length then some i else none := inst_append w i
  have hold : ∀ q, q < w.instances.length → W.inst q = w.inst q := fun q hq => by
    rw [hWi, if_pos hq]
  have hnew : ∀ q p, w.instances.length ≤ q → ¬ W.PassOpen q p := fun q p hq hp =>
    absurd (h.jobs.passOpen_lt ((hopen q p).1 hp)) (Nat.not_lt.2 hq)
  have jobs : JobsSound W := by
    refine ⟨h.jobs.fresh, fun j q f c hj => ?_, h.jobs.uncancelled, fun o j hj => ?_,
      h.jobs.watched, h.jobs.target, h.jobs.oneWatcher⟩
    · rw [hlen]
      exact Nat.lt_succ_of_lt (h.jobs.known j q f c hj)
    · cases o with
      | queue q =>
        simp only [debounce, hWi] at hj
        split_ifs at hj with h₁ h₂
        · exact h.jobs.armed (.queue q) j hj
        · rw [Option.map_some, Option.getD_some, ht] at hj
          cases hj
        · cases hj
      | probe l => exact h.jobs.armed (.probe l) j hj
  refine ⟨⟨jobs, fun q => ?_⟩, .stays fun q => ⟨?_, fun p => hopen q p⟩⟩
  · by_cases hq : q < w.instances.length
    · exact Flies.transfer (by rw [hold q hq]) (hopen q) (h.flies q)
    · refine ⟨fun i' hi' => ?_, fun p _ hp => absurd hp (hnew q p (Nat.not_lt.1 hq)),
        fun i' hi' => ?_⟩
      · rw [hWi, if_neg hq] at hi'
        split_ifs at hi'
        cases hi'
        rw [hf]
        refine ⟨(fun hr => by cases hr), ?_⟩
        rintro ⟨p, hp⟩
        exact absurd hp (hnew q p (Nat.not_lt.1 hq))
      · rw [hWi, if_neg hq] at hi'
        split_ifs at hi'
        cases hi'
        rw [hf]
        exact ⟨fun _ => rfl, fun _ => rfl⟩
  · by_cases hq : q < w.instances.length
    · exact waitingOf_congr (by rw [hold q hq])
    · rw [waitingOf_of_length (Nat.not_lt.1 hq)]
      by_cases he : q = w.instances.length
      · have hi : W.inst q = some i := by rw [hWi, if_neg hq, if_pos he]
        rw [waitingOf_of_inst hi, hf]
        rfl
      · exact waitingOf_of_length (by rw [hlen]; omega)

/-- The steps of a world, in any order: a request for a pass, a turn of any job, arming or
disarming a timer, a new outbox, and any step that keeps all the flight of passes reads (calls on
the store, the agenda's lines and timing wheel, the clock). -/
inductive Event : World → World → Prop
  | request (w : World) (q : Nat) (cb : Callback) : Event w (w.trigger q cb)
  | turn (w : World) (id : Nat) : Event w (w.pollJob id)
  | arm (w : World) (o : TimerOwner) (delay : Time.Duration) : Event w (w.schedule o delay).2
  | disarm (w : World) (o : TimerOwner) : Event w (w.cancelTimer o).2
  | build (w : World) (i : Instance) : i.flight = Flight.idle → i.timer.pending = none →
      Event w { w with instances := w.instances ++ [i] }
  | quiet (w w' : World) : Quiet w w' → Event w w'

/-- Every event keeps passes in single flight, and moves the flights in one of the three ways. -/
theorem Event.moves (h : SingleFlight w) (he : Event w w') : SingleFlight w' ∧ ∃ d, Moved w w' d := by
  cases he with
  | request q cb =>
    obtain ⟨h₁, hm, -⟩ := trigger_moves h q cb
    rcases hm with hm | ⟨p, hm⟩
    · exact ⟨h₁, _, hm⟩
    · exact ⟨h₁, _, hm⟩
  | turn id =>
    obtain ⟨h₁, hm, -⟩ := pollJob_moves h id
    exact ⟨h₁, hm⟩
  | arm o delay =>
    obtain ⟨h₁, hk, -⟩ := schedule_moves h o delay
    exact ⟨h₁, none, .of_keeps hk⟩
  | disarm o =>
    obtain ⟨h₁, hk, -⟩ := cancelTimer_moves h o
    exact ⟨h₁, none, .of_keeps hk⟩
  | build i hf ht =>
    obtain ⟨h₁, hm⟩ := build_moves h i hf ht
    exact ⟨h₁, none, hm⟩
  | quiet _ hq => exact ⟨h.of_quiet hq, none, hq.moved⟩

/-! ### Jobs that have ended -/

theorem slot_of_ended {j : Nat} {r : Role} {f : Option String} {c : Bool}
    (hj : w.viewOf j = some (r, some f, c)) : ∃ s, w.slot j = some s ∧ s.finished = some f := by
  obtain ⟨s, hs, hx⟩ := Option.map_eq_some_iff.1 hj
  exact ⟨s, hs, congrArg (fun x => x.2.1) hx⟩

theorem depot_pollJob_of_ended {j : Nat} {r : Role} {f : Option String} {c : Bool}
    (hj : w.viewOf j = some (r, some f, c)) : (w.pollJob j).depot = w.depot := by
  obtain ⟨s, hs, hf⟩ := slot_of_ended hj
  simp only [pollJob, hs, hf, Option.isSome_some, if_true]
  rfl

theorem keepsEnded_of_views (h : JobsSound w)
    (hv : ∀ j, j < w.nextJob → w'.viewOf j = w.viewOf j) : KeepsEnded w w' :=
  fun j _ _ _ hj => (hv j (h.lt_nextJob hj)).trans hj

theorem pollJob_keepsEnded (h : SingleFlight w) (id : Nat) : KeepsEnded w (w.pollJob id) := by
  intro j r f c hj
  by_cases hji : j = id
  · -- the turn of a job that has ended only marks it as no longer queued
    subst hji
    obtain ⟨s, hs, hf⟩ := slot_of_ended hj
    exact ((pollJob_of_ended hs (by rw [hf]; rfl)).views j).trans hj
  · obtain ⟨-, -, hother⟩ := pollJob_moves h id
    exact (hother j hji (h.jobs.lt_nextJob hj)).trans hj

theorem Event.keepsEnded (h : SingleFlight w) (he : Event w w') : KeepsEnded w w' := by
  cases he with
  | request q cb => exact keepsEnded_of_views h.jobs (trigger_moves h q cb).2.2
  | turn id => exact pollJob_keepsEnded h id
  | arm o delay => exact keepsEnded_of_views h.jobs (schedule_moves h o delay).2.2
  | disarm o => exact (cancelTimer_moves h o).2.2
  | build i _ _ => exact fun _ _ _ _ hj => hj
  | quiet _ hq => exact hq.keepsEnded

theorem SingleFlight.reach (h : SingleFlight w) (hr : Relation.ReflTransGen Event w w') :
    SingleFlight w' ∧ KeepsEnded w w' := by
  induction hr with
  | refl => exact ⟨h, fun _ _ _ _ hj => hj⟩
  | tail _ he ih => exact ⟨(Event.moves ih.1 he).1, ih.2.trans (Event.keepsEnded ih.1 he)⟩

end World

end Outbox.Scenario
