import Mathlib
import Outbox.Proofs.Events

/-!
The steps of the queue and timer scenarios are runs of events. Calls on the store, the runner's
script, the transport and the clock keep all the flight of passes reads. Adding a task leaves it
with the store, then arms the instance's timer or, with enough tasks waiting, disarms it and
requests a pass. Reopening builds a new outbox, idle and with no timer armed, and disarms the old
one's timer. A run of the agenda gives jobs their turns, rests, fires what is due and looks at what
it awaits, each an event or a step that keeps all the flight reads. So every world a scenario goes
through is reached from its first by a run of events (`queueStep_reach`, `probeStep_reach`,
`queueStart_reach`), and whatever holds along every run of events holds there.
-/

set_option autoImplicit false

namespace Outbox.Scenario

open Outbox.Queue

namespace World

variable {w w' : World}

theorem reach_of_quiet (h : Quiet w w') : Relation.ReflTransGen Event w w' :=
  .single (.quiet w w' h)

/-! ### Steps on the surroundings -/

theorem onShelf_quiet {α : Type} {q : Nat} {f : Shelf → Depot → α × Shelf × Depot} {a : α}
    (h : w.onShelf q f = some (a, w')) : Quiet w w' := by
  unfold onShelf at h
  obtain ⟨i, -, he⟩ := Option.map_eq_some_iff.1 h
  generalize f i.shelf w.depot = r at he
  obtain ⟨a₁, sh, d⟩ := r
  simp only [Prod.mk.injEq] at he
  rw [← he.2]
  have hsh : Quiet ({ w with depot := d } : World)
      ({ w with depot := d }.modifyInst q fun i => { i with shelf := sh }) :=
    modifyInst_quiet fun _ => ⟨rfl, rfl⟩
  have hd : Quiet w ({ w with depot := d } : World) := quiet_of_eq rfl rfl rfl rfl
  exact hd.trans hsh

theorem statusOf_quiet {q : Nat} {v : Outbox.Json.Value} (h : w.statusOf q = some (v, w')) :
    Quiet w w' := by
  unfold statusOf at h
  split at h
  · rename_i i inv w₁ _ hinv
    simp only [Option.some.injEq, Prod.mk.injEq] at h
    rw [← h.2]
    exact onShelf_quiet hinv
  · cases h

theorem stepEntry_quiet (w : World) (created : List Task.Entry) (step : Outbox.Json.Value) :
    Quiet w (w.stepEntry? created step).2 := by
  unfold stepEntry?
  split
  · split
    · rename_i inv w₁ hinv
      exact onShelf_quiet hinv
    · exact Quiet.refl w
  · exact Quiet.refl w

theorem surroundingsStep_quiet {step v : Outbox.Json.Value}
    (h : w.surroundingsStep? step = some (v, w')) : Quiet w w' := by
  -- every step changes the store, the clock, the runner's script or the transport only
  unfold surroundingsStep? at h
  split at h <;> (try split at h) <;> simp only [Option.some.injEq, reduceCtorEq] at h <;>
    (try split at h) <;> simp only [Prod.mk.injEq] at h <;>
    (rw [← h.2]; exact quiet_of_eq rfl rfl rfl rfl)

theorem preload_quiet (w : World) (records : List Outbox.Json.Value) :
    Quiet w (w.preload records) := by
  unfold preload
  induction records generalizing w with
  | nil => exact Quiet.refl w
  | cons r rest ih =>
    simp only [List.foldl_cons]
    refine Quiet.trans ?_ (ih _)
    split <;> exact quiet_of_eq rfl rfl rfl rfl

/-! ### Runs of the agenda -/

theorem takeNext_quiet {id : Nat} (h : w.takeNext = some (id, w')) : Quiet w w' := by
  unfold takeNext at h
  cases hi : w.injectQueue <;> cases hl : w.localQueue <;>
    simp only [hi, hl, HOrElse.hOrElse, OrElse.orElse, Option.orElse, ite_self] at h <;>
    (try split at h) <;> simp only [Option.some.injEq, Prod.mk.injEq, reduceCtorEq] at h <;>
    (rw [← h.2]; exact quiet_of_eq rfl rfl rfl rfl)

theorem foldl_quiet {α : Type} {f : World → α → World} (hf : ∀ w x, Quiet w (f w x))
    (l : List α) (w : World) : Quiet w (l.foldl f w) := by
  induction l generalizing w with
  | nil => exact Quiet.refl w
  | cons x rest ih => exact (hf w x).trans (ih (f w x))

theorem ring_quiet (w : World) (waker : Waker) : Quiet w (w.ring waker) := by
  cases waker with
  | job id => exact wake_quiet w id
  | main => exact quiet_of_eq rfl rfl rfl rfl

theorem rouse_quiet (w : World) (waker : Waker) : Quiet w (w.rouse waker) := by
  cases waker with
  | job id => exact wake_quiet w id
  | main => exact wakeMain_quiet w

theorem rest_quiet {look : Bool} (h : w.rest look = some w') : Quiet w w' := by
  unfold rest at h
  obtain ⟨⟨w₁, t⟩, hm, he⟩ := Option.map_eq_some_iff.1 h
  have h₁ : Quiet w w₁ := by
    split at hm <;> (try split at hm) <;> (try split at hm) <;>
      simp only [Option.some.injEq, Prod.mk.injEq, reduceCtorEq] at hm <;>
      (rw [← hm.1]; exact quiet_of_eq rfl rfl rfl rfl)
  rw [← he]
  dsimp only
  generalize w₁.wheel.poll t = r
  obtain ⟨due, wheel⟩ := r
  have h₂ : Quiet w₁ ({ w₁ with wheel := wheel } : World) := quiet_of_eq rfl rfl rfl rfl
  have h₃ := foldl_quiet ring_quiet due { w₁ with wheel := wheel }
  have h₄ : Quiet (due.foldl ring { w₁ with wheel := wheel })
      ({ due.foldl ring { w₁ with wheel := wheel } with deferred := [] } : World) :=
    quiet_of_eq rfl rfl rfl rfl
  exact h₁.trans (h₂.trans (h₃.trans (h₄.trans (foldl_quiet rouse_quiet _ _))))

/-- A look at what a run awaits asks for a pass, arms the sleep's timer, or marks who waits for a
job: a request, or a step that keeps all the flight reads. -/
theorem pollAwaited_reach (w : World) (m : Awaited) :
    Relation.ReflTransGen Event w (w.pollAwaited m).1 := by
  cases m with
  | pass q asked =>
    cases asked with
    | false => exact .single (.request w q .signal)
    | true => exact .refl
  | sleep ms armed =>
    cases armed with
    | false =>
      simp only [pollAwaited]
      split
      · exact reach_of_quiet (quiet_of_eq rfl rfl rfl rfl)
      · exact .refl
    | true => exact .refl
  | job id =>
    simp only [pollAwaited]
    split
    · split
      · exact .refl
      · have hj : Quiet w (w.modifySlot id fun s => { s with joiner := some .main }) :=
          modifySlot_quiet fun _ _ => rfl
        exact reach_of_quiet hj
    · exact .refl

/-- Every run of the agenda, however long, is a run of events. -/
theorem runLoop_reach (fuel : Nat) (w : World) (m : Awaited) (turns : Option Nat) :
    Relation.ReflTransGen Event w (runLoop fuel w m turns) := by
  induction fuel generalizing w m turns with
  | zero => exact .refl
  | succ fuel ih =>
    cases turns with
    | none =>
      simp only [runLoop]
      split
      · -- the awaited result is due a look
        have h₀ : Quiet w ({ w with mainWoken := false } : World) := quiet_of_eq rfl rfl rfl rfl
        have h₁ := (reach_of_quiet h₀).trans (pollAwaited_reach _ m)
        generalize pollAwaited { w with mainWoken := false } m = r at h₁ ⊢
        obtain ⟨w₁, m₁, ready⟩ := r
        dsimp only
        split
        · exact h₁
        · exact h₁.trans (ih _ _ _)
      · exact ih _ _ _
    | some turns =>
      simp only [runLoop]
      have h₀ : Quiet w ({ w with tick := w.tick + 1 } : World) := quiet_of_eq rfl rfl rfl rfl
      split
      · split
        · rename_i w₁ hw₁
          exact (reach_of_quiet (rest_quiet hw₁)).trans (ih _ _ _)
        · exact .refl
      · -- a turn of the next ready job, or a rest when none is ready
        split
        · rename_i id w₁ hw₁
          exact (reach_of_quiet (h₀.trans (takeNext_quiet hw₁))).trans
            (.head (.turn w₁ id) (ih _ _ _))
        · split
          · rename_i w₁ hw₁
            exact (reach_of_quiet (h₀.trans (rest_quiet hw₁))).trans (ih _ _ _)
          · exact reach_of_quiet h₀

theorem runUntil_reach (w : World) (m : Awaited) :
    Relation.ReflTransGen Event w (w.runUntil m) := by
  let start : World :=
    { w with inside := true, mainWoken := true, signalled := false, mainRang := false }
  have h₀ : Quiet w start := quiet_of_eq rfl rfl rfl rfl
  have h₁ : Quiet (runLoop (runFuel start) start m none) ({ runLoop (runFuel start) start m none with
      inside := false,
      wheel := (runLoop (runFuel start) start m none).wheel.remove (· == Waker.main) }) :=
    quiet_of_eq rfl rfl rfl rfl
  exact (reach_of_quiet h₀).trans
    ((runLoop_reach (runFuel start) start m none).trans (reach_of_quiet h₁))

/-! ### Adding tasks and building outboxes -/

theorem afterAdd_reach (w : World) (q count : Nat) :
    Relation.ReflTransGen Event w (w.afterAdd q count) := by
  unfold afterAdd
  split
  · exact .refl
  · split
    · exact .tail (.single (.disarm w (.queue q))) (.request _ q .nothing)
    · exact .single (.arm w (.queue q) _)

theorem add_reach {kind : String} {data : List UInt8} {groupStart : Option String}
    {groups : List String} {c : Created} (h : w.add kind data groupStart groups = some (c, w')) :
    Relation.ReflTransGen Event w w' := by
  unfold add at h
  obtain ⟨⟨c₁, w₁⟩, hs, he⟩ := Option.map_eq_some_iff.1 h
  simp only [Prod.mk.injEq] at he
  rw [← he.2]
  refine (reach_of_quiet (onShelf_quiet hs)).trans ?_
  split
  · exact afterAdd_reach _ _ _
  · exact .refl

theorem addTask_reach (w : World) (created : List Task.Entry) (kind : String) (data : List UInt8)
    (groupStart : Option String) (groups : List String) :
    Relation.ReflTransGen Event w (w.addTask created kind data groupStart groups).2.1 := by
  unfold addTask
  split
  · rename_i c w₁ i ha _
    exact add_reach ha
  · exact .refl

theorem addSdkTask_reach (w : World) (created : List Task.Entry) (kind : String)
    (payload : Outbox.Json.Value) :
    Relation.ReflTransGen Event w (w.addSdkTask created kind payload).2.1 := by
  unfold addSdkTask
  split
  · exact .refl
  · split
    · exact .refl
    · exact addTask_reach _ _ _ _ _ _

theorem build_reach (w : World) (c : Config) (policy : Http.RetryPolicy) (reg : Sdk.Registry) :
    Relation.ReflTransGen Event w (w.build c policy reg) := by
  unfold World.build
  dsimp only
  split
  · rename_i w₁ hs
    refine .head (.build w _ ?_ ?_) (reach_of_quiet (onShelf_quiet hs)) <;> rfl
  · refine .single (.build w _ ?_ ?_) <;> rfl

theorem statusOf_getD_reach (w : World) (q : Nat) (v : Outbox.Json.Value) :
    Relation.ReflTransGen Event w ((w.statusOf q).getD (v, w)).2 := by
  cases hs : w.statusOf q with
  | none => exact .refl
  | some r =>
    obtain ⟨v₁, w₁⟩ := r
    exact reach_of_quiet (statusOf_quiet hs)

theorem reopen_reach (w : World) (input step : Outbox.Json.Value) :
    Relation.ReflTransGen Event w (w.reopen input step).2 := by
  unfold reopen
  dsimp only
  split
  · exact .refl
  · exact (build_reach w _ _ _).trans (.head (.disarm _ _) (statusOf_getD_reach _ _ _))

/-! ### Steps of the scenarios -/

theorem map_onShelf_quiet {α β : Type} {q : Nat} {f : Shelf → Depot → α × Shelf × Depot}
    {g : α × World → β × World} {b : β} (h : (w.onShelf q f).map g = some (b, w'))
    (hg : ∀ p, (g p).2 = p.2) : Quiet w w' := by
  obtain ⟨⟨a, w₁⟩, hs, he⟩ := Option.map_eq_some_iff.1 h
  have hw : w₁ = w' := (hg (a, w₁)).symm.trans (congrArg Prod.snd he)
  rw [← hw]
  exact onShelf_quiet hs

/-- Every step of a queue scenario is a run of events. -/
theorem queueStep_reach (input : Outbox.Json.Value) (w : World) (created : List Task.Entry)
    (index : Nat) (step : Outbox.Json.Value) :
    Relation.ReflTransGen Event w (queueStep input w created index step).2.1 := by
  unfold queueStep
  dsimp only
  split
  · exact addTask_reach _ _ _ _ _ _
  · exact addSdkTask_reach _ _ _ _
  · exact runUntil_reach _ _
  · exact .single (.request _ _ _)
  · exact runUntil_reach _ _
  · -- the inventory, read through the shelf
    split
    · rename_i v w₁ h
      exact reach_of_quiet (map_onShelf_quiet h fun _ => rfl)
    · exact .refl
  · split
    · rename_i v w₁ h
      exact reach_of_quiet (statusOf_quiet h)
    · exact .refl
  · -- the detail of the entry named
    have hq := stepEntry_quiet w created step
    split
    · rename_i e w₁ h
      rw [h] at hq
      exact reach_of_quiet hq
    · rename_i w₁ h
      rw [h] at hq
      exact reach_of_quiet hq
  · -- a delete of the entry named
    have hq := stepEntry_quiet w created step
    split
    · rename_i e w₁ h
      rw [h] at hq
      split
      · rename_i v w₂ h₂
        exact reach_of_quiet (hq.trans (map_onShelf_quiet h₂ fun _ => rfl))
      · exact .refl
    · rename_i w₁ h
      rw [h] at hq
      exact reach_of_quiet hq
  · split
    · rename_i v w₁ h
      exact reach_of_quiet (map_onShelf_quiet h fun _ => rfl)
    · exact .refl
  · exact reopen_reach _ _ _
  · -- a step on the surroundings
    split
    · rename_i v w₁ h
      exact reach_of_quiet (surroundingsStep_quiet h)
    · exact .refl

theorem clearLogs_quiet (w : World) : Quiet w w.clearLogs := quiet_of_eq rfl rfl rfl rfl

theorem queueStep_extends {w₀ : World} (h : Relation.ReflTransGen Event w₀ w)
    (input : Outbox.Json.Value) (created : List Task.Entry) (index : Nat)
    (step : Outbox.Json.Value) :
    Relation.ReflTransGen Event w₀ (queueStep input w.clearLogs created index step).2.1 :=
  h.trans ((reach_of_quiet (clearLogs_quiet w)).trans (queueStep_reach _ _ _ _ _))

theorem probeStep_reach (w : World) (index : Nat) (step : Outbox.Json.Value) :
    Relation.ReflTransGen Event w (w.probeStep index step).2 := by
  unfold probeStep
  generalize ProbeCall.ofStep step = c
  cases c with
  | schedule delay => exact .single (.arm _ _ _)
  | cancel => exact .single (.disarm _ _)
  | isScheduled => exact .refl
  | sleep ms => exact runUntil_reach _ _

theorem queueStart_reach (d : Depot) (k : RunnerKind) (t : Transport)
    (records : List Outbox.Json.Value) (c : Config) (policy : Http.RetryPolicy)
    (reg : Sdk.Registry) :
    Relation.ReflTransGen Event (World.init d k t)
      (((World.init d k t).preload records).build c policy reg) :=
  (reach_of_quiet (preload_quiet _ _)).trans (build_reach _ _ _ _)

end World

end Outbox.Scenario
