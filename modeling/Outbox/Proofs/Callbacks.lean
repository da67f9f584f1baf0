import Mathlib
import Outbox.Proofs.Events

/-!
Every callback left with an outbox is called once, at the end of the pass it was left for.

A run of events (`World.Traced`) records what each event did with callbacks: it left one for the
pass it started or joined, or it called those left for a pass that had ended. Along every run
from a world with nothing scheduled the callbacks of each outbox balance (`World.Balanced`): the
callbacks left so far, each with its pass, are the callbacks called so far, each at the end of
its pass and in the order they were left, followed by those still waiting, which all wait for
the one pass in progress. Main statement: `passes_fly_one_at_a_time`.
-/

set_option autoImplicit false

namespace Outbox.Scenario

open Outbox.Queue

/-- The callbacks a deed leaves with instance `q`, each with the pass it is left for. -/
def Deed.asks (q : Nat) : Deed → List (Callback × Nat)
  | .asked q' cb p => if q' = q then [(cb, p)] else []
  | .handed .. => []

/-- The callbacks a deed calls for instance `q`, each with the pass that ended. -/
def Deed.hands (q : Nat) : Deed → List (Callback × Nat)
  | .asked .. => []
  | .handed q' cbs p => if q' = q then cbs.map (·, p) else []

namespace World

variable {w w' : World}

/-- A run of events from `w₀` to `w`, with what each did with callbacks, in order. -/
inductive Traced (w₀ : World) : List Deed → World → Prop
  | start : Traced w₀ [] w₀
  | step {ds : List Deed} {w w' : World} {d : Option Deed} :
      Traced w₀ ds w → Event w w' → Moved w w' d → Traced w₀ (ds ++ d.toList) w'

/-- The callbacks of instance `q` balance after the deeds `ds`: those left, each with the pass it
was left for, are those called, each with the pass that ended, followed by those waiting, all
for one pass, which is in progress if any waits. -/
def Balanced (ds : List Deed) (w : World) (q : Nat) : Prop :=
  ∃ p, ds.flatMap (Deed.asks q) = ds.flatMap (Deed.hands q) ++ (w.waitingOf q).map (·, p) ∧
    (w.waitingOf q ≠ [] → w.PassOpen q p)

theorem Moved.balanced {ds : List Deed} {d : Option Deed} {q : Nat} (h : SingleFlight w)
    (hm : Moved w w' d) (hb : Balanced ds w q) : Balanced (ds ++ d.toList) w' q := by
  obtain ⟨p, hl, hp⟩ := hb
  cases hm with
  | stays hu =>
    obtain ⟨hw, ho⟩ := hu q
    refine ⟨p, ?_, fun hne => (ho p).2 (hp (hw ▸ hne))⟩
    simp only [Option.toList_none, List.append_nil, hw]
    exact hl
  | asked q₀ cb p₀ hw ho hj hot =>
    by_cases hq : q₀ = q
    · subst hq
      -- the callback waits for the pass it joins or starts, as those before it do
      have hmap : (w.waitingOf q₀).map (·, p) = (w.waitingOf q₀).map (·, p₀) := by
        by_cases he : w.waitingOf q₀ = []
        · rw [he]
          rfl
        · rw [hj p (hp he)]
      refine ⟨p₀, ?_, fun _ => (ho p₀).2 rfl⟩
      simp only [Option.toList_some, List.flatMap_append, hl, hw, hmap]
      simp [Deed.asks, Deed.hands]
    · obtain ⟨hw', ho'⟩ := hot q (Ne.symm hq)
      refine ⟨p, ?_, fun hne => (ho' p).2 (hp (hw' ▸ hne))⟩
      simp only [Option.toList_some, List.flatMap_append, hl, hw']
      simp [Deed.asks, Deed.hands, hq]
  | handed q₀ p₀ j w₁ hq₁ hl₁ hwas hend hw hc hot =>
    by_cases hq : q₀ = q
    · subst hq
      -- the callbacks called are those left for the pass that ended
      have hmap : (w.waitingOf q₀).map (·, p) = (w.waitingOf q₀).map (·, p₀) := by
        by_cases he : w.waitingOf q₀ = []
        · rw [he]
          rfl
        · rw [(h.flies q₀).single p p₀ (hp he) hwas]
      refine ⟨p₀, ?_, fun hne => absurd hw hne⟩
      simp only [Option.toList_some, List.flatMap_append, hl, hw, hmap]
      simp [Deed.asks, Deed.hands]
    · obtain ⟨hw', ho'⟩ := hot q (Ne.symm hq)
      refine ⟨p, ?_, fun hne => (ho' p).2 (hp (hw' ▸ hne))⟩
      simp only [Option.toList_some, List.flatMap_append, hl, hw']
      simp [Deed.asks, Deed.hands, hq]

theorem Traced.balanced {w₀ : World} {ds : List Deed} (ht : Traced w₀ ds w)
    (h₀ : SingleFlight w₀) (hb₀ : ∀ q, Balanced [] w₀ q) :
    SingleFlight w ∧ ∀ q, Balanced ds w q := by
  induction ht with
  | start => exact ⟨h₀, hb₀⟩
  | step _ he hm ih => exact ⟨(Event.moves ih.1 he).1, fun q => hm.balanced ih.1 (ih.2 q)⟩

theorem traced_of_reach {w₀ : World} (h₀ : SingleFlight w₀)
    (h : Relation.ReflTransGen Event w₀ w) : SingleFlight w ∧ ∃ ds, Traced w₀ ds w := by
  induction h with
  | refl => exact ⟨h₀, [], .start⟩
  | tail _ he ih =>
    obtain ⟨hs, ds, ht⟩ := ih
    obtain ⟨hs', d, hm⟩ := Event.moves hs he
    exact ⟨hs', _, .step ht he hm⟩

theorem SingleFlight.init (d : Depot) (k : RunnerKind) (t : Transport) :
    SingleFlight (World.init d k t) := by
  have hv : ∀ j, (World.init d k t).viewOf j = none := fun _ => rfl
  have hi : ∀ q, (World.init d k t).inst q = none := fun _ => rfl
  have hno : ∀ q p, ¬ (World.init d k t).PassOpen q p := by
    rintro q p (⟨c, hc⟩ | ⟨⟨m, c, hc⟩, -⟩) <;> rw [hv] at hc <;> cases hc
  refine ⟨⟨fun j _ => hv j, fun j q f c hj => ?_, fun j r f hj => ?_, fun o j hj => ?_,
    fun q p c hp => ?_, fun v q p f c hw => ?_, fun v v' q p f f' c c' h₁ _ => ?_⟩,
    fun q => ⟨fun i h => ?_, fun p _ hp => absurd hp (hno q p), fun i h => ?_⟩⟩
  · rw [hv] at hj
    cases hj
  · rw [hv] at hj
    cases hj
  · cases o <;> cases hj
  · rw [hv] at hp
    cases hp
  · rw [hv] at hw
    cases hw
  · rw [hv] at h₁
    cases h₁
  · rw [hi] at h
    cases h
  · rw [hi] at h
    cases h

theorem balanced_init (d : Depot) (k : RunnerKind) (t : Transport) (q : Nat) :
    Balanced [] (World.init d k t) q :=
  ⟨0, rfl, fun hne => absurd rfl hne⟩

end World

open World

/-- Passes fly singly, whatever the order of events. In every world reached from one with
nothing scheduled by requests for passes, turns of jobs in any order, arming and disarming
timers, new outboxes and calls on the store, each outbox has at most one pass in progress, its
flight runs exactly while one is, and callbacks wait exactly then. The events form a run in which
each either moves no flight, or leaves one callback for the pass it joins or starts, or, once a
pass has ended, calls every callback left for it as the last act of the pass or of its watcher;
and every callback left so far was called once, at the end of the pass it was left for, in the
order they were left, or waits for the pass in progress. A job that has ended stays ended along
every later run and its turns leave the store as it is, so a pass whose callbacks were called
writes nothing more. The steps of the scenarios are such runs (`World.queueStep_reach`). -/
theorem passes_fly_one_at_a_time (d : Depot) (k : RunnerKind) (t : Transport) {w : World}
    (h : Relation.ReflTransGen Event (World.init d k t) w) :
    SingleFlight w ∧ (∃ ds, Traced (World.init d k t) ds w ∧ ∀ q, Balanced ds w q) ∧
      (∀ j r f c, w.viewOf j = some (r, some f, c) → (w.pollJob j).depot = w.depot) ∧
      ∀ w', Relation.ReflTransGen Event w w' → KeepsEnded w w' := by
  obtain ⟨-, ds, ht⟩ := traced_of_reach (SingleFlight.init d k t) h
  obtain ⟨hs, hb⟩ := ht.balanced (SingleFlight.init d k t) (balanced_init d k t)
  exact ⟨hs, ⟨ds, ht, hb⟩, fun _ _ _ _ hj => depot_pollJob_of_ended hj,
    fun _ hr => (hs.reach hr).2⟩

/-- An outbox is built and asked for a pass, and the pass runs: over an empty store it ends at
once, and the callback left for it is called. -/
theorem passes_fly_one_at_a_time_called :
    let w₀ := World.init ⟨Store.MemoryStore.empty, ⟨0, 0, 0⟩, []⟩ .scripted ⟨[]⟩
    let w := (({ w₀ with instances := w₀.instances ++ [shelfInstance (Shelf.fresh "site" ⟨0⟩)] } :
      World).trigger 0 (.label 0)).pollJob 0
    Relation.ReflTransGen Event w₀ w ∧ SingleFlight w ∧ w.fired = [0] ∧ w.waitingOf 0 = [] ∧
      ∃ ds, Traced w₀ ds w ∧ ds.flatMap (Deed.asks 0) = ds.flatMap (Deed.hands 0) := by
  intro w₀ w
  have hr : Relation.ReflTransGen Event w₀ w :=
    ((Relation.ReflTransGen.single (.build w₀ _ rfl rfl)).tail (.request _ 0 (.label 0))).tail
      (.turn _ 0)
  obtain ⟨hs, ⟨ds, ht, hb⟩, -, -⟩ := passes_fly_one_at_a_time _ _ _ hr
  have hfired : w.fired = [0] := by decide
  have hwait : w.waitingOf 0 = [] := by decide
  obtain ⟨p, hl, -⟩ := hb 0
  rw [hwait, List.map_nil, List.append_nil] at hl
  exact ⟨hr, hs, hfired, hwait, ds, ht, hl⟩

end Outbox.Scenario
