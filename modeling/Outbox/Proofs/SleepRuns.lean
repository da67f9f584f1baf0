import Mathlib
import Outbox.Proofs.ProbeOnTime

/-!
A sleep of the timer scenario lasts exactly as long as it should, and the pending callback fires
during it exactly when its deadline comes before the sleep ends.

Between two calls the scenario is `Between`: the invariant of the probe, a wheel on time whose
timers are all due within the longest sleep and none of them the awaiting step's, and the pending
callback's job due at its deadline. A sleep of `ms` files the awaiting step's timer at
`T = now + min ms longestSleep`, and inside the run `Sleeping` holds as well: that timer is due at
`T`, time has not passed `T`, and the awaiting step is rung only at `T`. Every iteration of the
run keeps `Sleeping` and takes from `World.work`, so the run's fuel lasts until the timer rings.
-/

set_option autoImplicit false

namespace Outbox.Scenario

open Outbox.Queue Outbox.Json Outbox.Time

namespace World

variable {p p' p₁ p₂ : Option (Nat × Nat)} {w w' w₁ w₂ : World} {T k : Nat}

/-! ### The awaiting step's flags -/

theorem wake_flags (w : World) (k : Nat) :
    (w.wake k).mainRang = w.mainRang ∧ (w.wake k).mainWoken = w.mainWoken := by
  rcases wake_cases w k with hw | ⟨s, -, -, -, hw⟩ <;> rw [hw]
  · exact ⟨rfl, rfl⟩
  · rcases enqueue_cases (w.modifySlot k fun s => { s with queued := true }) k with he | he <;>
      rw [he] <;> exact ⟨rfl, rfl⟩

/-- Ringing timers keeps the probe; the awaiting step is rung, and woken, when its own timer is
among them, and rung only then. -/
theorem foldl_ring_main (L : List Waker) (w : World) :
    (L.foldl ring w).probe = w.probe ∧
      ((L.foldl ring w).mainRang = true ↔ w.mainRang = true ∨ Waker.main ∈ L) ∧
      (w.mainWoken = true ∨ Waker.main ∈ L → (L.foldl ring w).mainWoken = true) := by
  induction L generalizing w with
  | nil => simp
  | cons x rest ih =>
    obtain ⟨hp, hr, hw⟩ := ih (w.ring x)
    have hx : (w.ring x).probe = w.probe ∧
        ((w.ring x).mainRang = true ↔ w.mainRang = true ∨ Waker.main = x) ∧
        (w.mainWoken = true ∨ Waker.main = x → (w.ring x).mainWoken = true) := by
      cases x with
      | job k =>
        obtain ⟨hr', hw'⟩ := wake_flags w k
        refine ⟨(wake_frame w k).1, ?_, ?_⟩ <;> simp [ring, hr', hw']
      | main => exact ⟨rfl, by simp [ring], fun _ => rfl⟩
    simp only [List.foldl_cons, List.mem_cons]
    refine ⟨hp.trans hx.1, ?_, fun h => hw ?_⟩
    · rw [hr, hx.2.1]
      exact or_assoc
    · rcases h with h | h | h
      · exact .inl (hx.2.2 (.inl h))
      · exact .inl (hx.2.2 (.inr h))
      · exact .inr h

theorem polledAt_main (hd : w.deferred = []) (t : Nat) :
    (w.polledAt t).probe = w.probe ∧
      ((w.polledAt t).mainRang = true ↔ w.mainRang = true ∨ Waker.main ∈ (w.wheel.poll t).1) ∧
      (Waker.main ∈ (w.wheel.poll t).1 → (w.polledAt t).mainWoken = true) := by
  rw [polledAt_of_idle hd]
  obtain ⟨hp, hr, hw⟩ := foldl_ring_main (w.wheel.poll t).1 { w with wheel := (w.wheel.poll t).2 }
  exact ⟨hp, hr, fun h => hw (.inr h)⟩

/-! ### Between calls, and inside a sleep -/

/-- The timer scenario keeping the pending callback `p` to its deadline: the invariant of the
probe holds, the wheel keeps time with every timer due within the longest sleep, and the pending
callback's job is due at the deadline. -/
structure OnSchedule (p : Option (Nat × Nat)) (w : World) : Prop where
  sound : ProbeSound p w
  onTime : w.wheel.OnTime
  near : ∀ y ∈ w.wheel.entries, y.when ≤ w.now + longestSleep
  due : ∀ l e, p = some (l, e) → ∃ id, w.probe.pending = some id ∧ w.DueAt id e

/-- Between two calls no timer is the awaiting step's. -/
structure Between (p : Option (Nat × Nat)) (w : World) : Prop extends OnSchedule p w where
  free : ∀ y ∈ w.wheel.entries, y.item ≠ .main

/-- Inside a run awaiting a sleep that ends at `T`: the awaiting step's timers are due at `T`,
time has not passed `T`, the step is rung only at `T` and then woken, and until then its timer
waits in the wheel. -/
structure Sleeping (p : Option (Nat × Nat)) (T : Nat) (w : World) : Prop extends OnSchedule p w where
  main : ∀ y ∈ w.wheel.entries, y.item = .main → y.when = T
  clock : w.now ≤ T
  rang : w.mainRang = true → w.now = T ∧ w.mainWoken = true
  waits : w.mainRang = false → ∃ y ∈ w.wheel.entries, y.item = .main

/-- The pending callback, if it fires, had its deadline before `T`. -/
def FiresBefore (T : Nat) (p p' : Option (Nat × Nat)) : Prop :=
  ∀ l e, p = some (l, e) → p' = none → e < T

theorem FiresBefore.refl (T : Nat) (p : Option (Nat × Nat)) : FiresBefore T p p :=
  fun _ _ he hn => absurd (he.symm.trans hn) (Option.some_ne_none _)

theorem Moves.firesBefore (hm : Moves p w p₁ w₁) (h₁ : FiresBefore T p p₁)
    (h₂ : FiresBefore T p₁ p₂) : FiresBefore T p p₂ := by
  intro l e he hn
  rcases hm.fires with ⟨rfl, -⟩ | ⟨-, -, -, h₁', -⟩
  · exact h₂ l e he hn
  · exact h₁ l e he h₁'

theorem OnSchedule.of_flags (h : OnSchedule p w) (hw : w' = { w with
    tick := w'.tick, budget := w'.budget, inside := w'.inside, mainWoken := w'.mainWoken,
    unparked := w'.unparked, signalled := w'.signalled, mainRang := w'.mainRang,
    fired := w'.fired, runLog := w'.runLog }) : OnSchedule p w' := by
  have hs := h.sound.of_flags hw
  rw [hw] at hs ⊢
  exact ⟨hs, h.onTime, h.near, fun l e he => (h.due l e he).imp fun id ⟨hid, hd⟩ =>
    ⟨hid, hd.frame rfl (fun h => h) (fun _ _ => Iff.rfl) rfl hd.aside⟩⟩

theorem Between.of_flags (h : Between p w) (hw : w' = { w with
    tick := w'.tick, budget := w'.budget, inside := w'.inside, mainWoken := w'.mainWoken,
    unparked := w'.unparked, signalled := w'.signalled, mainRang := w'.mainRang,
    fired := w'.fired, runLog := w'.runLog }) : Between p w' := by
  refine ⟨h.toOnSchedule.of_flags hw, ?_⟩
  rw [hw]
  exact h.free

theorem now_removeMain (w : World) :
    ({ w with inside := false, wheel := w.wheel.remove (· == Waker.main) } : World).now = w.now := rfl

theorem OnSchedule.removeMain (h : OnSchedule p w) :
    Between p { w with inside := false, wheel := w.wheel.remove (· == Waker.main) } := by
  have hmem : ∀ y, y ∈ (w.wheel.remove (· == Waker.main)).entries ↔
      y ∈ w.wheel.entries ∧ y.item ≠ .main := by
    intro y
    simp [Wheel.remove]
  have hs : ProbeSound p { w with wheel := w.wheel.remove (· == Waker.main) } :=
    h.sound.wheel _ (fun j e hj _ => hj.remove _) le_rfl
  refine ⟨⟨hs.of_flags rfl, h.onTime.remove (· == Waker.main), fun y hy => h.near y ((hmem y).1 hy).1,
    fun l e he => ?_⟩, fun y hy => ((hmem y).1 hy).2⟩
  obtain ⟨id, hid, hd⟩ := h.due l e he
  refine ⟨id, hid, hd.frame rfl (fun h => h) (fun y hy => ?_) rfl hd.aside⟩
  rw [hmem, hy]
  exact and_iff_left fun h => by cases h

/-! ### One iteration of a run -/

theorem Sleeping.unwoken (h : Sleeping p T w) (hrg : w.mainRang = false) :
    Sleeping p T { w with mainWoken := false } :=
  ⟨h.toOnSchedule.of_flags rfl, h.main, h.clock,
    fun hr => absurd (hrg.symm.trans hr) Bool.false_ne_true, h.waits⟩

theorem Sleeping.tick (h : Sleeping p T w) : Sleeping p T { w with tick := w.tick + 1 } :=
  ⟨h.toOnSchedule.of_flags rfl, h.main, h.clock, h.rang, h.waits⟩

theorem Sleeping.rest_some (h : Sleeping p T w) (hrg : w.mainRang = false) (look : Bool) :
    ∃ w', w.rest look = some w' := by
  obtain ⟨y, hy, -⟩ := h.waits hrg
  cases hn : w.wheel.nextTime with
  | none =>
    have he : w.wheel.nextExpiration = none := Option.map_eq_none_iff.1 hn
    rw [h.onTime.nextExpiration_none he] at hy
    cases hy
  | some t =>
    unfold World.rest
    rw [hn]
    dsimp only
    split_ifs <;> exact ⟨_, rfl⟩

/-- A rest while the awaiting step sleeps keeps it sleeping: time moves at most to the next
expiration, which is no later than the end of the sleep, and the step is rung when the wheel
reaches its timer. -/
theorem Sleeping.rest (h : Sleeping p T w) (hrg : w.mainRang = false) {look : Bool}
    (hlook : look = false → w.ready = []) (hr : w.rest look = some w') :
    Moves p w p w' ∧ Sleeping p T w' := by
  have hm := h.sound.rest hr
  obtain ⟨w₁, t, -, -, hwh, hd₁, hp₁, hrg₁, ht, rfl⟩ := rest_cases hr
  obtain ⟨hp, hrang, hwoken⟩ := polledAt_main (hd₁.trans h.sound.idle) t
  have hW : (w₁.polledAt t).wheel = (w.wheel.poll t).2 := by rw [polledAt_wheel, hwh]
  rw [hwh] at hrang hwoken
  have hle := rest_time_le h.onTime (ht.imp_right And.right)
  obtain ⟨-, hel, hfired, hfrom, hto⟩ := h.onTime.poll hle
  have hnow : (w₁.polledAt t).now = max w.now t := by
    simp only [now, hW]
    exact hel
  obtain ⟨y₀, hy₀, hm₀⟩ := h.waits hrg
  have hT : t ≤ T :=
    (hle y₀ hy₀).trans ((h.onTime.filed y₀ hy₀).due_le.trans (h.main y₀ hy₀ hm₀).le)
  refine ⟨hm, ⟨⟨hm.sound, rest_onTime h.onTime hr, fun z hz => ?_, fun l e he => ?_⟩,
    fun z hz hzm => ?_, ?_, fun hr' => ?_, fun hr' => ?_⟩⟩
  · rw [hW] at hz
    obtain ⟨y, hy, -, hyw, -⟩ := hfrom z hz
    have := hm.clock
    have := h.near y hy
    omega
  · obtain ⟨id, hid, hd⟩ := h.due l e he
    exact ⟨id, by rw [hp, hp₁]; exact hid, hd.rest h.onTime hlook hr⟩
  · rw [hW] at hz
    obtain ⟨y, hy, hyi, hyw, -⟩ := hfrom z hz
    rw [hyw]
    exact h.main y hy (hyi.symm.trans hzm)
  · rw [hnow]
    exact max_le h.clock hT
  · -- rung by this rest: its timer fired, so the wheel reached `T`
    rw [hrang, hrg₁, hrg] at hr'
    have hx : Waker.main ∈ (w.wheel.poll t).1 := hr'.resolve_left Bool.false_ne_true
    obtain ⟨y, hy, hyi, hyt⟩ := (hfired _).1 hx
    have htT : t = T := hyt.symm.trans (h.main y hy hyi)
    refine ⟨?_, hwoken hx⟩
    rw [hnow, htT]
    exact max_eq_right h.clock
  · -- not rung: its timer was due later, and stays
    have hx : Waker.main ∉ (w.wheel.poll t).1 := fun hx => by
      have := hrang.2 (.inr hx)
      rw [hr'] at this
      cases this
    have hlt : t < y₀.when := by
      rw [h.main y₀ hy₀ hm₀]
      exact lt_of_le_of_ne hT fun htT =>
        hx ((hfired _).2 ⟨y₀, hy₀, hm₀, (h.main y₀ hy₀ hm₀).trans htT.symm⟩)
    obtain ⟨z, hz, hzi, -⟩ := hto y₀ hy₀ hlt
    exact ⟨z, hW ▸ hz, hzi.trans hm₀⟩

/-- The pending callback's own turn files its timer at its deadline, or fires it. -/
theorem ProbeSound.due_own {l e : Nat} (h : ProbeSound p w) (he : p = some (l, e))
    (hid : w.probe.pending = some k) (hd : w.DueAt k e) (ht : w.takeNext = some (k, w₁)) :
    (w₁.pollJob k).probe.pending = none ∨
      ((w₁.pollJob k).probe.pending = some k ∧ (w₁.pollJob k).DueAt k e) := by
  obtain ⟨hperm, hw₁⟩ := takeNext_cases ht
  obtain ⟨hm₁, -, -⟩ := h.takeNext ht
  have hsl : w₁.slot k = w.slot k := by rw [hw₁]; rfl
  have hpr : w₁.probe = w.probe := by rw [hw₁]
  have hwh : w₁.wheel = w.wheel := by rw [hw₁]
  have hdf : w₁.deferred = w.deferred := by rw [hw₁]
  obtain ⟨hc₀, -, hall, s, o, g, d, a, hs, hjob, hf, hst⟩ := hd
  obtain ⟨s', hs', hq⟩ := h.lined k (hperm.mem_iff.2 List.mem_cons_self)
  rw [hs] at hs'
  obtain rfl := Option.some.inj hs'
  have hun : a = false → e = w.now + min d.ceilMillis longestSleep := by
    rcases hst with ⟨-, h₁, -⟩ | ⟨-, hq', -⟩
    · exact h₁
    · rw [hq] at hq'
      cases hq'
  obtain ⟨-, -, l₀, g₀, d₀, a₀, hjob₀, -⟩ := h.jobs k s hs
  rw [hjob] at hjob₀
  simp only [Job.timer.injEq] at hjob₀
  obtain ⟨rfl, rfl, rfl, rfl⟩ := hjob₀
  obtain ⟨-, hg, -, hc, -⟩ := h.awaits_at he hid hs hjob
  rcases hm₁.sound.pollJob_cases k with ⟨hnone, -⟩ | ⟨s₁, hs₁, hfin, -⟩ | ⟨s₁, hs₁, -, hc₁, -⟩ |
    ⟨s₁, l₁, g₁, d₁, a₁, hs₁, -, -, hjob₁, ⟨-, he'⟩ | ⟨ha₁, -, he'⟩⟩
  · rw [hsl, hs] at hnone
    cases hnone
  · rw [hsl, hs] at hs₁
    obtain rfl := Option.some.inj hs₁
    rw [hf] at hfin
    cases hfin
  · rw [hsl, hs] at hs₁
    obtain rfl := Option.some.inj hs₁
    rw [hc] at hc₁
    cases hc₁
  · -- it fires: the probe's generation is its own
    rw [hsl, hs] at hs₁
    obtain rfl := Option.some.inj hs₁
    rw [hjob] at hjob₁
    simp only [Job.timer.injEq, TimerOwner.probe.injEq] at hjob₁
    obtain ⟨rfl, rfl, rfl, rfl⟩ := hjob₁
    left
    rw [he', probe_finish, fireTimer_probe, if_pos (by show w₁.probe.generation = _; rw [hpr]; exact hg.symm)]
  · -- it files its timer, due at the end of its delay, which is its deadline
    rw [hsl, hs] at hs₁
    obtain rfl := Option.some.inj hs₁
    rw [hjob] at hjob₁
    simp only [Job.timer.injEq, TimerOwner.probe.injEq] at hjob₁
    obtain ⟨rfl, rfl, rfl, rfl⟩ := hjob₁
    have hend : w₁.sleepEnd d.ceilMillis = e := by
      rw [hun ha₁]
      simp only [sleepEnd, now, hwh]
    have hs₂ : ({ w₁.turnStart k with
        wheel := w₁.wheel.place w₁.now (w₁.sleepEnd d.ceilMillis) (.job k) } : World).slot k =
          some { s with queued := false } :=
      (slot_turnStart w₁ k k).trans (slot_modifySlot_of (hsl.trans hs) _)
    right
    rw [he']
    refine ⟨by rw [← hpr] at hid; exact hid, ?_, ?_, ?_, ?_⟩
    · show w₁.wheel.elapsed ≤ e
      rw [hwh]
      exact hc₀
    · show Waker.job k ∉ w₁.deferred
      rw [hdf, h.idle]
      exact List.not_mem_nil
    · intro z hz hzk
      simp only [modifySlot, turnStart, Wheel.place_entries, List.mem_append,
        List.mem_singleton] at hz
      rcases hz with hz | rfl
      · exact hall z (hwh ▸ hz) hzk
      · exact hend
    · refine ⟨_, _, g, d, true, slot_modifySlot_of hs₂ _, rfl, hf, .inr ⟨rfl, rfl, ?_⟩⟩
      exact ⟨_, List.mem_append_right _ (List.mem_singleton_self _), rfl⟩

/-- A job's turn while the awaiting step sleeps keeps it sleeping and asks less of the run; the
pending callback fires in it only before the sleep's end. -/
theorem Sleeping.turn (h : Sleeping p T w) (hwk : w.mainWoken = false) (hrg : w.mainRang = false)
    (ht : w.takeNext = some (k, w₁)) :
    ∃ p', Moves p w p' (w₁.pollJob k) ∧ Sleeping p' T (w₁.pollJob k) ∧
      (w₁.pollJob k).mainWoken = false ∧ (w₁.pollJob k).mainRang = false ∧
      FiresBefore T p p' ∧ (w₁.pollJob k).work < w.work := by
  obtain ⟨hm₁, hid, hq⟩ := h.sound.takeNext ht
  obtain ⟨hperm, hw₁⟩ := takeNext_cases ht
  have hwh : w₁.wheel = w.wheel := by rw [hw₁]
  have hsl : w₁.slot = w.slot := by rw [hw₁]; rfl
  have hpr : w₁.probe = w.probe := by rw [hw₁]
  have hdf : w₁.deferred = w.deferred := by rw [hw₁]
  have hwk₁ : w₁.mainWoken = w.mainWoken := by rw [hw₁]
  have hrg₁ : w₁.mainRang = w.mainRang := by rw [hw₁]
  have hn₁ : w₁.now = w.now := by simp only [now, hwh]
  obtain ⟨p', hm₂⟩ := hm₁.sound.pollJob hid hq
  have hto := hm₁.sound.pollJob_touches k
  obtain ⟨y₀, hy₀, hm₀⟩ := h.waits hrg
  have hlt : w.now < T := (h.onTime.filed y₀ hy₀).lt_when.trans_eq (h.main y₀ hy₀ hm₀)
  have hmain : ∀ y : Slotted Waker, y.item = .main →
      (y ∈ (w₁.pollJob k).wheel.entries ↔ y ∈ w.wheel.entries) := fun y hy => by
    rw [← hwh]
    exact hto.timers y (by rw [hy]; exact fun h => by cases h)
  refine ⟨p', hm₁.trans hm₂, ⟨⟨hm₂.sound, hto.onTime (hwh ▸ h.onTime), fun z hz => ?_,
    fun l e he => ?_⟩, fun z hz hzm => h.main z ((hmain z hzm).1 hz) hzm, ?_,
    fun hr => ?_, fun _ => ⟨y₀, (hmain y₀ hm₀).2 hy₀, hm₀⟩⟩,
    hto.woken.trans (hwk₁.trans hwk), hto.rang.trans (hrg₁.trans hrg), ?_, ?_⟩
  · rw [hto.now, hn₁]
    rcases hto.placed z hz with hz | hz
    · exact h.near z (hwh ▸ hz)
    · rwa [hn₁] at hz
  · -- the pending callback stays pending only if this was not its turn, or it filed its timer
    rcases hm₂.fires with ⟨rfl, -⟩ | ⟨-, -, -, hnone, -⟩
    · obtain ⟨id, hid', hd⟩ := h.due l e he
      by_cases hk : k = id
      · subst hk
        rcases h.sound.due_own he hid' hd ht with hnone | hdue
        · obtain ⟨id', hid'', -⟩ := hm₂.sound.awaits l e he
          rw [hnone] at hid''
          cases hid''
        · exact ⟨k, hdue⟩
      · have hk' : w₁.probe.pending ≠ some k := by
          rw [hpr, hid']
          exact fun h => hk (Option.some.inj h).symm
        have hd₁ : w₁.DueAt id e := hd.frame (by rw [hsl])
          (fun hin => ((List.mem_cons.1 (hperm.mem_iff.1 hin)).resolve_left fun h => hk h.symm))
          (fun y _ => by rw [hwh]) hn₁ (by rw [hdf]; exact hd.aside)
        refine ⟨id, by rw [hm₁.sound.pollJob_probe hk', hpr]; exact hid', ?_⟩
        exact hd₁.frame (hto.slot id fun h => hk h.symm) (fun hin => hto.lines ▸ hin)
          (fun y hy => hto.timers y (by rw [hy]; exact fun h => hk (Waker.job.inj h).symm))
          hto.now (by rw [hto.deferred]; exact hd₁.aside)
    · rw [hnone] at he
      cases he
  · rw [hto.now, hn₁]
    exact h.clock
  · rw [hto.rang, hrg₁, hrg] at hr
    cases hr
  · intro l e he hn
    rcases hm₂.fires with ⟨rfl, -⟩ | ⟨l', e', he', -, -, hle⟩
    · rw [he] at hn
      cases hn
    · rw [he] at he'
      obtain ⟨-, rfl⟩ := Prod.mk.inj (Option.some.inj he')
      rw [hto.now, hn₁] at hle
      exact hle.trans_lt hlt
  · have h₁ := work_takeNext ht
    have h₂ := hm₁.sound.work_pollJob k
    omega

/-! ### A whole run -/

theorem runLoop_look (fuel : Nat) (w : World) (ms : Nat) :
    World.runLoop (fuel + 1) w (.sleep ms true) none =
      if w.mainWoken then
        (if w.mainRang then { w with mainWoken := false }
          else World.runLoop fuel { w with mainWoken := false } (.sleep ms true) (some 0))
      else World.runLoop fuel w (.sleep ms true) (some 0) := rfl

/-- Every run awaiting a sleep that ends at `T` goes on until the sleep's timer rings, at `T`, if
its fuel exceeds the measure: 64 for each unit of work, and the look or the turns still to come
before the agenda next looks at the wheel. The induction follows the fuel; each iteration is a
look, a turn or a rest, and each takes from the measure. -/
theorem Sleeping.runLoop (fuel : Nat) (h : Sleeping p T w) (ms : Nat) (turns : Option Nat)
    (hturn : ∀ k, turns = some k → w.mainWoken = false ∧ w.mainRang = false)
    (hfuel : 64 * w.work + turns.getD 1 < fuel) :
    ∃ p', Moves p w p' (World.runLoop fuel w (.sleep ms true) turns) ∧
      OnSchedule p' (World.runLoop fuel w (.sleep ms true) turns) ∧
      (World.runLoop fuel w (.sleep ms true) turns).now = T ∧ FiresBefore T p p' := by
  induction fuel generalizing p w turns with
  | zero => omega
  | succ fuel ih =>
    cases turns with
    | none =>
      simp only [Option.getD_none] at hfuel
      rw [runLoop_look]
      split
      · -- the awaiting step looks, and is done once rung
        by_cases hrg : w.mainRang = true
        · rw [if_pos hrg]
          exact ⟨p, .quiet (h.sound.of_flags rfl) le_rfl rfl, h.toOnSchedule.of_flags rfl,
            (h.rang hrg).1, .refl T p⟩
        · rw [if_neg hrg]
          have hrg' : w.mainRang = false := by simpa using hrg
          have hwork : ({ w with mainWoken := false } : World).work = w.work := rfl
          have h₀ := h.unwoken hrg'
          obtain ⟨p', hm, ho, hn, hf⟩ := ih h₀ (some 0) (fun _ _ => ⟨rfl, hrg'⟩)
            (by simp only [Option.getD_some, hwork]; omega)
          exact ⟨p', Moves.trans (.quiet h₀.sound le_rfl rfl) hm, ho, hn, hf⟩
      · rename_i hwk
        have hrg : w.mainRang = false := by
          cases hr : w.mainRang
          · rfl
          · exact absurd (h.rang hr).2 hwk
        exact ih h (some 0) (fun _ _ => ⟨by simpa using hwk, hrg⟩)
          (by simp only [Option.getD_some]; omega)
    | some k =>
      obtain ⟨hwk, hrg⟩ := hturn k rfl
      simp only [Option.getD_some] at hfuel
      simp only [World.runLoop]
      split
      · -- after 61 turns the agenda looks at the wheel
        rename_i hk
        obtain ⟨w', hr⟩ := h.rest_some hrg true
        rw [hr]
        dsimp only
        obtain ⟨hm, h'⟩ := h.rest hrg (fun h => by cases h) hr
        have hwork := (rest_work h.onTime h.sound.idle hr).1
        obtain ⟨p', hm', ho, hn, hf⟩ := ih h' none (fun _ h => by cases h)
          (by simp only [Option.getD_none]; omega)
        exact ⟨p', hm.trans hm', ho, hn, hm.firesBefore (.refl T p) hf⟩
      · rename_i hk
        have ht := h.tick
        have hwork₀ : ({ w with tick := w.tick + 1 } : World).work = w.work := rfl
        split
        · -- the next ready job's turn
          rename_i id w₁ hn
          obtain ⟨p₁, hm₁, h₁, hwk₁, hrg₁, hf₁, hwork⟩ := ht.turn hwk hrg hn
          obtain ⟨p', hm', ho, hn', hf⟩ := ih h₁ (some (k + 1)) (fun _ _ => ⟨hwk₁, hrg₁⟩)
            (by simp only [Option.getD_some]; omega)
          exact ⟨p', Moves.trans (.quiet ht.sound le_rfl rfl) (hm₁.trans hm'), ho, hn',
            hm₁.firesBefore hf₁ hf⟩
        · -- nothing is ready: the agenda waits for the wheel, or takes its news
          rename_i hn
          have hlook : (!({ w with tick := w.tick + 1 } : World).deferred.isEmpty) = false := by
            show (!w.deferred.isEmpty) = false
            rw [h.sound.idle]
            rfl
          obtain ⟨w', hr⟩ := ht.rest_some hrg false
          rw [hlook, hr]
          dsimp only
          obtain ⟨hm, h'⟩ := ht.rest hrg (fun _ => takeNext_eq_none hn) hr
          have hwork := (rest_work ht.onTime ht.sound.idle hr).2 rfl hwk
          obtain ⟨p', hm', ho, hn', hf⟩ := ih h' none (fun _ h => by cases h)
            (by simp only [Option.getD_none]; omega)
          exact ⟨p', Moves.trans (.quiet ht.sound le_rfl rfl) (hm.trans hm'), ho, hn',
            hm.firesBefore (.refl T p) hf⟩

/-- What a world between two calls can ask of a run: no more than a timer job's work for each
timer, job and job in line, and one more. -/
theorem OnSchedule.work_le (h : OnSchedule p w) :
    w.work ≤ timerWork * (w.wheel.entries.length + w.jobs.length + w.ready.length + 1) := by
  have hwh : (w.wheel.entries.map (Slotted.work w.wheel.elapsed)).sum ≤
      w.wheel.entries.length * timerWork := by
    have := List.sum_le_card_nsmul (w.wheel.entries.map (Slotted.work w.wheel.elapsed)) timerWork
      fun x hx => by
        obtain ⟨y, hy, rfl⟩ := List.mem_map.1 hx
        exact (Slotted.work_lt_timerWork (h.onTime.filed y hy).level_lt (h.near y hy)).le
    rwa [List.length_map, smul_eq_mul] at this
  have hjw : jobsWork w.jobs ≤ w.jobs.length * timerWork := by
    have := List.sum_le_card_nsmul (w.jobs.map fun q => q.2.work) timerWork fun x hx => by
      obtain ⟨q, -, rfl⟩ := List.mem_map.1 hx
      exact q.2.work_le
    rwa [List.length_map, smul_eq_mul] at this
  have htw : timerWork = 891 := timerWork_eq
  have hsplit : timerWork * (w.wheel.entries.length + w.jobs.length + w.ready.length + 1) =
      w.wheel.entries.length * timerWork + w.jobs.length * timerWork +
        w.ready.length * timerWork + timerWork := by ring
  simp only [work, Wheel.work, Wheel.workAt, h.onTime.idle, List.length_nil, mul_zero, add_zero]
  rw [hsplit]
  split_ifs <;> rw [htw] at hwh hjw ⊢ <;> omega

theorem pollAwaited_sleep (w : World) (ms : Nat) :
    (w.sleepEnd ms ≤ w.now ∧ w.pollAwaited (.sleep ms false) = (w, .sleep ms false, true)) ∨
      (w.now < w.sleepEnd ms ∧ w.pollAwaited (.sleep ms false) =
        ({ w with wheel := w.wheel.place w.now (w.sleepEnd ms) .main }, .sleep ms true, false)) := by
  rcases Wheel.insert_cases w.wheel (w.sleepEnd ms) .main with ⟨hle, hi⟩ | ⟨hlt, hi⟩
  · exact .inl ⟨hle, by simp only [World.pollAwaited, hi]⟩
  · exact .inr ⟨hlt, by simp only [World.pollAwaited, hi]; rfl⟩

/-- Filing the sleep's timer starts the sleep. -/
theorem Between.sleeping {ms : Nat} (h : Between p w) (hrg : w.mainRang = false)
    (hlt : w.now < w.sleepEnd ms) :
    Sleeping p (w.sleepEnd ms) { w with wheel := w.wheel.place w.now (w.sleepEnd ms) .main } := by
  have hmem : ∀ y, y ∈ (w.wheel.place w.now (w.sleepEnd ms) .main).entries →
      y ∈ w.wheel.entries ∨ y.when = w.sleepEnd ms ∧ y.item = .main := by
    intro y hy
    rw [Wheel.place_entries, List.mem_append, List.mem_singleton] at hy
    rcases hy with hy | rfl
    · exact .inl hy
    · exact .inr ⟨rfl, rfl⟩
  have hi : w.wheel.insert (w.sleepEnd ms) .main =
      (true, w.wheel.place w.wheel.elapsed (w.sleepEnd ms) .main) := if_neg (Nat.not_le.2 hlt)
  have hon := h.onTime.insert (w.sleepEnd ms) Waker.main
  rw [hi] at hon
  have hs : ProbeSound p { w with wheel := w.wheel.place w.now (w.sleepEnd ms) .main } :=
    h.sound.wheel _ (fun j e hnb _ => hnb.place _ _ _ fun hx => by cases hx) le_rfl
  refine ⟨⟨hs, hon, fun y hy => ?_, fun l e he => ?_⟩, fun y hy hym => ?_, hlt.le,
    fun hr => absurd (hrg.symm.trans hr) Bool.false_ne_true,
    fun _ => ⟨_, List.mem_append_right _ (List.mem_singleton_self _), rfl⟩⟩
  · rcases hmem y hy with hy | ⟨hyw, -⟩
    · exact h.near y hy
    · rw [hyw]
      exact Nat.add_le_add_left (min_le_right _ _) _
  · obtain ⟨id, hid, hd⟩ := h.due l e he
    refine ⟨id, hid, hd.frame rfl (fun h => h) (fun y hyi => ⟨fun hy => ?_, fun hy => ?_⟩) rfl hd.aside⟩
    · rcases hmem y hy with hy | ⟨-, hym⟩
      · exact hy
      · rw [hyi] at hym
        cases hym
    · exact List.mem_append_left _ hy
  · rcases hmem y hy with hy | ⟨hyw, -⟩
    · exact absurd hym (h.free y hy)
    · exact hyw

theorem runLoop_woken (fuel : Nat) (w : World) (m : Awaited) (hw : w.mainWoken = true) :
    World.runLoop (fuel + 1) w m none =
      if (({ w with mainWoken := false } : World).pollAwaited m).2.2 then
        (({ w with mainWoken := false } : World).pollAwaited m).1
      else World.runLoop fuel (({ w with mainWoken := false } : World).pollAwaited m).1
        (({ w with mainWoken := false } : World).pollAwaited m).2.1 (some 0) := by
  simp only [World.runLoop, hw, ↓reduceIte]

/-- A sleep of `ms` between two calls ends exactly `min ms longestSleep` after it began, and the
pending callback fires during it only if its deadline comes before that. -/
theorem Between.runUntil (h : Between p w) (ms : Nat) :
    ∃ p', Moves p w p' (w.runUntil (.sleep ms false)) ∧ Between p' (w.runUntil (.sleep ms false)) ∧
      (w.runUntil (.sleep ms false)).now = w.now + min ms longestSleep ∧
      FiresBefore (w.now + min ms longestSleep) p p' := by
  unfold World.runUntil
  dsimp only
  generalize hS : ({ w with inside := true, mainWoken := true, signalled := false, mainRang := false } :
    World) = S
  have h₀ : Between p { S with mainWoken := false } := by
    rw [← hS]
    exact h.of_flags rfl
  have hnow : S.now = w.now := by rw [← hS]; rfl
  have hfired : S.fired = w.fired := by rw [← hS]
  have hrg : ({ S with mainWoken := false } : World).mainRang = false := by rw [← hS]
  -- the fuel allows at least the first look
  obtain ⟨F, hF⟩ : ∃ F, runFuel S = F + 1 :=
    ⟨_, (Nat.succ_pred_eq_of_pos (by unfold runFuel; omega)).symm⟩
  rw [hF, runLoop_woken F S _ (by rw [← hS])]
  rcases pollAwaited_sleep { S with mainWoken := false } ms with ⟨hle, he⟩ | ⟨hlt, he⟩ <;>
    rw [he] <;> dsimp only
  · -- a sleep of no time: the awaiting step is done at once
    rw [if_pos rfl]
    have hb := h₀.toOnSchedule.removeMain
    have hm0 : min ms longestSleep = 0 := by
      have : ({ S with mainWoken := false } : World).now + min ms longestSleep ≤
          ({ S with mainWoken := false } : World).now := hle
      generalize min ms longestSleep = m at this ⊢
      omega
    refine ⟨p, .quiet hb.sound hnow.ge hfired, hb, ?_, .refl _ p⟩
    show S.wheel.elapsed = w.now + min ms longestSleep
    rw [hm0, Nat.add_zero]
    exact hnow
  · rw [if_neg Bool.false_ne_true]
    have hs := h₀.sleeping hrg hlt
    have hφ := work_placed_lt S.now (S.sleepEnd ms) (Nat.add_le_add_left (min_le_right _ _) _)
      S.wheel.nextOrder .main
    have hp := Wheel.work_place S.wheel (S.sleepEnd ms) .main
    have hw := h₀.toOnSchedule.work_le
    have htw : timerWork = 891 := timerWork_eq
    have hfuel : 64 * ({ ({ S with mainWoken := false } : World) with
        wheel := S.wheel.place S.now (S.sleepEnd ms) .main } : World).work + (some 0).getD 1 < F := by
      have hidle : S.wheel.pending = [] := h₀.onTime.idle
      simp only [runFuel, hidle, List.length_nil, add_zero] at hF
      simp only [work, World.ready, List.length_append, Option.getD_some, now] at hp hφ hw ⊢
      rw [htw] at hφ hw hF
      rw [hp]
      split_ifs at hw ⊢ <;> omega
    obtain ⟨p', hm, ho, hn, hf⟩ := hs.runLoop F ms (some 0) (fun _ _ => ⟨rfl, hrg⟩) hfuel
    have hb := ho.removeMain
    have hend : ({ S with mainWoken := false } : World).sleepEnd ms = w.now + min ms longestSleep := by
      show S.now + min ms longestSleep = _
      rw [hnow]
    refine ⟨p', Moves.trans (.quiet hs.sound hnow.ge hfired) (hm.trans (.quiet hb.sound le_rfl rfl)),
      hb, ?_, hend ▸ hf⟩
    rw [now_removeMain]
    exact hn.trans hend

/-! ### The calls of the scenario -/

theorem Between.of_wheel (h : Between p w) (hs : ProbeSound p' w') (hw : w'.wheel = w.wheel)
    (hdue : ∀ l e, p' = some (l, e) → ∃ id, w'.probe.pending = some id ∧ w'.DueAt id e) :
    Between p' w' := by
  refine ⟨⟨hs, hw ▸ h.onTime, fun y hy => ?_, hdue⟩, fun y hy => h.free y (hw ▸ hy)⟩
  have := h.near y (hw ▸ hy)
  simpa only [now, hw] using this

theorem abort_wheel (w : World) (id : Nat) : (w.abort id).wheel = w.wheel := by
  unfold World.abort
  split
  · split
    · rfl
    · exact (wake_keeps _ id).2.2.1
  · rfl

theorem spawn_facts (w : World) (job : Job) (hfree : w.slot w.nextJob = none) :
    (w.spawn job).2.wheel = w.wheel ∧ (w.spawn job).2.deferred = w.deferred ∧
      (w.spawn job).2.probe = w.probe ∧
      (w.spawn job).2.slot w.nextJob = some ⟨job, true, none, false, none⟩ ∧
      w.nextJob ∈ (w.spawn job).2.ready := by
  obtain ⟨hwh, hd⟩ := enqueue_wheel { w with
    jobs := w.jobs ++ [(w.nextJob, ⟨job, true, none, false, none⟩)], nextJob := w.nextJob + 1 }
    w.nextJob
  refine ⟨hwh, hd, (enqueue_frame _ _).1, ?_, mem_ready_enqueue.2 (.inr rfl)⟩
  show (World.enqueue _ w.nextJob).slot w.nextJob = _
  rw [slot_enqueue, slot_added rfl hfree, if_pos rfl]

/-- Scheduling when no callback is pending makes the new job's callback pending, due at its
deadline. -/
theorem Between.spawnProbe (h : Between none w) (l : Nat) (delay : Time.Duration) :
    Between (some (l, deadline w.now delay))
      (({ w with probe := ⟨w.probe.generation + 1, some w.nextJob⟩ } : World).spawn
        (.timer (.probe l) (w.probe.generation + 1) delay false)).2 := by
  have hfree : w.slot w.nextJob = none := by
    cases hs : w.slot w.nextJob with
    | none => rfl
    | some s => exact absurd (h.sound.jobs _ s hs).1 (lt_irrefl _)
  obtain ⟨hwh, hd, hp, hslot, hin⟩ := spawn_facts
    ({ w with probe := ⟨w.probe.generation + 1, some w.nextJob⟩ } : World)
    (.timer (.probe l) (w.probe.generation + 1) delay false) hfree
  refine h.of_wheel (h.sound.spawnProbe l delay) hwh fun l' e he => ?_
  obtain ⟨-, rfl⟩ := Prod.mk.inj (Option.some.inj he)
  have hnow : (({ w with probe := ⟨w.probe.generation + 1, some w.nextJob⟩ } : World).spawn
      (.timer (.probe l) (w.probe.generation + 1) delay false)).2.now = w.now := by
    simp only [now, hwh]
  refine ⟨w.nextJob, by rw [hp], ⟨?_, ?_, fun y hy hyi => ?_, ?_⟩⟩
  · rw [hnow]
    exact Nat.le_add_right _ _
  · rw [hd, h.sound.idle]
    exact List.not_mem_nil
  · -- no timer belongs to a job not yet started
    have := (h.sound.fresh w.nextJob (y.when + 1) le_rfl).1 y (hwh ▸ hy) hyi
    omega
  · exact ⟨_, _, _, delay, false, hslot, rfl, rfl, .inl ⟨hin, fun _ => by rw [hnow]; rfl,
      fun h => by cases h⟩⟩

/-- The histories of the timer scenario in which every sleep lasts as long as it should and the
pending callback fires exactly when due: from the callback pending (the label it records and its
deadline) and the virtual time. A sleep of `ms` lasts `min ms longestSleep`, and the pending
callback fires during it exactly when its deadline comes before the sleep's end. -/
inductive Punctual : Option (Nat × Nat) → Nat → List Probed → Prop
  | nil (p : Option (Nat × Nat)) (t : Nat) : Punctual p t []
  | schedule {t i : Nat} {delay : Time.Duration} {rest : List Probed} :
      Punctual (some (i, deadline t delay)) t rest →
      Punctual none t (⟨i, .schedule delay, .bool true, [], t⟩ :: rest)
  | keep {t i : Nat} {p : Nat × Nat} {delay : Time.Duration} {rest : List Probed} :
      Punctual (some p) t rest →
      Punctual (some p) t (⟨i, .schedule delay, .bool false, [], t⟩ :: rest)
  | cancel {t i : Nat} {p : Option (Nat × Nat)} {rest : List Probed} :
      Punctual none t rest → Punctual p t (⟨i, .cancel, .bool p.isSome, [], t⟩ :: rest)
  | look {t i : Nat} {p : Option (Nat × Nat)} {rest : List Probed} :
      Punctual p t rest → Punctual p t (⟨i, .isScheduled, .bool p.isSome, [], t⟩ :: rest)
  | sleep {t i ms : Nat} {p : Option (Nat × Nat)} {rest : List Probed} :
      (∀ l e, p = some (l, e) → t + min ms longestSleep ≤ e) →
      Punctual p (t + min ms longestSleep) rest →
      Punctual p t (⟨i, .sleep ms, .null, [], t + min ms longestSleep⟩ :: rest)
  | fire {t i ms l e : Nat} {rest : List Probed} :
      e < t + min ms longestSleep → Punctual none (t + min ms longestSleep) rest →
      Punctual (some (l, e)) t (⟨i, .sleep ms, .null, [l], t + min ms longestSleep⟩ :: rest)

/-- One call of the scenario, with the logs cleared, goes as `Punctual` says, whatever the rest of
the session does from the world it leaves. -/
theorem Between.probeCall (h : Between p w) (hf : w.fired = []) (index : Nat) (c : ProbeCall)
    {rest : List Probed}
    (hrest : ∀ p', Between p' (w.probeCall index c).2 → Punctual p' (w.probeCall index c).2.now rest) :
    Punctual p w.now (⟨index, c, (w.probeCall index c).1, (w.probeCall index c).2.fired,
      (w.probeCall index c).2.now⟩ :: rest) := by
  cases c with
  | schedule delay =>
    simp only [World.probeCall, schedule_probe] at hrest ⊢
    by_cases hs : w.probe.pending.isSome = true
    · -- a callback is pending: nothing changes
      simp only [hs, ↓reduceIte] at hrest ⊢
      cases p with
      | none =>
        rw [h.sound.none_of rfl] at hs
        cases hs
      | some pe =>
        rw [hf]
        exact .keep (hrest _ h)
    · simp only [hs, Bool.false_eq_true, ↓reduceIte] at hrest ⊢
      have hp : p = none := by
        cases p with
        | none => rfl
        | some pe =>
          obtain ⟨id, hid, -⟩ := h.sound.awaits pe.1 pe.2 rfl
          rw [hid] at hs
          exact absurd rfl hs
      subst hp
      obtain ⟨hn, hf'⟩ := spawn_frame ({ w with probe := ⟨w.probe.generation + 1, some w.nextJob⟩ } :
        World) (.timer (.probe index) (w.probe.generation + 1) delay false)
      have hn' : _ = w.now := hn
      have hf'' : _ = [] := hf'.trans hf
      have h₁ := hrest _ (h.spawnProbe index delay)
      rw [hn'] at h₁ ⊢
      rw [hf'']
      exact .schedule h₁
  | cancel =>
    simp only [World.probeCall, cancelTimer_probe] at hrest ⊢
    have h₀ := h.sound.bump
    cases hp : w.probe.pending with
    | some job =>
      simp only [hp] at hrest ⊢
      obtain ⟨h₁, hn, hf'⟩ := h₀.abort job fun _ _ he => by cases he
      have hsome : p.isSome = true := by
        cases p with
        | none =>
          rw [h.sound.none_of rfl] at hp
          cases hp
        | some pe => rfl
      rw [hn, hf', hf, ← hsome]
      exact .cancel (hn ▸ hrest _ (h.of_wheel h₁ (abort_wheel _ job) fun _ _ he => by cases he))
    | none =>
      simp only [hp] at hrest ⊢
      have hnone : p.isSome = false := by
        cases p with
        | none => rfl
        | some pe =>
          obtain ⟨id, hid, -⟩ := h.sound.awaits pe.1 pe.2 rfl
          rw [hid] at hp
          cases hp
      rw [hf, ← hnone]
      exact .cancel (hrest _ (h.of_wheel h₀ rfl fun _ _ he => by cases he))
  | isScheduled =>
    simp only [World.probeCall] at hrest ⊢
    have hlook : w.probe.scheduled = p.isSome := by
      cases p with
      | none => rw [Debounce.scheduled, h.sound.none_of rfl]; rfl
      | some pe =>
        obtain ⟨id, hid, -⟩ := h.sound.awaits pe.1 pe.2 rfl
        rw [Debounce.scheduled, hid]
        rfl
    rw [hf, hlook]
    exact .look (hrest _ h)
  | sleep ms =>
    simp only [World.probeCall] at hrest ⊢
    obtain ⟨p', hm, h', hn, hfb⟩ := h.runUntil ms
    rw [hn] at hrest ⊢
    rcases hm.fires with ⟨rfl, hfe⟩ | ⟨l, e, rfl, rfl, hfe, -⟩
    · -- nothing fired: the callback, if pending, is due at the sleep's end or later
      rw [hfe, hf]
      refine .sleep (fun l e he => ?_) (hrest _ h')
      obtain ⟨id, -, hd⟩ := h'.due l e he
      exact hn ▸ hd.clock
    · rw [hfe, hf, List.nil_append]
      exact .fire (hfb l e rfl rfl) (hrest _ h')

theorem Between.probeSession (h : Between p w) (index : Nat) (calls : List ProbeCall) :
    Punctual p w.now (w.probeSession index calls).1 := by
  induction calls generalizing p w index with
  | nil => exact .nil p w.now
  | cons c rest ih =>
    have h₀ : Between p w.clearLogs := h.of_flags rfl
    exact h₀.probeCall rfl index c fun p' h' => ih h' (index + 1)

theorem between_init (depot : Depot) (runnerKind : RunnerKind) (transport : Transport) :
    Between none (World.init depot runnerKind transport) :=
  ⟨⟨probeSound_init depot runnerKind transport, Wheel.OnTime.empty, fun _ h => (by cases h),
    fun _ _ h => (by cases h)⟩, fun _ h => (by cases h)⟩

end World

/-- The timer scenario keeps every callback to its deadline on every input: what it prints is the
history of a session making the input's calls in order, from virtual time zero with no callback
pending, in which each sleep of `ms` lasts `min ms longestSleep` and the pending callback fires
during the first sleep that ends after its deadline, `min (ceil delay) longestSleep` after it was
scheduled, unless cancelled first. -/
theorem timer_fires_at_capped_deadline (input : Value) :
    ∃ hist : List World.Probed, World.Punctual none 0 hist ∧
      hist.map World.Probed.call = (input.arrayAt "steps").map World.ProbeCall.ofStep ∧
      timerCheck input = .object [("steps", .array (hist.map World.Probed.value))] := by
  let start := World.init ⟨Store.MemoryStore.empty, Instant.epoch, []⟩ .scripted ⟨[]⟩
  let calls := (input.arrayAt "steps").map World.ProbeCall.ofStep
  refine ⟨(start.probeSession 0 calls).1, (World.between_init _ _ _).probeSession 0 calls,
    World.probeSession_calls _ _ _, ?_⟩
  exact congrArg (fun v => Value.object [("steps", .array v)]) (start.probeSteps_eq 0 _)

end Outbox.Scenario
