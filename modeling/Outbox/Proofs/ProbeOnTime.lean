import Mathlib
import Outbox.Proofs.AgendaOnTime
import Outbox.Proofs.WheelWork

/-!
Turns and rests of the timer scenario, as they bear on time.

A job's turn changes only that job, its timers and the probe (`OnlyTouches`); the pending
callback's own turn files its timer at its deadline or fires it then. `World.work` bounds what the
jobs, their timers and the lines can still ask of a run: a turn takes one unit away, a rest adds no
work beyond what it fires, and a rest that waits or takes news takes away one unit more.
-/

set_option autoImplicit false

namespace Outbox.Scenario

open Outbox.Time

namespace World

variable {p : Option (Nat × Nat)} {w w' w₁ w₂ w₃ : World} {k : Nat}

/-! ### Changes that touch one job -/

/-- `w'` differs from `w` at most in job `k`, its timers and the probe: the other jobs, the lines,
the other timers, the clock, what is put aside and the awaiting step's flags stay, the wheel
keeps time if it did, and a timer it gains is due within the longest sleep. -/
structure OnlyTouches (w w' : World) (k : Nat) : Prop where
  slot : ∀ j, j ≠ k → w'.slot j = w.slot j
  lines : w'.ready = w.ready
  timers : ∀ y : Slotted Waker, y.item ≠ .job k → (y ∈ w'.wheel.entries ↔ y ∈ w.wheel.entries)
  now : w'.now = w.now
  deferred : w'.deferred = w.deferred
  onTime : w.wheel.OnTime → w'.wheel.OnTime
  woken : w'.mainWoken = w.mainWoken
  rang : w'.mainRang = w.mainRang
  unparked : w'.unparked = w.unparked
  placed : ∀ y ∈ w'.wheel.entries, y ∈ w.wheel.entries ∨ y.when ≤ w.now + longestSleep

namespace OnlyTouches

theorem refl (w : World) (k : Nat) : OnlyTouches w w k :=
  ⟨fun _ _ => rfl, rfl, fun _ _ => Iff.rfl, rfl, rfl, id, rfl, rfl, rfl, fun _ h => .inl h⟩

theorem trans (h₁ : OnlyTouches w₁ w₂ k) (h₂ : OnlyTouches w₂ w₃ k) : OnlyTouches w₁ w₃ k :=
  ⟨fun j hj => (h₂.slot j hj).trans (h₁.slot j hj), h₂.lines.trans h₁.lines,
    fun y hy => (h₂.timers y hy).trans (h₁.timers y hy), h₂.now.trans h₁.now,
    h₂.deferred.trans h₁.deferred, fun h => h₂.onTime (h₁.onTime h), h₂.woken.trans h₁.woken,
    h₂.rang.trans h₁.rang, h₂.unparked.trans h₁.unparked,
    fun y hy => (h₂.placed y hy).elim (h₁.placed y) fun h => .inr (h₁.now ▸ h)⟩

theorem flags (w w' : World) (k : Nat) (hj : w'.jobs = w.jobs) (hl : w'.localQueue = w.localQueue)
    (hi : w'.injectQueue = w.injectQueue) (hw : w'.wheel = w.wheel) (hd : w'.deferred = w.deferred)
    (ho : w'.mainWoken = w.mainWoken) (hr : w'.mainRang = w.mainRang)
    (hu : w'.unparked = w.unparked) : OnlyTouches w w' k := by
  refine ⟨fun j _ => by simp only [World.slot, hj], by simp only [World.ready, hl, hi],
    fun y _ => by rw [hw], by simp only [World.now, hw], hd, fun h => hw ▸ h, ho, hr, hu,
    fun y hy => .inl (hw ▸ hy)⟩

theorem modifySlot (w : World) (k : Nat) (f : JobSlot → JobSlot) :
    OnlyTouches w (w.modifySlot k f) k :=
  ⟨fun _ hj => slot_modifySlot_ne hj, rfl, fun _ _ => Iff.rfl, rfl, rfl, id, rfl, rfl, rfl,
    fun _ h => .inl h⟩

theorem remove (w : World) (k : Nat) :
    OnlyTouches w { w with wheel := w.wheel.remove (· == Waker.job k) } k := by
  refine ⟨fun _ _ => rfl, rfl, fun y hy => ?_, rfl, rfl,
    fun h => Wheel.OnTime.remove h (· == Waker.job k), rfl, rfl, rfl,
    fun _ h => .inl (List.mem_of_mem_filter h)⟩
  simp only [Wheel.remove, List.mem_filter, Bool.not_eq_true']
  constructor
  · exact fun h => h.1
  · intro h'
    exact ⟨h', by simpa using hy⟩

theorem place (w : World) (k when : Nat) (hlt : w.wheel.elapsed < when)
    (hnear : when ≤ w.now + longestSleep) :
    OnlyTouches w { w with wheel := w.wheel.place w.wheel.elapsed when (.job k) } k := by
  refine ⟨fun _ _ => rfl, rfl, fun y hy => ?_, rfl, rfl, fun h => ?_, rfl, rfl, rfl, fun y hy => ?_⟩
  · simp only [Wheel.place_entries, List.mem_append, List.mem_singleton]
    constructor
    · rintro (h | rfl)
      · exact h
      · exact absurd rfl hy
    · exact .inl
  · have := h.insert when (Waker.job k)
    rwa [Wheel.insert, if_neg (Nat.not_le.2 hlt)] at this
  · simp only [Wheel.place_entries, List.mem_append, List.mem_singleton] at hy
    rcases hy with hy | rfl
    · exact .inl hy
    · exact .inr hnear

theorem finish (w : World) (k : Nat) (hj : ∀ s, w.slot k = some s → s.joiner = none) :
    OnlyTouches w (w.finish k none) k := by
  rw [finish_eq w k none hj]
  exact modifySlot w k _

end OnlyTouches

/-! ### The turn of a job -/

/-- The world as job `k`'s turn begins: it is marked out of line and has a whole budget. -/
def turnStart (w : World) (k : Nat) : World :=
  { w.modifySlot k (fun s => { s with queued := false }) with budget := turnBudget }

theorem pollTimer_armed (w : World) (id : Nat) (o : TimerOwner) (g : Nat) (d : Time.Duration) :
    w.pollTimer id o g d true = (w.fireTimer o g, .ready) := rfl

theorem pollTimer_due {id : Nat} {o : TimerOwner} {g : Nat} {d : Time.Duration}
    (h : w.sleepEnd d.ceilMillis ≤ w.wheel.elapsed) :
    w.pollTimer id o g d false = (w.fireTimer o g, .ready) := by
  have hi : w.wheel.insert (w.sleepEnd d.ceilMillis) (.job id) = (false, w.wheel) := if_pos h
  simp only [pollTimer, hi, Bool.false_eq_true, ↓reduceIte]

theorem pollTimer_files {id : Nat} {o : TimerOwner} {g : Nat} {d : Time.Duration}
    (h : w.wheel.elapsed < w.sleepEnd d.ceilMillis) :
    w.pollTimer id o g d false =
      (({ w with wheel := w.wheel.place w.wheel.elapsed (w.sleepEnd d.ceilMillis) (.job id) } :
        World).modifySlot id fun s => { s with job := .timer o g d true }, .pending) := by
  have hi : w.wheel.insert (w.sleepEnd d.ceilMillis) (.job id) =
      (true, w.wheel.place w.wheel.elapsed (w.sleepEnd d.ceilMillis) (.job id)) :=
    if_neg (Nat.not_le.2 h)
  simp only [pollTimer, hi, Bool.false_eq_true, ↓reduceIte]

/-- How job `k`'s turn goes in the timer scenario: nothing happens to a job that is gone, an ended
job is only marked out of line, a cancelled one ends with its timers, an armed one or one whose
delay is over fires and ends, and any other files its timer at the end of its delay. -/
theorem ProbeSound.pollJob_cases (h : ProbeSound p w) (k : Nat) :
    (w.slot k = none ∧ w.pollJob k = w) ∨
    (∃ s, w.slot k = some s ∧ s.finished.isSome ∧
      w.pollJob k = w.modifySlot k fun s => { s with queued := false }) ∨
    (∃ s, w.slot k = some s ∧ s.finished = none ∧ s.cancelled = true ∧
      w.pollJob k = ({ w.modifySlot k (fun s => { s with queued := false }) with
        wheel := w.wheel.remove (· == Waker.job k) } : World).finish k none) ∨
    (∃ s l g d a, w.slot k = some s ∧ s.finished = none ∧ s.cancelled = false ∧
      s.job = .timer (.probe l) g d a ∧
      ((a = true ∨ w.sleepEnd d.ceilMillis ≤ w.now) ∧
          w.pollJob k = ((w.turnStart k).fireTimer (.probe l) g).finish k none ∨
        a = false ∧ w.now < w.sleepEnd d.ceilMillis ∧
          w.pollJob k = ({ w.turnStart k with
            wheel := w.wheel.place w.now (w.sleepEnd d.ceilMillis) (.job k) } : World).modifySlot k
              fun s => { s with job := .timer (.probe l) g d true })) := by
  cases hs : w.slot k with
  | none => exact .inl ⟨rfl, pollJob_of_none hs⟩
  | some s =>
    cases hfin : s.finished with
    | some r =>
      refine .inr (.inl ⟨s, rfl, by rw [hfin]; rfl, ?_⟩)
      simp only [World.pollJob, hs, hfin, Option.isSome_some, ↓reduceIte]
    | none =>
      cases hc : s.cancelled with
      | true =>
        refine .inr (.inr (.inl ⟨s, rfl, hfin, hc, ?_⟩))
        simp only [World.pollJob, hs, hfin, hc, Option.isSome_none, Bool.false_eq_true, ↓reduceIte]
        rfl
      | false =>
        obtain ⟨-, -, l, g, d, a, hjob, -⟩ := h.jobs k s hs
        have hlive : w.pollJob k =
            endTurn k ((w.turnStart k).pollTimer k (.probe l) g d a) := by
          rw [pollJob_live hs hfin hc, hjob]
          rfl
        refine .inr (.inr (.inr ⟨s, l, g, d, a, rfl, hfin, hc, hjob, ?_⟩))
        rw [hlive]
        cases a with
        | true => exact .inl ⟨.inl rfl, by rw [pollTimer_armed]; rfl⟩
        | false =>
          rcases Nat.lt_or_ge w.now (w.sleepEnd d.ceilMillis) with hlt | hle
          · exact .inr ⟨rfl, hlt, by rw [pollTimer_files (w := w.turnStart k) hlt]; rfl⟩
          · exact .inl ⟨.inr hle, by rw [pollTimer_due (w := w.turnStart k) hle]; rfl⟩

theorem slot_turnStart (w : World) (k j : Nat) :
    (w.turnStart k).slot j = (w.modifySlot k fun s => { s with queued := false }).slot j := rfl

theorem OnlyTouches.turnStart (w : World) (k : Nat) : OnlyTouches w (w.turnStart k) k :=
  (OnlyTouches.modifySlot w k fun s => { s with queued := false }).trans
    (.flags _ _ k rfl rfl rfl rfl rfl rfl rfl rfl)

theorem slot_fireTimer_probe (w : World) (l g j : Nat) :
    (w.fireTimer (.probe l) g).slot j = w.slot j := by
  rw [fireTimer_probe]
  split <;> rfl

theorem OnlyTouches.fireTimer (w : World) (k l g : Nat) :
    OnlyTouches w (w.fireTimer (.probe l) g) k := by
  rw [fireTimer_probe]
  split
  · exact .flags _ _ k rfl rfl rfl rfl rfl rfl rfl rfl
  · exact .refl w k

theorem ProbeSound.pollJob_touches (h : ProbeSound p w) (k : Nat) :
    OnlyTouches w (w.pollJob k) k := by
  have hjo : ∀ s, (w.modifySlot k fun s => { s with queued := false }).slot k = some s →
      s.joiner = none := by
    intro s hs
    rw [slot_modifySlot, if_pos rfl] at hs
    obtain ⟨s₀, hk, rfl⟩ := Option.map_eq_some_iff.1 hs
    exact (h.jobs k s₀ hk).2.1
  rcases h.pollJob_cases k with ⟨-, he⟩ | ⟨s, -, -, he⟩ | ⟨s, hs, -, -, he⟩ |
    ⟨s, l, g, d, a, hs, -, -, -, ⟨-, he⟩ | ⟨-, hlt, he⟩⟩ <;> rw [he]
  · exact .refl w k
  · exact .modifySlot w k _
  · exact (OnlyTouches.modifySlot w k _).trans ((OnlyTouches.remove _ k).trans (.finish _ k hjo))
  · exact ((OnlyTouches.turnStart w k).trans (.fireTimer _ k l g)).trans
      (.finish _ k fun s hs => hjo s (by rwa [slot_fireTimer_probe] at hs))
  · exact (OnlyTouches.turnStart w k).trans
      ((OnlyTouches.place (w.turnStart k) k _ hlt (Nat.add_le_add_left (min_le_right _ _) _)).trans
        (.modifySlot _ k _))

theorem probe_finish (w : World) (k : Nat) (panic : Option String) :
    (w.finish k panic).probe = w.probe := by
  unfold finish
  dsimp only
  split
  · exact (wake_frame _ _).1
  · rfl
  · rfl

theorem ProbeSound.pollJob_probe (h : ProbeSound p w) (hk : w.probe.pending ≠ some k) :
    (w.pollJob k).probe = w.probe := by
  rcases h.pollJob_cases k with ⟨-, he⟩ | ⟨s, -, -, he⟩ | ⟨s, -, -, -, he⟩ |
    ⟨s, l, g, d, a, hs, hf, hc, hjob, ⟨-, he⟩ | ⟨-, -, he⟩⟩ <;> rw [he]
  · rfl
  · exact probe_finish _ k none
  · rw [probe_finish, fireTimer_probe, if_neg]
    · rfl
    intro hg
    have hg' : g = w.probe.generation := hg.symm
    exact hk (h.live k s l d a hs (by rw [hjob, hg']) hf hc)
  · rfl

theorem takeNext_eq_none (ht : w.takeNext = none) : w.ready = [] := by
  unfold takeNext at ht
  cases hi : w.injectQueue <;> cases hl : w.localQueue
  · simp only [ready, hi, hl, List.append_nil]
  all_goals
    simp only [hi, hl, HOrElse.hOrElse, OrElse.orElse, Option.orElse, ite_self] at ht
    (try split at ht) <;> cases ht

end World

/-! ### Work left to a run -/

/-- What a live job can still ask of a run: a turn and a timer before a timer job is armed, and
one turn otherwise. -/
def Job.work : Job → Nat
  | .timer _ _ _ false => World.timerWork
  | _ => 1

/-- What a job can still ask of a run: nothing once it has ended, one turn once cancelled. -/
def JobSlot.work (s : JobSlot) : Nat :=
  if s.finished.isSome then 0 else if s.cancelled then 1 else s.job.work

theorem World.one_le_timerWork : 1 ≤ World.timerWork := by decide

theorem Job.one_le_work (j : Job) : 1 ≤ j.work := by
  cases j with
  | timer o g d a =>
    cases a with
    | true => exact le_rfl
    | false => exact World.one_le_timerWork
  | pass => exact le_rfl
  | watch => exact le_rfl

theorem Job.work_le (j : Job) : j.work ≤ World.timerWork := by
  cases j with
  | timer o g d a =>
    cases a with
    | true => exact World.one_le_timerWork
    | false => exact le_rfl
  | pass => exact World.one_le_timerWork
  | watch => exact World.one_le_timerWork

theorem JobSlot.work_le (s : JobSlot) : s.work ≤ World.timerWork := by
  unfold JobSlot.work
  split_ifs
  · exact Nat.zero_le _
  · exact World.one_le_timerWork
  · exact s.job.work_le

def jobsWork (jobs : List (Nat × JobSlot)) : Nat := (jobs.map fun p => p.2.work).sum

namespace World

variable {p : Option (Nat × Nat)} {w w' : World} {k : Nat}

/-- What a world can still ask of a run: its timers, its jobs, the jobs in line, and news to take. -/
def work (w : World) : Nat :=
  w.wheel.work + jobsWork w.jobs + w.ready.length + if w.unparked then 1 else 0

theorem timerWork_eq : timerWork = 891 := rfl

theorem Slotted.work_lt_timerWork {y : Slotted Waker} {base : Nat} (hl : y.level < Wheel.levels)
    (hw : y.when ≤ base + longestSleep) : y.work base < timerWork := by
  have hS : Wheel.slotRange (Wheel.levels - 1) = 1073741824 := rfl
  have hL : longestSleep = 946080000000 := rfl
  rw [Slotted.work, hS, timerWork_eq]
  simp only [Wheel.levels] at hl ⊢
  rw [hL] at hw
  omega

theorem work_placed_lt (base when : Nat) (hw : when ≤ base + longestSleep) (o : Nat) (x : Waker) :
    (⟨when, Wheel.levelFor base when, Wheel.slotFor when (Wheel.levelFor base when), o, x⟩ :
      Slotted Waker).work base < timerWork :=
  Slotted.work_lt_timerWork (Wheel.levelFor_lt base when) hw


theorem jobsWork_map_le (L : List (Nat × JobSlot)) (k : Nat) (f : JobSlot → JobSlot)
    (hf : ∀ s, (f s).work ≤ s.work) :
    jobsWork (L.map fun p => if p.1 = k then (p.1, f p.2) else p) +
      ((L.lookup k).map fun s => s.work - (f s).work).getD 0 ≤ jobsWork L := by
  induction L with
  | nil => simp [jobsWork]
  | cons q rest ih =>
    obtain ⟨i, t⟩ := q
    simp only [jobsWork, List.map_cons, List.sum_cons, lookup_cons_nat] at ih ⊢
    by_cases hik : i = k
    · subst hik
      simp only [if_true, Option.map_some, Option.getD_some]
      have := hf t
      omega
    · simp only [hik, if_false, Ne.symm hik]
      omega

theorem jobsWork_modifySlot {s : JobSlot} (hs : w.slot k = some s) (f : JobSlot → JobSlot)
    (hf : ∀ s, (f s).work ≤ s.work) :
    jobsWork (w.modifySlot k f).jobs + (s.work - (f s).work) ≤ jobsWork w.jobs := by
  have := jobsWork_map_le w.jobs k f hf
  simp only [slot] at hs
  rwa [hs, Option.map_some, Option.getD_some] at this

theorem jobsWork_modifySlot_le (w : World) (k : Nat) (f : JobSlot → JobSlot)
    (hf : ∀ s, (f s).work ≤ s.work) : jobsWork (w.modifySlot k f).jobs ≤ jobsWork w.jobs :=
  le_trans (Nat.le_add_right _ _) (jobsWork_map_le w.jobs k f hf)

theorem Wheel.work_place (wh : Wheel Waker) (when : Nat) (x : Waker) :
    (wh.place wh.elapsed when x).work = wh.work +
      (⟨when, Wheel.levelFor wh.elapsed when, Wheel.slotFor when (Wheel.levelFor wh.elapsed when),
        wh.nextOrder, x⟩ : Slotted Waker).work wh.elapsed := by
  simp only [Wheel.work, Wheel.workAt, Wheel.place_entries, Wheel.place_pending, Wheel.place_elapsed,
    List.map_append, List.sum_append, List.map_cons, List.map_nil, List.sum_cons, List.sum_nil]
  omega

theorem Wheel.work_remove_le (wh : Wheel Waker) (q : Waker → Bool) : (wh.remove q).work ≤ wh.work := by
  have he : ((wh.entries.filter fun e => !q e.item).map (Slotted.work wh.elapsed)).sum ≤
      (wh.entries.map (Slotted.work wh.elapsed)).sum :=
    (List.filter_sublist.map _).sum_le_sum fun _ _ => Nat.zero_le _
  have hp : (wh.pending.filter fun x => !q x).length ≤ wh.pending.length :=
    List.filter_sublist.length_le
  simp only [Wheel.work, Wheel.workAt, Wheel.remove]
  omega

theorem work_le_of (hw : w'.wheel.work ≤ w.wheel.work) (hr : w'.ready = w.ready)
    (hu : w'.unparked = w.unparked) (hj : jobsWork w'.jobs ≤ jobsWork w.jobs) : w'.work ≤ w.work := by
  simp only [work, hr, hu]
  omega

theorem fireTimer_probe_eq (w : World) (l g : Nat) :
    ∃ pr f, w.fireTimer (.probe l) g = { w with probe := pr, fired := f } := by
  rw [fireTimer_probe]
  split
  · exact ⟨_, _, rfl⟩
  · exact ⟨w.probe, w.fired, rfl⟩

theorem work_finish (w : World) (k : Nat) (hj : ∀ s, w.slot k = some s → s.joiner = none) :
    (w.finish k none).work ≤ w.work := by
  rw [finish_eq w k none hj]
  exact work_le_of le_rfl rfl rfl (jobsWork_modifySlot_le w k _ fun s => by simp [JobSlot.work])

theorem JobSlot.work_arm (s : JobSlot) (o : TimerOwner) (g : Nat) (d : Time.Duration) :
    ({ s with job := .timer o g d true } : JobSlot).work ≤ s.work := by
  unfold JobSlot.work
  split_ifs
  · exact le_rfl
  · exact le_rfl
  · exact s.job.one_le_work

/-- A job's turn in the timer scenario asks nothing new of the run: filing a timer costs less than
the job gives up by filing it. -/
theorem ProbeSound.work_pollJob (h : ProbeSound p w) (k : Nat) : (w.pollJob k).work ≤ w.work := by
  have hjo : ∀ s, (w.modifySlot k fun s => { s with queued := false }).slot k = some s →
      s.joiner = none := by
    intro s hs
    rw [slot_modifySlot, if_pos rfl] at hs
    obtain ⟨s₀, hk, rfl⟩ := Option.map_eq_some_iff.1 hs
    exact (h.jobs k s₀ hk).2.1
  have hq : jobsWork (w.modifySlot k fun s => { s with queued := false }).jobs ≤ jobsWork w.jobs :=
    jobsWork_modifySlot_le w k _ fun _ => le_of_eq rfl
  rcases h.pollJob_cases k with ⟨-, he⟩ | ⟨s, -, -, he⟩ | ⟨s, hs, -, -, he⟩ |
    ⟨s, l, g, d, a, hs, hf, hc, hjob, ⟨-, he⟩ | ⟨ha, hlt, he⟩⟩ <;> rw [he]
  · exact work_le_of le_rfl rfl rfl hq
  · -- a cancelled job ends, and its timers go
    exact (work_finish { w.modifySlot k (fun s => { s with queued := false }) with
      wheel := w.wheel.remove (· == Waker.job k) } k hjo).trans
        (work_le_of (Wheel.work_remove_le w.wheel (· == Waker.job k)) rfl rfl hq)
  · obtain ⟨pr, f, hft⟩ := fireTimer_probe_eq (w.turnStart k) l g
    rw [hft]
    exact (work_finish ({ w.turnStart k with probe := pr, fired := f } : World) k hjo).trans
      (work_le_of le_rfl rfl rfl hq)
  · -- the job gives up more than the timer it files asks
    have hs' : ({ w.turnStart k with
        wheel := w.wheel.place w.now (w.sleepEnd d.ceilMillis) (.job k) } : World).slot k =
          some { s with queued := false } :=
      (slot_turnStart w k k).trans (slot_modifySlot_of hs _)
    have hj := jobsWork_modifySlot hs' (fun s => { s with job := .timer (.probe l) g d true })
      fun s => JobSlot.work_arm s _ _ _
    have hwork : ({ s with queued := false } : JobSlot).work = timerWork := by
      simp [JobSlot.work, Job.work, hf, hc, hjob, ha]
    have hwork' : ((fun s : JobSlot => { s with job := Job.timer (.probe l) g d true })
        { s with queued := false }).work = 1 := by
      simp [JobSlot.work, Job.work, hf, hc]
    have hφ := work_placed_lt w.now (w.sleepEnd d.ceilMillis)
      (Nat.add_le_add_left (min_le_right _ _) _) w.wheel.nextOrder (.job k)
    have hp := Wheel.work_place w.wheel (w.sleepEnd d.ceilMillis) (.job k)
    rw [hwork, hwork'] at hj
    simp only [work, World.ready, modifySlot, turnStart, now] at hj hp hq hφ ⊢
    have := timerWork_eq
    omega

theorem work_takeNext {id : Nat} (ht : w.takeNext = some (id, w')) : w'.work + 1 = w.work := by
  obtain ⟨hperm, hw'⟩ := takeNext_cases ht
  have hl := hperm.length_eq
  rw [List.length_cons] at hl
  have hwh : w'.wheel = w.wheel := by rw [hw']
  have hj : w'.jobs = w.jobs := by rw [hw']
  have hu : w'.unparked = w.unparked := by rw [hw']
  simp only [work, hwh, hj, hu]
  omega

theorem work_wake (w : World) (k : Nat) : (w.wake k).work ≤ w.work + 2 := by
  rcases wake_cases w k with hw | ⟨s, -, -, -, hw⟩ <;> rw [hw]
  · omega
  · have hj := jobsWork_modifySlot_le w k (fun s => { s with queued := true }) fun _ => le_of_eq rfl
    rcases enqueue_cases (w.modifySlot k fun s => { s with queued := true }) k with he | he <;>
      rw [he] <;> simp only [work, ready, modifySlot, List.length_append, List.length_singleton] at hj ⊢ <;>
      split_ifs <;> omega

theorem work_ring (w : World) (x : Waker) : (w.ring x).work ≤ w.work + 2 := by
  cases x with
  | job k => exact work_wake w k
  | main =>
    simp only [ring, wakeMain, work, ready]
    split_ifs <;> omega

theorem work_foldl_ring (L : List Waker) (w : World) :
    (L.foldl ring w).work ≤ w.work + 2 * L.length := by
  induction L generalizing w with
  | nil => simp
  | cons x rest ih =>
    have h₁ := ih (w.ring x)
    have h₂ := work_ring w x
    simp only [List.foldl_cons, List.length_cons]
    omega

theorem work_polledAt (hw : w.wheel.OnTime) (hd : w.deferred = []) {t : Nat}
    (ht : ∀ y ∈ w.wheel.entries, t ≤ Wheel.slotDue w.wheel.elapsed y.level y.slot) :
    (w.polledAt t).work ≤ w.work ∧ (w.wheel.nextTime = some t → (w.polledAt t).work < w.work) := by
  obtain ⟨h₁, h₂⟩ := hw.work_poll ht
  have hring := work_foldl_ring (w.wheel.poll t).1 { w with wheel := (w.wheel.poll t).2 }
  have hpol : (w.polledAt t).work =
      ((w.wheel.poll t).1.foldl ring { w with wheel := (w.wheel.poll t).2 }).work := by
    rw [polledAt_of_idle hd]
    rfl
  have hbase : ({ w with wheel := (w.wheel.poll t).2 } : World).work + w.wheel.work =
      w.work + (w.wheel.poll t).2.work := by
    simp only [work, ready]
    omega
  rw [hpol]
  exact ⟨by omega, fun hn => by have := h₂ hn; omega⟩

/-- A rest adds no work beyond what it fires; one that neither looks nor has the awaiting step to
wake takes news or waits, and either takes a unit away. -/
theorem rest_work (hw : w.wheel.OnTime) (hd : w.deferred = []) {look : Bool}
    (hr : w.rest look = some w') :
    w'.work ≤ w.work ∧ (look = false → w.mainWoken = false → w'.work < w.work) := by
  have hnow : ∀ y ∈ w.wheel.entries, w.now ≤ Wheel.slotDue w.wheel.elapsed y.level y.slot :=
    fun y hy => (Wheel.slotDue_spec _ _ (hw.filed y hy).slot_lt).1.le
  have hnews : ({ w with unparked := false } : World).work ≤ w.work := by
    simp only [work, ready, Bool.false_eq_true, ↓reduceIte]
    omega
  unfold World.rest at hr
  obtain ⟨⟨w₁, t⟩, hm, he⟩ := Option.map_eq_some_iff.1 hr
  have he' : w' = w₁.polledAt t := he.symm
  subst he'
  split at hm
  · rename_i t' ht'
    have hlt := hw.lt_nextTime ht'
    split at hm
    · rename_i hle
      simp only [now] at hle
      omega
    · split at hm
      · -- news taken: the agenda heard of something
        rename_i hlu
        simp only [Option.some.injEq, Prod.mk.injEq] at hm
        obtain ⟨rfl, rfl⟩ := hm
        have hwk := work_polledAt (w := { w with unparked := false }) hw hd hnow
        refine ⟨hwk.1.trans hnews, fun hl _ => ?_⟩
        have hu : w.unparked = true := by simpa [hl] using hlu
        have : ({ w with unparked := false } : World).work + 1 = w.work := by
          simp only [work, ready, hu]
          rfl
        omega
      · -- waiting until the wheel next needs attention
        simp only [Option.some.injEq, Prod.mk.injEq] at hm
        obtain ⟨rfl, rfl⟩ := hm
        have hwk := work_polledAt hw hd (hw.nextTime_le ht')
        exact ⟨hwk.1, fun _ _ => hwk.2 ht'⟩
  · split at hm
    · rename_i hlm
      simp only [Option.some.injEq, Prod.mk.injEq] at hm
      obtain ⟨rfl, rfl⟩ := hm
      have hwk := work_polledAt (w := { w with unparked := false }) hw hd hnow
      refine ⟨hwk.1.trans hnews, fun hl hmw => ?_⟩
      simp [hl, hmw] at hlm
    · cases hm

end World

end Outbox.Scenario
