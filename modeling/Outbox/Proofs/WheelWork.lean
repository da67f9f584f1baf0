import Mathlib
import Outbox.Proofs.WheelOnTime

/-!
How much a timing wheel on time can still ask of the loop that drives it.

A timer is looked at once for each level it can still move down, once for each top-level slot
span it still has to wait across, and once more to fire: `Slotted.work` counts its level, the
top-level spans left and three, and a timer already pending counts two. Bringing the wheel to a
time no slot is due before never adds work beyond what it fires, and bringing it to the time it
next needs attention takes away at least one unit more (`OnTime.work_poll`): the expiration it
processes fires each of its timers or moves it down a level, or, at the top level, past a span.
-/

set_option autoImplicit false

namespace Outbox.Time

def Slotted.work {α : Type} (base : Nat) (y : Slotted α) : Nat :=
  y.level + 3 + (y.when / Wheel.slotRange (Wheel.levels - 1) - base / Wheel.slotRange (Wheel.levels - 1))

theorem Slotted.work_antitone {α : Type} {b b' : Nat} (h : b ≤ b') (y : Slotted α) :
    y.work b' ≤ y.work b := by
  have := Nat.div_le_div_right (c := Wheel.slotRange (Wheel.levels - 1)) h
  unfold Slotted.work
  omega

namespace Wheel

variable {α : Type} {w : Wheel α} {E : Nat} {y : Slotted α}

/-- What the timers of `w` can still ask of it, counted from `base`. -/
def workAt (base : Nat) (w : Wheel α) : Nat :=
  (w.entries.map (Slotted.work base)).sum + 2 * w.pending.length

def work (w : Wheel α) : Nat := w.workAt w.elapsed

theorem workAt_antitone {b b' : Nat} (h : b ≤ b') (w : Wheel α) : w.workAt b' ≤ w.workAt b := by
  have := List.sum_le_sum (l := w.entries) fun y _ => Slotted.work_antitone h y
  unfold workAt
  omega

/-! ### Settling the timers of a slot -/

/-- What a timer settled at `d` leaves: two once pending, else its work where it is filed again. -/
def settleWork (d : Nat) (y : Slotted α) : Nat :=
  if y.when ≤ d then 2
  else levelFor d y.when + 3 + (y.when / slotRange (levels - 1) - d / slotRange (levels - 1))

theorem workAt_foldl_settleTimer (d : Nat) (taken : List (Slotted α)) (w : Wheel α) :
    (taken.foldl (settleTimer d) w).workAt d = w.workAt d + (taken.map (settleWork d)).sum := by
  induction taken generalizing w with
  | nil => simp
  | cons y rest ih =>
    have hy : (settleTimer d w y).workAt d = w.workAt d + settleWork d y := by
      unfold settleTimer settleWork
      split <;> simp [workAt, place, Slotted.work] <;> ring
    rw [List.foldl_cons, ih, hy, List.map_cons, List.sum_cons]
    ring

theorem slotRange_dvd_slotDue (E l : Nat) {s : Nat} (hs : s < slotsPerLevel) :
    slotRange l ∣ slotDue E l s := by
  have hmod := (slotDue_spec E l hs).2.2
  have hdvd : slotRange l ∣ levelRange l := ⟨slotsPerLevel, levelRange_eq l⟩
  rw [← Nat.dvd_mod_iff hdvd, hmod]
  exact Dvd.intro_left s rfl

/-- A timer settled at the time its slot is due leaves less than it asked: it fires, or it is filed
at a lower level, or, from the top level, a span later. -/
theorem Filed.settleWork_lt (hf : Filed E y) :
    settleWork (slotDue E y.level y.slot) y < y.work E := by
  set d := slotDue E y.level y.slot with hd
  have hE : E < d := (slotDue_spec E y.level hf.slot_lt).1
  have hdiv : E / slotRange (levels - 1) ≤ d / slotRange (levels - 1) :=
    Nat.div_le_div_right hE.le
  unfold settleWork Slotted.work
  split
  · omega
  · rename_i hlt
    have hlt : d < y.when := Nat.lt_of_not_le hlt
    have hwd : d / slotRange (levels - 1) ≤ y.when / slotRange (levels - 1) :=
      Nat.div_le_div_right hlt.le
    by_cases htop : y.level + 1 < levels
    · -- below the top the timer is less than a slot past `d`, so it moves down a level
      obtain ⟨m, hm⟩ : slotRange y.level ∣ d := slotRange_dvd_slotDue E y.level hf.slot_lt
      have hpos := slotRange_pos y.level
      have hnear := hf.near htop
      rw [← hd, hm] at hnear
      have hq : y.when / slotRange y.level = m := by
        refine Nat.div_eq_of_lt_le ?_ ?_
        · rw [Nat.mul_comm, ← hm]
          exact hlt.le
        · rw [Nat.add_mul, Nat.one_mul, Nat.mul_comm]
          exact hnear
      have hdq : d / slotRange y.level = m := by
        rw [hm, Nat.mul_div_cancel_left _ hpos]
      rcases Nat.eq_zero_or_pos y.level with h0 | hl
      · have h1 : slotRange 0 = 1 := rfl
        rw [h0, h1] at hnear hm
        omega
      · have hk := levelFor_lt_of_div_eq (k := 6 * y.level) (by omega)
          (by rw [← slotRange_eq, hdq, hq] : d / 2 ^ (6 * y.level) = y.when / 2 ^ (6 * y.level))
        omega
    · -- at the top the timer stays, and the wheel has crossed a span
      have hl : y.level = levels - 1 := by
        have := hf.level_lt
        omega
      have hcross : E / slotRange (levels - 1) < d / slotRange (levels - 1) := by
        obtain ⟨m, hm⟩ : slotRange (levels - 1) ∣ d := hl ▸ slotRange_dvd_slotDue E y.level hf.slot_lt
        rw [hm, Nat.mul_div_cancel_left _ (slotRange_pos _)]
        rw [hm] at hE
        exact (Nat.div_lt_iff_lt_mul (slotRange_pos _)).2 (by rwa [Nat.mul_comm] at hE)
      have := levelFor_lt d y.when
      omega

/-! ### Processing and polling -/

/-- Processing the slot due first takes away more than the timers it fires leave pending. -/
theorem OnTime.workAt_process {l s d : Nat} (h : OnTime w) (he : w.nextExpiration = some (l, s, d)) :
    (w.process l s d).workAt d < w.work := by
  obtain ⟨rfl, ⟨y₀, hy₀, rfl, rfl⟩, hmin⟩ := h.nextExpiration_some he
  set d := slotDue w.elapsed y₀.level y₀.slot with hd
  set P : Slotted α → Bool := fun e => decide (e.level = y₀.level ∧ e.slot = y₀.slot) with hP
  have hperm := List.filter_append_perm P w.entries
  have hsplit : (w.entries.map (Slotted.work w.elapsed)).sum =
      ((w.entries.filter P).map (Slotted.work w.elapsed)).sum +
        ((w.entries.filter fun e => !P e).map (Slotted.work w.elapsed)).sum := by
    rw [← List.sum_append, ← List.map_append]
    exact ((hperm.map _).sum_eq).symm
  have htaken : (((w.entries.filter P).mergeSort fun a b => decide (a.order ≤ b.order)).map
      (settleWork d)).sum < ((w.entries.filter P).map (Slotted.work w.elapsed)).sum := by
    rw [((List.mergeSort_perm _ _).map _).sum_eq]
    refine List.sum_lt_sum _ _ (fun y hy => ?_) ⟨y₀, List.mem_filter.2 ⟨hy₀, by simp [hP]⟩, ?_⟩
    · obtain ⟨hy, hyP⟩ := List.mem_filter.1 hy
      simp only [hP, decide_eq_true_eq] at hyP
      have := (h.filed y hy).settleWork_lt
      rw [hyP.1, hyP.2] at this
      exact this.le
    · exact (h.filed y₀ hy₀).settleWork_lt
  have hrest : ((w.entries.filter fun e => !P e).map (Slotted.work d)).sum ≤
      ((w.entries.filter fun e => !P e).map (Slotted.work w.elapsed)).sum :=
    List.sum_le_sum fun y _ => Slotted.work_antitone (slotDue_spec _ _ (h.filed y₀ hy₀).slot_lt).1.le y
  have hnot : (w.entries.filter fun e => ¬(e.level = y₀.level ∧ e.slot = y₀.slot)) =
      w.entries.filter fun e => !P e := by
    simp [hP]
  rw [process_eq, workAt_foldl_settleTimer, hnot, ← hP]
  simp only [work, workAt, h.idle, List.length_nil, Nat.mul_zero, Nat.add_zero]
  omega

/-- Polling a wheel on time at a time no slot is due before moves it there, or, when the slot due
first is due then, processes that slot: the timers due then fire and the rest are filed anew. -/
theorem OnTime.poll_cases {t : Nat} (h : OnTime w)
    (ht : ∀ y ∈ w.entries, t ≤ slotDue w.elapsed y.level y.slot) :
    ((∀ y ∈ w.entries, t < slotDue w.elapsed y.level y.slot) ∧
      w.poll t = ([], { w with elapsed := max w.elapsed t })) ∨
    ∃ l s, w.nextExpiration = some (l, s, t) ∧
      w.poll t = ((w.process l s t).pending, { w.process l s t with elapsed := t, pending := [] }) := by
  have hf : w.entries.length + 2 ≤ w.pollFuel := by
    simp only [pollFuel, levels, h.idle, List.length_nil]
    omega
  unfold Wheel.poll
  generalize w.pollFuel = fuel at hf
  obtain ⟨f, rfl⟩ : ∃ f, fuel = f + 1 := ⟨fuel - 1, by omega⟩
  cases he : w.nextExpiration with
  | none =>
    have hnil := h.nextExpiration_none he
    refine .inl ⟨by simp [hnil], ?_⟩
    rw [Wheel.advanceTo, h.idle]
    dsimp only
    rw [he]
  | some e =>
    obtain ⟨l, s, d⟩ := e
    obtain ⟨hE, hfiled, -, -, -, hlen⟩ := h.process he
    obtain ⟨hd, ⟨y₀, hy₀, rfl, rfl⟩, hmin⟩ := h.nextExpiration_some he
    by_cases hdt : d ≤ t
    · -- the slot due first is due at `t`: it is processed, and nothing else is due then
      have hdt : d = t := Nat.le_antisymm hdt (hd ▸ ht y₀ hy₀)
      subst hdt
      refine .inr ⟨y₀.level, y₀.slot, rfl, ?_⟩
      have hmax : max w.elapsed d = d := max_eq_right hE.le
      have hr : w.advanceTo (f + 1) d =
          ({ w.process y₀.level y₀.slot d with elapsed := d } : Wheel α).advanceTo f d := by
        rw [Wheel.advanceTo, h.idle]
        simp only [he]
        rw [if_pos le_rfl, hmax]
      have h₂ : OnTime { w.process y₀.level y₀.slot d with elapsed := d, pending := [] } :=
        ⟨hfiled, rfl⟩
      have hidle := h₂.advanceTo_idle (t := d)
        (fun y hy => (slotDue_spec d y.level (h₂.filed y hy).slot_lt).1)
        (f - (w.process y₀.level y₀.slot d).pending.length)
      rw [hr, advanceTo_pops d (w.process y₀.level y₀.slot d).pending f
        { w.process y₀.level y₀.slot d with elapsed := d } rfl (by omega)]
      simp only [hidle, List.append_nil, max_self]
    · have hlt : ∀ y ∈ w.entries, t < slotDue w.elapsed y.level y.slot := fun y hy => by
        rcases hmin y hy with ⟨hl, hs⟩ | hgt
        · rw [hl, hs, ← hd]
          exact Nat.lt_of_not_le hdt
        · exact Nat.lt_trans (Nat.lt_of_not_le hdt) hgt
      exact .inl ⟨hlt, h.advanceTo_idle hlt _⟩

/-- Polling a wheel on time at a time no slot is due before adds no work beyond what it fires;
polling it when it next needs attention takes away at least one unit more. -/
theorem OnTime.work_poll {t : Nat} (h : OnTime w)
    (ht : ∀ y ∈ w.entries, t ≤ slotDue w.elapsed y.level y.slot) :
    (w.poll t).2.work + 2 * (w.poll t).1.length ≤ w.work ∧
      (w.nextTime = some t → (w.poll t).2.work + 2 * (w.poll t).1.length < w.work) := by
  rcases h.poll_cases ht with ⟨hlt, hp⟩ | ⟨l, s, he, hp⟩
  · rw [hp]
    have hwork : ({ w with elapsed := max w.elapsed t } : Wheel α).work =
        w.workAt (max w.elapsed t) := rfl
    have := workAt_antitone (le_max_left w.elapsed t) w
    refine ⟨by rw [hwork, List.length_nil, Nat.mul_zero, Nat.add_zero]; exact this, fun hn => ?_⟩
    -- the wheel needs attention when a slot is due, and none is due by `t`
    obtain ⟨⟨l, s, d⟩, he, rfl⟩ := Option.map_eq_some_iff.1 hn
    obtain ⟨rfl, ⟨y₀, hy₀, rfl, rfl⟩, -⟩ := h.nextExpiration_some he
    exact absurd (hlt y₀ hy₀) (lt_irrefl _)
  · have hw := h.workAt_process he
    rw [hp]
    have heq : ({ w.process l s t with elapsed := t, pending := [] } : Wheel α).work +
        2 * (w.process l s t).pending.length = (w.process l s t).workAt t := by
      simp [work, workAt]
    exact ⟨heq ▸ hw.le, fun _ => heq ▸ hw⟩

end Wheel

end Outbox.Time
