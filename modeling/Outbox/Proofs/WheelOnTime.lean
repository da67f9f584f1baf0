import Mathlib
import Outbox.Proofs.WheelDue

/-!
A timing wheel fires every timer at the moment it is due, never later.

A slot is processed at the next time, from where the wheel stands, that its level comes round to
it (`slotDue`). A timer is filed so that its slot is due no later than the timer and, below the
top level, in the level's current round and less than a slot before the timer (`Filed`). Then
the lowest level holding timers holds the slot due first, the wheel next needs attention when
that slot is due, and no timer is due before it. Bringing the wheel to any time up to then fires
exactly the timers due at that time and leaves every other timer filed, due as before
(`OnTime.poll`).
-/

set_option autoImplicit false

namespace Outbox.Time.Wheel

variable {α : Type}

/-! ### Slots -/

/-- When slot `s` of level `l` is next processed by a wheel standing at `elapsed`: at its start in
the level's current round, or in the next round once that is past. -/
def slotDue (elapsed l s : Nat) : Nat :=
  let d := elapsed - elapsed % levelRange l + s * slotRange l
  if d ≤ elapsed then d + levelRange l else d

theorem levelRange_eq (l : Nat) : levelRange l = slotRange l * slotsPerLevel := rfl

theorem slotRange_eq (l : Nat) : slotRange l = 2 ^ (6 * l) := by
  rw [pow_mul]
  rfl

theorem slotRange_pos (l : Nat) : 0 < slotRange l := by
  rw [slotRange_eq]
  exact Nat.two_pow_pos _

theorem levelRange_pos (l : Nat) : 0 < levelRange l :=
  Nat.mul_pos (slotRange_pos l) (by decide)

theorem slot_mul_lt {s : Nat} (l : Nat) (hs : s < slotsPerLevel) :
    s * slotRange l < levelRange l := by
  rw [levelRange_eq, Nat.mul_comm (slotRange l)]
  exact Nat.mul_lt_mul_of_pos_right hs (slotRange_pos l)

theorem slotDue_spec (elapsed l : Nat) {s : Nat} (hs : s < slotsPerLevel) :
    elapsed < slotDue elapsed l s ∧ slotDue elapsed l s ≤ elapsed + levelRange l ∧
      slotDue elapsed l s % levelRange l = s * slotRange l := by
  have hlt := slot_mul_lt l hs
  have hdiv := Nat.mod_add_div elapsed (levelRange l)
  have hr := Nat.mod_lt elapsed (Nat.lt_of_le_of_lt (Nat.zero_le _) hlt)
  have hmod : (levelRange l * (elapsed / levelRange l) + s * slotRange l) % levelRange l =
      s * slotRange l := by
    rw [Nat.mul_add_mod, Nat.mod_eq_of_lt hlt]
  have hstart : elapsed - elapsed % levelRange l = levelRange l * (elapsed / levelRange l) := by
    omega
  unfold slotDue
  dsimp only
  rw [hstart]
  split
  · refine ⟨by omega, by omega, ?_⟩
    rw [Nat.add_mod_right, hmod]
  · exact ⟨by omega, by omega, hmod⟩

theorem slotDue_le_of {elapsed l s x : Nat} (hs : s < slotsPerLevel) (hx : elapsed < x)
    (hmod : x % levelRange l = s * slotRange l) : slotDue elapsed l s ≤ x := by
  obtain ⟨h₁, h₂, h₃⟩ := slotDue_spec elapsed l hs
  by_contra hlt
  have := Nat.ModEq.add_le_of_lt (m := levelRange l) (hmod.trans h₃.symm) (Nat.lt_of_not_le hlt)
  omega

theorem slotDue_eq_of {elapsed l s x : Nat} (hs : s < slotsPerLevel) (hx : elapsed < x)
    (hx' : x ≤ elapsed + levelRange l) (hmod : x % levelRange l = s * slotRange l) :
    slotDue elapsed l s = x := by
  obtain ⟨h₁, h₂, h₃⟩ := slotDue_spec elapsed l hs
  refine Nat.le_antisymm (slotDue_le_of hs hx hmod) ?_
  by_contra hlt
  have := Nat.ModEq.add_le_of_lt (m := levelRange l) (h₃.trans hmod.symm) (Nat.lt_of_not_le hlt)
  omega

theorem slotDue_stable {elapsed elapsed' l s : Nat} (hs : s < slotsPerLevel)
    (hle : elapsed ≤ elapsed') (hlt : elapsed' < slotDue elapsed l s) :
    slotDue elapsed' l s = slotDue elapsed l s := by
  obtain ⟨-, h₂, h₃⟩ := slotDue_spec elapsed l hs
  exact slotDue_eq_of hs hlt (by omega) h₃

theorem slot_eq_of_slotDue_eq {elapsed l s s' : Nat} (hs : s < slotsPerLevel)
    (hs' : s' < slotsPerLevel) (h : slotDue elapsed l s = slotDue elapsed l s') : s = s' := by
  have h₁ := (slotDue_spec elapsed l hs).2.2
  rw [h, (slotDue_spec elapsed l hs').2.2] at h₁
  exact (Nat.eq_of_mul_eq_mul_right (slotRange_pos l) h₁).symm

theorem next_multiple_le {m x y : Nat} (hm : 0 < m) (hd : m ∣ y) (hxy : x < y) :
    (x / m + 1) * m ≤ y := by
  obtain ⟨k, rfl⟩ := hd
  have : x / m < k := (Nat.div_lt_iff_lt_mul hm).2 (by rw [Nat.mul_comm]; exact hxy)
  rw [Nat.mul_comm m k]
  exact Nat.mul_le_mul_right m this

/-! ### Levels -/

theorem div_two_pow_eq_iff_xor_lt (x y k : Nat) : x / 2 ^ k = y / 2 ^ k ↔ x ^^^ y < 2 ^ k := by
  constructor
  · intro h
    refine Nat.lt_pow_two_of_testBit _ fun i hi => ?_
    have hx := Nat.testBit_div_two_pow (n := k) x (i - k)
    have hy := Nat.testBit_div_two_pow (n := k) y (i - k)
    rw [Nat.sub_add_cancel hi] at hx hy
    rw [Nat.testBit_xor, ← hx, ← hy, h, Bool.xor_self]
  · intro h
    refine Nat.eq_of_testBit_eq fun i => ?_
    rw [Nat.testBit_div_two_pow, Nat.testBit_div_two_pow]
    have hb : (x ^^^ y).testBit (i + k) = false :=
      Nat.testBit_lt_two_pow (Nat.lt_of_lt_of_le h (Nat.pow_le_pow_right (by decide) (by omega)))
    rw [Nat.testBit_xor] at hb
    revert hb
    cases x.testBit (i + k) <;> cases y.testBit (i + k) <;> simp

theorem levelFor_eq (base when : Nat) :
    levelFor base when = Nat.log2 (if (base ^^^ when) ||| 63 ≥ 2 ^ 36 - 1 then 2 ^ 36 - 2
      else (base ^^^ when) ||| 63) / 6 := rfl

theorem log2_cap : Nat.log2 (2 ^ 36 - 2) / 6 = 5 := by
  have h₁ : Nat.log2 (2 ^ 36 - 2) < 36 := (Nat.log2_lt (by decide)).2 (by decide)
  have h₂ : 35 ≤ Nat.log2 (2 ^ 36 - 2) := (Nat.le_log2 (by decide)).2 (by decide)
  omega

theorem levelFor_lt (base when : Nat) : levelFor base when < levels := by
  rw [levelFor_eq]
  split
  · rw [log2_cap]
    decide
  · rename_i hm
    have hne : (base ^^^ when) ||| 63 ≠ 0 := Nat.pos_iff_ne_zero.1
      (Nat.lt_of_lt_of_le (by decide) Nat.right_le_or)
    have := (Nat.log2_lt (k := 36) hne).2 (by omega)
    show _ < 6
    omega

theorem levelFor_lt_of_div_eq {base when k : Nat} (hk : 6 ≤ k)
    (h : base / 2 ^ k = when / 2 ^ k) : 6 * levelFor base when < k := by
  have hm : (base ^^^ when) ||| 63 < 2 ^ k :=
    Nat.or_lt_two_pow ((div_two_pow_eq_iff_xor_lt _ _ _).1 h)
      (Nat.lt_of_lt_of_le (by decide) (Nat.pow_le_pow_right (by decide) hk))
  rw [levelFor_eq]
  split
  · rename_i hcap
    rw [log2_cap]
    have : 2 ^ 35 < 2 ^ k := by omega
    have := (Nat.pow_lt_pow_iff_right (by decide)).1 this
    omega
  · have hne : (base ^^^ when) ||| 63 ≠ 0 := Nat.pos_iff_ne_zero.1
      (Nat.lt_of_lt_of_le (by decide) Nat.right_le_or)
    have := (Nat.log2_lt hne).2 hm
    omega

theorem div_eq_of_levelFor {base when : Nat} (h : levelFor base when + 1 < levels) :
    base / levelRange (levelFor base when) = when / levelRange (levelFor base when) := by
  set l := levelFor base when with hl
  rw [levelRange_eq, slotRange_eq, show slotsPerLevel = 2 ^ 6 from rfl, ← pow_add,
    div_two_pow_eq_iff_xor_lt]
  rw [levelFor_eq] at hl
  split at hl
  · rw [log2_cap] at hl
    exact absurd h (by rw [hl]; decide)
  · have hne : (base ^^^ when) ||| 63 ≠ 0 := Nat.pos_iff_ne_zero.1
      (Nat.lt_of_lt_of_le (by decide) Nat.right_le_or)
    have hlev : levels = 6 := rfl
    have := (Nat.log2_lt (k := 6 * l + 6) hne).1 (by omega)
    exact Nat.lt_of_le_of_lt Nat.left_le_or this

theorem div_ne_of_levelFor {base when : Nat} (h : 0 < levelFor base when) :
    base / slotRange (levelFor base when) ≠ when / slotRange (levelFor base when) := by
  rw [slotRange_eq]
  intro he
  have := levelFor_lt_of_div_eq (by omega) he
  omega

/-! ### Filed timers -/

/-- A timer sits where a wheel standing at `elapsed` finds it in time: in a slot of its level due
no later than the timer; below the top level, in the level's current round and less than a slot
before the timer. -/
structure Filed (elapsed : Nat) (y : Slotted α) : Prop where
  level_lt : y.level < levels
  slot_lt : y.slot < slotsPerLevel
  due_le : slotDue elapsed y.level y.slot ≤ y.when
  round : y.level + 1 < levels →
    slotDue elapsed y.level y.slot / levelRange y.level = elapsed / levelRange y.level
  near : y.level + 1 < levels → y.when < slotDue elapsed y.level y.slot + slotRange y.level

theorem slotStart_mod (when l : Nat) :
    slotRange l * (when / slotRange l) % levelRange l = slotFor when l * slotRange l := by
  rw [levelRange_eq, Nat.mul_mod_mul_left, Nat.mul_comm]
  rfl

theorem lt_slotStart {base when : Nat} (hb : base < when) :
    base < slotRange (levelFor base when) * (when / slotRange (levelFor base when)) := by
  set l := levelFor base when with hl
  rcases Nat.eq_zero_or_pos l with h0 | hpos
  · rw [h0, show slotRange 0 = 1 from rfl, Nat.div_one, Nat.one_mul]
    exact hb
  · have hsr := slotRange_pos l
    have hne := div_ne_of_levelFor (hl ▸ hpos)
    rw [← hl] at hne
    have hdiv : base / slotRange l < when / slotRange l :=
      Nat.lt_of_le_of_ne (Nat.div_le_div_right hb.le) hne
    calc base < (base / slotRange l + 1) * slotRange l := by
          rw [Nat.add_mul, Nat.one_mul]
          exact Nat.lt_div_mul_add hsr
      _ ≤ when / slotRange l * slotRange l := Nat.mul_le_mul_right _ hdiv
      _ = _ := Nat.mul_comm _ _

/-- A timer filed by a wheel standing before it is filed in time. -/
theorem Filed.place {base when : Nat} (hb : base < when) (o : Nat) (x : α) :
    Filed base (⟨when, levelFor base when, slotFor when (levelFor base when), o, x⟩ : Slotted α) := by
  set l := levelFor base when with hl
  have hsr := slotRange_pos l
  have hstart : slotRange l * (when / slotRange l) ≤ when := Nat.mul_div_le when _
  have hend : when < slotRange l * (when / slotRange l) + slotRange l := by
    rw [Nat.mul_comm]
    exact Nat.lt_div_mul_add hsr
  have hbase : base < slotRange l * (when / slotRange l) := lt_slotStart hb
  have hslot : slotFor when l < slotsPerLevel := Nat.mod_lt _ (by decide)
  have hmod := slotStart_mod when l
  -- below the top level the timer's slot is due at its start, in the current round
  have hdue : l + 1 < levels → slotDue base l (slotFor when l) = slotRange l * (when / slotRange l) ∧
      when / levelRange l = base / levelRange l := by
    intro htop
    have heq : base / levelRange l = when / levelRange l := div_eq_of_levelFor (hl ▸ htop)
    have h₁ := Nat.lt_div_mul_add (a := when) (levelRange_pos l)
    have h₂ := Nat.div_mul_le_self base (levelRange l)
    rw [← heq] at h₁
    exact ⟨slotDue_eq_of hslot hbase (by omega) hmod, heq.symm⟩
  refine ⟨levelFor_lt base when, hslot, (slotDue_le_of hslot hbase hmod).trans hstart,
    fun htop => ?_, fun htop => ?_⟩
  · obtain ⟨h₁, h₂⟩ := hdue htop
    dsimp only
    rw [h₁, levelRange_eq, Nat.mul_div_mul_left _ _ hsr, Nat.div_div_eq_div_mul, ← levelRange_eq, h₂]
  · dsimp only
    rw [(hdue htop).1]
    exact hend

variable {E E' : Nat} {y : Slotted α}

theorem Filed.lt_when (h : Filed E y) : E < y.when :=
  Nat.lt_of_lt_of_le (slotDue_spec E y.level h.slot_lt).1 h.due_le

theorem Filed.stable (h : Filed E y) (hle : E ≤ E') (hlt : E' < slotDue E y.level y.slot) :
    Filed E' y := by
  have hs := slotDue_stable h.slot_lt hle hlt
  refine ⟨h.level_lt, h.slot_lt, hs ▸ h.due_le, fun htop => ?_, fun htop => hs ▸ h.near htop⟩
  rw [hs]
  have h₁ := h.round htop
  have h₂ : E / levelRange y.level ≤ E' / levelRange y.level := Nat.div_le_div_right hle
  have h₃ : E' / levelRange y.level ≤ slotDue E y.level y.slot / levelRange y.level :=
    Nat.div_le_div_right hlt.le
  omega

/-- A slot below the top level is due before any slot of a higher level. -/
theorem Filed.slotDue_lt {y' : Slotted α} (h : Filed E y) (h' : Filed E y')
    (hlt : y.level < y'.level) :
    slotDue E y.level y.slot < slotDue E y'.level y'.slot := by
  have htop : y.level + 1 < levels := Nat.lt_of_le_of_lt hlt h'.level_lt
  have hlr := levelRange_pos y.level
  have h₁ : slotDue E y.level y.slot < (E / levelRange y.level + 1) * levelRange y.level := by
    rw [← h.round htop, Nat.add_mul, Nat.one_mul]
    exact Nat.lt_div_mul_add hlr
  -- the other starts a slot of a higher level, so a whole round of the lower level
  have hdvd : levelRange y.level ∣ slotDue E y'.level y'.slot := by
    have hsr : slotRange y'.level ∣ slotDue E y'.level y'.slot := by
      apply Nat.dvd_of_mod_eq_zero
      rw [← Nat.mod_mod_of_dvd _ (Dvd.intro _ (levelRange_eq y'.level).symm),
        (slotDue_spec E y'.level h'.slot_lt).2.2, Nat.mul_mod_left]
    refine Nat.dvd_trans ?_ hsr
    rw [levelRange_eq, slotRange_eq, slotRange_eq, show slotsPerLevel = 2 ^ 6 from rfl, ← pow_add]
    exact Nat.pow_dvd_pow 2 (by omega)
  exact Nat.lt_of_lt_of_le h₁
    (next_multiple_le hlr hdvd (slotDue_spec E y'.level h'.slot_lt).1)

/-! ### The next expiration -/

/-- The fold that picks a level's slot keeps the first slot due first. -/
theorem foldl_argmin (f : Nat → Nat) (s : Nat) (rest : List Nat) :
    rest.foldl (fun b s => if f s < f b then s else b) s ∈ s :: rest ∧
      ∀ x ∈ s :: rest, f (rest.foldl (fun b s => if f s < f b then s else b) s) ≤ f x := by
  induction rest generalizing s with
  | nil => exact ⟨List.mem_cons_self, fun x hx => by rw [List.mem_singleton.1 hx]; exact le_rfl⟩
  | cons a rest ih =>
    simp only [List.foldl_cons]
    obtain ⟨hmem, hmin⟩ := ih (if f a < f s then a else s)
    have hb : f (if f a < f s then a else s) ≤ f s ∧ f (if f a < f s then a else s) ≤ f a := by
      split <;> omega
    refine ⟨?_, fun x hx => ?_⟩
    · rcases List.mem_cons.1 hmem with h | h
      · rw [h]
        split
        · exact List.mem_cons_of_mem _ List.mem_cons_self
        · exact List.mem_cons_self
      · exact List.mem_cons_of_mem _ (List.mem_cons_of_mem _ h)
    · rcases List.mem_cons.1 hx with rfl | hx
      · exact (hmin _ List.mem_cons_self).trans hb.1
      rcases List.mem_cons.1 hx with rfl | hx
      · exact (hmin _ List.mem_cons_self).trans hb.2
      · exact hmin x (List.mem_cons_of_mem _ hx)

variable {w : Wheel α} {l s d : Nat}

theorem levelExpiration_some (h : w.levelExpiration l = some (s, d)) :
    (∃ y ∈ w.entries, y.level = l ∧ y.slot = s) ∧ d = slotDue w.elapsed l s ∧
      ∀ y ∈ w.entries, y.level = l → d ≤ slotDue w.elapsed l y.slot := by
  unfold levelExpiration at h
  split at h
  · cases h
  · rename_i s₀ rest hmap
    simp only [Option.some.injEq, Prod.mk.injEq] at h
    obtain ⟨rfl, rfl⟩ := h
    obtain ⟨hmem, hmin⟩ := foldl_argmin (slotDue w.elapsed l) s₀ rest
    refine ⟨?_, rfl, fun y hy hl => hmin y.slot ?_⟩
    · rw [← hmap] at hmem
      obtain ⟨y, hy, hs⟩ := List.mem_map.1 hmem
      exact ⟨y, (List.mem_filter.1 hy).1, by simpa using (List.mem_filter.1 hy).2, hs⟩
    · rw [← hmap]
      exact List.mem_map.2 ⟨y, List.mem_filter.2 ⟨hy, by simpa using hl⟩, rfl⟩

theorem levelExpiration_none (h : w.levelExpiration l = none) : ∀ y ∈ w.entries, y.level ≠ l := by
  intro y hy hl
  unfold levelExpiration at h
  split at h
  · rename_i hmap
    have : y.slot ∈ (w.entries.filter (·.level = l)).map (·.slot) :=
      List.mem_map.2 ⟨y, List.mem_filter.2 ⟨hy, by simpa using hl⟩, rfl⟩
    rw [hmap] at this
    cases this
  · cases h

theorem firstExpiration_some {n l₀ : Nat} (h : w.firstExpiration n l₀ = some (l, s, d)) :
    l₀ ≤ l ∧ w.levelExpiration l = some (s, d) ∧ ∀ k, l₀ ≤ k → k < l → w.levelExpiration k = none := by
  induction n generalizing l₀ with
  | zero => cases h
  | succ n ih =>
    unfold firstExpiration at h
    split at h
    · simp only [Option.some.injEq, Prod.mk.injEq] at h
      obtain ⟨rfl, rfl, rfl⟩ := h
      exact ⟨le_rfl, by assumption, fun k h₁ h₂ => absurd h₂ (Nat.not_lt.2 h₁)⟩
    · rename_i hnone
      obtain ⟨h₁, h₂, h₃⟩ := ih h
      refine ⟨by omega, h₂, fun k hk hkl => ?_⟩
      rcases Nat.eq_or_lt_of_le hk with rfl | hk
      · exact hnone
      · exact h₃ k hk hkl

theorem firstExpiration_none {n l₀ : Nat} (h : w.firstExpiration n l₀ = none) :
    ∀ k, l₀ ≤ k → k < l₀ + n → w.levelExpiration k = none := by
  induction n generalizing l₀ with
  | zero => intro k h₁ h₂; omega
  | succ n ih =>
    unfold firstExpiration at h
    split at h
    · cases h
    · rename_i hnone
      intro k hk hkn
      rcases Nat.eq_or_lt_of_le hk with rfl | hk
      · exact hnone
      · exact ih h k hk (by omega)

/-- A wheel keeps time: its timers are filed and none is pending. -/
structure OnTime (w : Wheel α) : Prop where
  filed : ∀ y ∈ w.entries, Filed w.elapsed y
  idle : w.pending = []

theorem OnTime.empty : OnTime (empty : Wheel α) := ⟨fun _ h => (by cases h), rfl⟩

theorem OnTime.nextExpiration_some (h : OnTime w) (he : w.nextExpiration = some (l, s, d)) :
    d = slotDue w.elapsed l s ∧ (∃ y ∈ w.entries, y.level = l ∧ y.slot = s) ∧
      ∀ y ∈ w.entries, (y.level = l ∧ y.slot = s) ∨ d < slotDue w.elapsed y.level y.slot := by
  rw [nextExpiration, h.idle, List.isEmpty_nil, if_pos rfl] at he
  obtain ⟨-, hl, hlow⟩ := firstExpiration_some he
  obtain ⟨⟨y₀, hy₀, hl₀, hs₀⟩, rfl, hmin⟩ := levelExpiration_some hl
  refine ⟨rfl, ⟨y₀, hy₀, hl₀, hs₀⟩, fun y hy => ?_⟩
  rcases Nat.lt_trichotomy y.level l with hlt | heq | hgt
  · exact absurd rfl (levelExpiration_none (hlow _ (Nat.zero_le _) hlt) y hy)
  · by_cases hs : y.slot = s
    · exact .inl ⟨heq, hs⟩
    · refine .inr ?_
      rw [heq]
      refine Nat.lt_of_le_of_ne (hmin y hy heq) fun he' => hs ?_
      exact (slot_eq_of_slotDue_eq (hs₀ ▸ (h.filed y₀ hy₀).slot_lt) (h.filed y hy).slot_lt he').symm
  · have := (h.filed y₀ hy₀).slotDue_lt (h.filed y hy) (hl₀ ▸ hgt)
    rw [hl₀, hs₀] at this
    exact .inr this

theorem OnTime.nextExpiration_none (h : OnTime w) (he : w.nextExpiration = none) :
    w.entries = [] := by
  rw [nextExpiration, h.idle, List.isEmpty_nil, if_pos rfl] at he
  refine List.eq_nil_iff_forall_not_mem.2 fun y hy => ?_
  exact levelExpiration_none (firstExpiration_none he y.level (Nat.zero_le _)
    (h.filed y hy).level_lt) y hy rfl

theorem OnTime.nextTime_le {t : Nat} (h : OnTime w) (ht : w.nextTime = some t) :
    ∀ y ∈ w.entries, t ≤ slotDue w.elapsed y.level y.slot := by
  obtain ⟨⟨l, s, d⟩, he, rfl⟩ := Option.map_eq_some_iff.1 ht
  obtain ⟨rfl, ⟨y₀, hy₀, rfl, rfl⟩, hmin⟩ := h.nextExpiration_some he
  intro y hy
  rcases hmin y hy with ⟨hl, hs⟩ | hlt
  · rw [hl, hs]
  · exact hlt.le

theorem OnTime.lt_nextTime {t : Nat} (h : OnTime w) (ht : w.nextTime = some t) : w.elapsed < t := by
  obtain ⟨⟨l, s, d⟩, he, rfl⟩ := Option.map_eq_some_iff.1 ht
  obtain ⟨rfl, ⟨y₀, hy₀, rfl, rfl⟩, -⟩ := h.nextExpiration_some he
  exact (slotDue_spec _ _ (h.filed y₀ hy₀).slot_lt).1

theorem OnTime.insert (h : OnTime w) (when : Nat) (x : α) : OnTime (w.insert when x).2 := by
  rcases insert_cases w when x with ⟨-, hi⟩ | ⟨hlt, hi⟩ <;> rw [hi]
  · exact h
  · refine ⟨fun y hy => ?_, h.idle⟩
    rcases List.mem_append.1 hy with hy | hy
    · exact h.filed y hy
    · rw [List.mem_singleton.1 hy]
      exact Filed.place hlt _ _

theorem OnTime.remove (h : OnTime w) (p : α → Bool) : OnTime (w.remove p) :=
  ⟨fun y hy => h.filed y (List.mem_filter.1 hy).1, by simp [Wheel.remove, h.idle]⟩

/-! ### Processing a slot -/

theorem foldl_settleTimer_pending (d : Nat) (taken : List (Slotted α)) (w : Wheel α) :
    (taken.foldl (settleTimer d) w).pending = w.pending ++ (taken.filter (·.when ≤ d)).map (·.item) := by
  induction taken generalizing w with
  | nil => simp
  | cons y rest ih =>
    by_cases hy : y.when ≤ d <;> simp [settleTimer, hy, ih]

theorem mem_foldl_settleTimer {d : Nat} {taken : List (Slotted α)} {w : Wheel α} {z : Slotted α}
    (hz : z ∈ (taken.foldl (settleTimer d) w).entries) :
    z ∈ w.entries ∨ ∃ y ∈ taken, d < y.when ∧
      z = ⟨y.when, levelFor d y.when, slotFor y.when (levelFor d y.when), z.order, y.item⟩ := by
  induction taken generalizing w with
  | nil => exact .inl hz
  | cons y rest ih =>
    rcases ih hz with hz | ⟨u, hu, hd, hzu⟩
    · unfold settleTimer at hz
      split at hz
      · exact .inl hz
      · rename_i hy
        rcases List.mem_append.1 hz with hz | hz
        · exact .inl hz
        · rw [List.mem_singleton.1 hz]
          exact .inr ⟨y, List.mem_cons_self, Nat.lt_of_not_le hy, rfl⟩
    · exact .inr ⟨u, List.mem_cons_of_mem _ hu, hd, hzu⟩

theorem foldl_settleTimer_keeps {d : Nat} {taken : List (Slotted α)} {w : Wheel α} {z : Slotted α}
    (hz : z ∈ w.entries) : z ∈ (taken.foldl (settleTimer d) w).entries := by
  induction taken generalizing w with
  | nil => exact hz
  | cons y rest ih =>
    refine ih ?_
    unfold settleTimer
    split
    · exact hz
    · exact List.mem_append_left _ hz

theorem foldl_settleTimer_files {d : Nat} {taken : List (Slotted α)} {w : Wheel α} {y : Slotted α}
    (hy : y ∈ taken) (hd : d < y.when) :
    ∃ z ∈ (taken.foldl (settleTimer d) w).entries, z.item = y.item ∧ z.when = y.when := by
  induction taken generalizing w with
  | nil => cases hy
  | cons u rest ih =>
    rcases List.mem_cons.1 hy with rfl | hy
    · have hmem : (⟨y.when, levelFor d y.when, slotFor y.when (levelFor d y.when), w.nextOrder,
          y.item⟩ : Slotted α) ∈ (settleTimer d w y).entries := by
        unfold settleTimer
        rw [if_neg (Nat.not_le.2 hd)]
        exact List.mem_append_right _ List.mem_cons_self
      rw [List.foldl_cons]
      exact ⟨_, foldl_settleTimer_keeps hmem, rfl, rfl⟩
    · exact ih hy

/-- Processing the next expiration of a wheel on time fires exactly the timers due then, and files
the others in time for then. -/
theorem OnTime.process (h : OnTime w) (he : w.nextExpiration = some (l, s, d)) :
    w.elapsed < d ∧ (∀ y ∈ (w.process l s d).entries, Filed d y) ∧
      (∀ x, x ∈ (w.process l s d).pending ↔ ∃ y ∈ w.entries, y.item = x ∧ y.when = d) ∧
      (∀ z ∈ (w.process l s d).entries,
        ∃ y ∈ w.entries, z.item = y.item ∧ z.when = y.when ∧ d < y.when) ∧
      (∀ y ∈ w.entries, d < y.when →
        ∃ z ∈ (w.process l s d).entries, z.item = y.item ∧ z.when = y.when) ∧
      (w.process l s d).pending.length ≤ w.entries.length := by
  obtain ⟨rfl, ⟨y₀, hy₀, rfl, rfl⟩, hmin⟩ := h.nextExpiration_some he
  have hE := (slotDue_spec w.elapsed y₀.level (h.filed y₀ hy₀).slot_lt).1
  have htaken : ∀ y, y ∈ (w.entries.filter fun e => e.level = y₀.level ∧ e.slot = y₀.slot).mergeSort
      (fun a b => decide (a.order ≤ b.order)) ↔
        y ∈ w.entries ∧ y.level = y₀.level ∧ y.slot = y₀.slot := by
    intro y
    simp [List.mem_mergeSort]
  -- a timer in the slot is due no earlier than the slot, and every other one after it
  have hslot : ∀ y ∈ w.entries, y.level = y₀.level → y.slot = y₀.slot →
      slotDue w.elapsed y₀.level y₀.slot ≤ y.when := by
    intro y hy hl hs
    have := (h.filed y hy).due_le
    rwa [hl, hs] at this
  have hother : ∀ y ∈ w.entries, ¬(y.level = y₀.level ∧ y.slot = y₀.slot) →
      slotDue w.elapsed y₀.level y₀.slot < slotDue w.elapsed y.level y.slot := fun y hy hn =>
    (hmin y hy).resolve_left hn
  rw [process_eq]
  refine ⟨hE, fun z hz => ?_, fun x => ?_, fun z hz => ?_, fun y hy hd => ?_, ?_⟩
  · rcases mem_foldl_settleTimer hz with hz | ⟨y, -, hd, hzy⟩
    · obtain ⟨hz, hn⟩ := List.mem_filter.1 hz
      exact (h.filed z hz).stable hE.le (hother z hz (of_decide_eq_true hn))
    · rw [hzy]
      exact Filed.place hd _ _
  · rw [foldl_settleTimer_pending]
    simp only [h.idle, List.nil_append, List.mem_map, List.mem_filter, htaken, decide_eq_true_eq]
    constructor
    · rintro ⟨y, ⟨⟨hy, hl, hs⟩, hw⟩, rfl⟩
      exact ⟨y, hy, rfl, Nat.le_antisymm hw (hslot y hy hl hs)⟩
    · rintro ⟨y, hy, rfl, hw⟩
      by_cases hin : y.level = y₀.level ∧ y.slot = y₀.slot
      · exact ⟨y, ⟨⟨hy, hin⟩, hw.le⟩, rfl⟩
      · have := hother y hy hin
        have := (h.filed y hy).due_le
        omega
  · rcases mem_foldl_settleTimer hz with hz | ⟨y, hy, hd, hzy⟩
    · obtain ⟨hz, hn⟩ := List.mem_filter.1 hz
      have := hother z hz (of_decide_eq_true hn)
      exact ⟨z, hz, rfl, rfl, Nat.lt_of_lt_of_le this (h.filed z hz).due_le⟩
    · rw [hzy]
      exact ⟨y, ((htaken y).1 hy).1, rfl, rfl, hd⟩
  · by_cases hin : y.level = y₀.level ∧ y.slot = y₀.slot
    · exact foldl_settleTimer_files ((htaken y).2 ⟨hy, hin⟩) hd
    · exact ⟨y, foldl_settleTimer_keeps (List.mem_filter.2 ⟨hy, decide_eq_true hin⟩), rfl, rfl⟩
  · rw [foldl_settleTimer_pending, h.idle, List.nil_append, List.length_map]
    calc _ ≤ _ := List.length_filter_le _ _
      _ = _ := List.length_mergeSort _
      _ ≤ _ := List.length_filter_le _ _

/-! ### Bringing the wheel to a time -/

theorem advanceTo_pops (t : Nat) (items : List α) :
    ∀ (fuel : Nat) (w : Wheel α), w.pending = items → items.length ≤ fuel →
      advanceTo fuel w t = (items ++ (advanceTo (fuel - items.length) { w with pending := [] } t).1,
        (advanceTo (fuel - items.length) { w with pending := [] } t).2) := by
  induction items with
  | nil =>
    intro fuel w hp _
    have : { w with pending := [] } = w := by cases w; simp_all
    simp [this]
  | cons x rest ih =>
    intro fuel w hp hf
    obtain ⟨f, rfl⟩ : ∃ f, fuel = f + 1 := ⟨fuel - 1, by simp at hf; omega⟩
    rw [advanceTo, hp]
    dsimp only
    rw [ih f { w with pending := rest } rfl (by simp at hf; omega)]
    simp

theorem OnTime.advanceTo_idle {t : Nat} (h : OnTime w)
    (ht : ∀ y ∈ w.entries, t < slotDue w.elapsed y.level y.slot) (fuel : Nat) :
    advanceTo fuel w t = ([], { w with elapsed := max w.elapsed t }) := by
  cases fuel with
  | zero => rfl
  | succ fuel =>
    rw [advanceTo, h.idle]
    dsimp only
    split
    · rename_i l s d he
      obtain ⟨rfl, ⟨y₀, hy₀, rfl, rfl⟩, -⟩ := h.nextExpiration_some he
      rw [if_neg (Nat.not_le.2 (ht y₀ hy₀))]
    · rfl

/-- Bringing a wheel on time to a time no later than any slot is due, with fuel for a timer at a
time: it fires exactly the timers due then, keeps every later one due as before, and stays on
time. -/
theorem OnTime.advanceTo {t fuel : Nat} (h : OnTime w)
    (ht : ∀ y ∈ w.entries, t ≤ slotDue w.elapsed y.level y.slot) (hf : w.entries.length + 2 ≤ fuel) :
    OnTime (w.advanceTo fuel t).2 ∧ (w.advanceTo fuel t).2.elapsed = max w.elapsed t ∧
      (∀ x, x ∈ (w.advanceTo fuel t).1 ↔ ∃ y ∈ w.entries, y.item = x ∧ y.when = t) ∧
      (∀ z ∈ (w.advanceTo fuel t).2.entries,
        ∃ y ∈ w.entries, z.item = y.item ∧ z.when = y.when ∧ t < y.when) ∧
      (∀ y ∈ w.entries, t < y.when →
        ∃ z ∈ (w.advanceTo fuel t).2.entries, z.item = y.item ∧ z.when = y.when) := by
  obtain ⟨f, rfl⟩ : ∃ f, fuel = f + 1 := ⟨fuel - 1, by omega⟩
  have hstay : (∀ y ∈ w.entries, t < slotDue w.elapsed y.level y.slot) →
      w.advanceTo (f + 1) t = ([], { w with elapsed := max w.elapsed t }) →
      OnTime (w.advanceTo (f + 1) t).2 ∧ (w.advanceTo (f + 1) t).2.elapsed = max w.elapsed t ∧
      (∀ x, x ∈ (w.advanceTo (f + 1) t).1 ↔ ∃ y ∈ w.entries, y.item = x ∧ y.when = t) ∧
      (∀ z ∈ (w.advanceTo (f + 1) t).2.entries,
        ∃ y ∈ w.entries, z.item = y.item ∧ z.when = y.when ∧ t < y.when) ∧
      (∀ y ∈ w.entries, t < y.when →
        ∃ z ∈ (w.advanceTo (f + 1) t).2.entries, z.item = y.item ∧ z.when = y.when) := by
    intro hlt hr
    rw [hr]
    have hlate : ∀ y ∈ w.entries, t < y.when := fun y hy =>
      Nat.lt_of_lt_of_le (hlt y hy) (h.filed y hy).due_le
    refine ⟨⟨fun y hy => (h.filed y hy).stable (le_max_left _ _) ?_, h.idle⟩, rfl,
      fun x => ⟨fun hx => (by cases hx), ?_⟩, fun z hz => ⟨z, hz, rfl, rfl, hlate z hz⟩,
      fun y hy _ => ⟨y, hy, rfl, rfl⟩⟩
    · exact max_lt (slotDue_spec _ _ (h.filed y hy).slot_lt).1 (hlt y hy)
    · rintro ⟨y, hy, -, hw⟩
      exact absurd hw (Nat.ne_of_gt (hlate y hy))
  cases he : w.nextExpiration with
  | none =>
    have hnil := h.nextExpiration_none he
    refine hstay (by simp [hnil]) ?_
    rw [Wheel.advanceTo, h.idle]
    dsimp only
    rw [he]
  | some e =>
    obtain ⟨l, s, d⟩ := e
    obtain ⟨hE, hfiled, hpend, hfrom, hto, hlen⟩ := h.process he
    obtain ⟨rfl, ⟨y₀, hy₀, rfl, rfl⟩, hmin⟩ := h.nextExpiration_some he
    by_cases hd : slotDue w.elapsed y₀.level y₀.slot ≤ t
    · -- the slot due first is due at `t`: it is processed, its timers due fire, the rest waits
      have hdt : slotDue w.elapsed y₀.level y₀.slot = t := Nat.le_antisymm hd (ht y₀ hy₀)
      rw [hdt] at hE hfiled hpend hfrom hto hlen
      set w₁ := { w.process y₀.level y₀.slot t with elapsed := max w.elapsed t } with hw₁
      have hr : w.advanceTo (f + 1) t = w₁.advanceTo f t := by
        rw [Wheel.advanceTo, h.idle]
        simp only [he]
        rw [if_pos (hdt ▸ hd), hdt]
      have hmax : max w.elapsed t = t := max_eq_right hE.le
      have h₂ : OnTime { w₁ with pending := [] } :=
        ⟨fun y hy => by simpa [hw₁, hmax] using hfiled y hy, rfl⟩
      have hidle := h₂.advanceTo_idle (t := t) (fun y hy => by
        have := (slotDue_spec t y.level (h₂.filed y hy).slot_lt).1
        simpa [hw₁, hmax] using this) (f - w₁.pending.length)
      rw [hr, advanceTo_pops t w₁.pending f w₁ rfl (by simp [hw₁]; omega), hidle]
      refine ⟨⟨fun y hy => by simpa [hw₁, hmax] using hfiled y hy, rfl⟩, by simp [hw₁, hmax],
        fun x => by simpa [hw₁] using hpend x, fun z hz => hfrom z (by simpa [hw₁] using hz),
        fun y hy hlt => by simpa [hw₁] using hto y hy hlt⟩
    · -- the slot due first is due after `t`
      have hlt : ∀ y ∈ w.entries, t < slotDue w.elapsed y.level y.slot := fun y hy => by
        rcases hmin y hy with ⟨hl, hs⟩ | hgt
        · rw [hl, hs]
          exact Nat.lt_of_not_le hd
        · exact Nat.lt_trans (Nat.lt_of_not_le hd) hgt
      exact hstay hlt (h.advanceTo_idle hlt _)

theorem OnTime.poll {t : Nat} (h : OnTime w)
    (ht : ∀ y ∈ w.entries, t ≤ slotDue w.elapsed y.level y.slot) :
    OnTime (w.poll t).2 ∧ (w.poll t).2.elapsed = max w.elapsed t ∧
      (∀ x, x ∈ (w.poll t).1 ↔ ∃ y ∈ w.entries, y.item = x ∧ y.when = t) ∧
      (∀ z ∈ (w.poll t).2.entries, ∃ y ∈ w.entries, z.item = y.item ∧ z.when = y.when ∧ t < y.when) ∧
      (∀ y ∈ w.entries, t < y.when →
        ∃ z ∈ (w.poll t).2.entries, z.item = y.item ∧ z.when = y.when) :=
  h.advanceTo ht (by simp only [pollFuel, levels, h.idle, List.length_nil]; omega)

end Outbox.Time.Wheel
