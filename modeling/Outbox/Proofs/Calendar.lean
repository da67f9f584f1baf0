import Outbox.Time.Calendar

/-!
Naming a day and numbering a date undo each other: `daysOfCivil (civilOfDays z) = z` for every
day number, and the date `civilOfDays` names is valid.

The work is in one era of 146097 days. Its day `doe` falls in the year of the era that
`civilOfDays` computes with three corrections (`doe / 1460`, `doe / 36524`, `doe / 146096`); the
lemma `era_year_bounds` shows that this year starts on or before `doe` and that the next one
starts after it. Linear arithmetic alone does not find this, so the proof goes one century at a
time and names the leap days counted so far.
-/

set_option autoImplicit false

namespace Outbox.Time

/-- The year `y` of an era, computed from its day `doe` with leap days counted by division, in
one century `b` short of the era's last day. -/
private theorem century_year_bounds (d a b y i j i' j' : Int) (h0 : 0 ≤ d) (h1 : d < 146096)
    (ha : 1460 * a ≤ d ∧ d < 1460 * a + 1460) (hb : 36524 * b ≤ d ∧ d < 36524 * b + 36524)
    (hy : 365 * y ≤ d - a + b ∧ d - a + b < 365 * y + 365)
    (hi : 4 * i ≤ y ∧ y < 4 * i + 4) (hj : 100 * j ≤ y ∧ y < 100 * j + 100)
    (hi' : 4 * i' ≤ y + 1 ∧ y + 1 < 4 * i' + 4)
    (hj' : 100 * j' ≤ y + 1 ∧ y + 1 < 100 * j' + 100) :
    365 * y + i - j ≤ d ∧ d < 365 * (y + 1) + i' - j' + (if y = 399 then 1 else 0) := by
  have hb4 : 0 ≤ b ∧ b ≤ 3 := by omega
  have ha25 : 25 * b ≤ a := by omega
  have hylo : 100 * b ≤ y := by omega
  have hyhi : y ≤ 100 * b + 99 := by omega
  have hjb : j = b := by omega
  subst hjb
  -- the leap days counted by `a` are those of the years before `y`, or one more
  have hL : i ≤ a := by omega
  have hU : a ≤ i + 1 := by omega
  constructor
  · omega
  · by_cases h4 : y = 4 * i + 3
    · by_cases h100 : y = 100 * j + 99
      · have : i' = i + 1 := by omega
        have : j' = j + 1 := by omega
        split <;> omega
      · have : y ≤ 100 * j + 98 := by omega
        have : i' = i + 1 := by omega
        have : j' = j := by omega
        split <;> omega
    · have : i' = i := by omega
      have : y + 1 ≠ 100 * (j + 1) := fun h => h4 (by omega)
      have : j' = j := by omega
      -- before a leap day the extra day has not been counted yet
      have hai : a ≤ i := by
        by_cases hai : a ≤ i
        · exact hai
        · have : a = i + 1 := by omega
          have : y ≤ 4 * i + 2 := by omega
          omega
      split <;> omega

theorem era_year_bounds (doe : Int) (h0 : 0 ≤ doe) (h1 : doe < 146097) :
    let yoe := (doe - doe / 1460 + doe / 36524 - doe / 146096) / 365
    0 ≤ yoe ∧ yoe ≤ 399 ∧ 365 * yoe + yoe / 4 - yoe / 100 ≤ doe ∧
      doe < 365 * (yoe + 1) + (yoe + 1) / 4 - (yoe + 1) / 100 + (if yoe = 399 then 1 else 0) := by
  intro yoe
  by_cases hlast : doe = 146096
  · subst hlast
    decide
  · have hc : doe / 146096 = 0 := by omega
    have hbounds := century_year_bounds doe (doe / 1460) (doe / 36524) yoe (yoe / 4) (yoe / 100)
      ((yoe + 1) / 4) ((yoe + 1) / 100) h0 (by omega) (by omega) (by omega) (by omega) (by omega)
      (by omega) (by omega) (by omega)
    omega

/-- The date of day `doy`, counted from zero, of the year that begins on the first of March of
year `y`: the second half of `civilOfDays`. -/
def marchDate (y doy : Int) : Civil :=
  let mp := (5 * doy + 2) / 153
  let m := if mp < 10 then mp + 3 else mp - 9
  ⟨if m ≤ 2 then y + 1 else y, m.toNat, (doy - (153 * mp + 2) / 5 + 1).toNat⟩

/-- Every day number is day `doy` of year `yoe` of an era; the 366th day of a year beginning in
March falls in a leap year's February. -/
theorem civilOfDays_eq_marchDate (z : Int) :
    ∃ era yoe doy, 0 ≤ yoe ∧ yoe ≤ 399 ∧ 0 ≤ doy ∧
    (doy < 365 ∨ doy = 365 ∧ isLeapYear (yoe + era * 400 + 1)) ∧
    z + 719468 = era * 146097 + (365 * yoe + yoe / 4 - yoe / 100) + doy ∧
    civilOfDays z = marchDate (yoe + era * 400) doy := by
  have hdoe : 0 ≤ z + 719468 - (z + 719468) / 146097 * 146097 ∧
      z + 719468 - (z + 719468) / 146097 * 146097 < 146097 := by omega
  obtain ⟨h0, h399, hlo, hhi⟩ := era_year_bounds _ hdoe.1 hdoe.2
  refine ⟨_, _, _, h0, h399, by omega, ?_, by omega, rfl⟩
  generalize (z + 719468) / 146097 = era at hdoe h0 h399 hlo hhi ⊢
  generalize z + 719468 - era * 146097 = doe at hdoe h0 h399 hlo hhi ⊢
  generalize (doe - doe / 1460 + doe / 36524 - doe / 146096) / 365 = yoe at h0 h399 hlo hhi ⊢
  -- a 366th day only fits a year whose February has a leap day
  by_cases hshort : doe - (365 * yoe + yoe / 4 - yoe / 100) < 365
  · exact .inl hshort
  · have h4 : yoe / 4 ≤ (yoe + 1) / 4 ∧ (yoe + 1) / 4 ≤ yoe / 4 + 1 := by omega
    have h100 : yoe / 100 ≤ (yoe + 1) / 100 ∧ (yoe + 1) / 100 ≤ yoe / 100 + 1 := by omega
    have hstep : (yoe + 1) / 4 = yoe / 4 + 1 ∧ ((yoe + 1) / 100 = yoe / 100 ∨ yoe = 399) := by
      split at hhi <;> omega
    have hleap : (yoe + 1) % 4 = 0 ∧ ((yoe + 1) % 100 ≠ 0 ∨ yoe = 399) := by omega
    refine .inr ⟨by split at hhi <;> omega, ?_⟩
    simp only [isLeapYear, Bool.or_eq_true, Bool.and_eq_true, beq_iff_eq, bne_iff_ne, ne_eq]
    omega

theorem daysOfCivil_marchDate (era yoe doy : Int) (h0 : 0 ≤ yoe) (h399 : yoe ≤ 399)
    (hdoy : 0 ≤ doy ∧ doy ≤ 365) :
    daysOfCivil (marchDate (yoe + era * 400) doy) =
      era * 146097 + (365 * yoe + yoe / 4 - yoe / 100) + doy - 719468 := by
  have hera : (yoe + era * 400) / 400 = era := by omega
  obtain ⟨mp, hmp⟩ : ∃ mp, (5 * doy + 2) / 153 = mp := ⟨_, rfl⟩
  have hmpb : 0 ≤ mp ∧ mp ≤ 11 ∧ (153 * mp + 2) / 5 ≤ doy := by omega
  simp only [marchDate, daysOfCivil, hmp]
  -- January and February close the year that began in March: both branches come back to it
  by_cases hmar : mp < 10 <;>
    simp (disch := omega) only [if_pos, if_neg, Int.toNat_of_nonneg, Int.add_sub_cancel,
      Int.sub_add_cancel, hera, show yoe + era * 400 - era * 400 = yoe by omega] <;>
    omega

theorem daysOfCivil_civilOfDays (z : Int) : daysOfCivil (civilOfDays z) = z := by
  obtain ⟨era, yoe, doy, h0, h399, hdoy, hlast, hz, hc⟩ := civilOfDays_eq_marchDate z
  rw [hc, daysOfCivil_marchDate era yoe doy h0 h399 ⟨hdoy, by omega⟩]
  omega

theorem marchDate_valid (y doy : Int) (h0 : 0 ≤ doy)
    (hlast : doy < 365 ∨ doy = 365 ∧ isLeapYear (y + 1)) : (marchDate y doy).valid := by
  obtain ⟨mp, hmp⟩ : ∃ mp, (5 * doy + 2) / 153 = mp := ⟨_, rfl⟩
  have hmpb : 0 ≤ mp ∧ mp ≤ 11 ∧ (153 * mp + 2) / 5 ≤ doy ∧
      doy < (153 * (mp + 1) + 2) / 5 := by
    omega
  simp only [marchDate, Civil.valid, hmp]
  have hmonth : mp = 0 ∨ mp = 1 ∨ mp = 2 ∨ mp = 3 ∨ mp = 4 ∨ mp = 5 ∨ mp = 6 ∨
      mp = 7 ∨ mp = 8 ∨ mp = 9 ∨ mp = 10 ∨ mp = 11 := by omega
  rcases hmonth with rfl | rfl | rfl | rfl | rfl | rfl | rfl | rfl | rfl | rfl | rfl | rfl
  any_goals (simp [daysInMonth]; omega)
  rcases hlast with hlt | ⟨rfl, hleap⟩
  · simp [daysInMonth]
    split <;> omega
  · simp [daysInMonth, hleap]

theorem civilOfDays_valid (z : Int) : (civilOfDays z).valid := by
  obtain ⟨era, yoe, doy, -, -, hdoy, hlast, -, hc⟩ := civilOfDays_eq_marchDate z
  rw [hc]
  exact marchDate_valid _ _ hdoy hlast

end Outbox.Time
