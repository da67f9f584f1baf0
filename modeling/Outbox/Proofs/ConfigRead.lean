import Mathlib
import Outbox.Config

/-!
Reading the configuration from named settings.

Main statement: the first numeric setting, in reading order, that is given but does not write a
whole number of at most `2^64 - 1` (an optional `+` and decimal digits, with blanks around them)
is refused with its name and its text. When every numeric setting is missing or a number, the
configuration holds each setting given and the default of each one missing, and is refused for a
blank site id, then for a site id with a character other than an ASCII letter or digit, `-` and
`_`, then for zero tasks per pass. The expiry as a delta is the expiry cut down to the longest
delta.
-/

set_option autoImplicit false

namespace Outbox

open Time

/-! ### Numbers in settings -/

def decimalValue (ds : List Char) : Nat :=
  Nat.ofDigits 10 (ds.reverse.map fun c => c.toNat - '0'.toNat)

/-- `cs` writes `n` in decimal within 64 bits: an optional `+`, then one or more ASCII digits,
of value at most `18446744073709551615`. -/
def WritesU64 (cs : List Char) (n : Nat) : Prop :=
  ∃ ds, (cs = ds ∨ cs = '+' :: ds) ∧ ds ≠ [] ∧ (∀ c ∈ ds, c.isDigit) ∧ n = decimalValue ds ∧
    n ≤ 18446744073709551615

/-- The text of a setting writes `n`: blanks, `n` in decimal within 64 bits, blanks. -/
def SettingNumber (v : String) (n : Nat) : Prop :=
  ∃ lead body trail, v.toList = lead ++ body ++ trail ∧ (∀ c ∈ lead, Text.isBlank c) ∧
    (∀ c ∈ trail, Text.isBlank c) ∧ WritesU64 body n

theorem foldl_eq_decimalValue (ds : List Char) :
    ds.foldl (fun n c => 10 * n + (c.toNat - 48)) 0 = decimalValue ds := by
  induction ds using List.reverseRecOn with
  | nil => rfl
  | append_singleton ds c ih =>
    rw [List.foldl_append, List.foldl_cons, List.foldl_nil, ih]
    simp only [decimalValue, List.reverse_append, List.reverse_cons, List.reverse_nil,
      List.nil_append, List.singleton_append, List.map_cons, Nat.ofDigits_cons]
    have : '0'.toNat = 48 := rfl
    omega

theorem writesU64_plus {r : List Char} {n : Nat} :
    WritesU64 ('+' :: r) n ↔
      r ≠ [] ∧ (∀ c ∈ r, c.isDigit) ∧ n = decimalValue r ∧ n ≤ 18446744073709551615 := by
  constructor
  · rintro ⟨ds, hcs | hcs, hne, hd, hv⟩
    · -- a plus sign is no digit
      have := hd '+' (hcs ▸ List.mem_cons_self)
      simp at this
    · obtain rfl := (List.cons.inj hcs).2
      exact ⟨hne, hd, hv⟩
  · rintro ⟨hne, hd, hv⟩
    exact ⟨r, .inr rfl, hne, hd, hv⟩

theorem writesU64_unsigned {cs : List Char} {n : Nat} (h : ∀ r, cs ≠ '+' :: r) :
    WritesU64 cs n ↔
      cs ≠ [] ∧ (∀ c ∈ cs, c.isDigit) ∧ n = decimalValue cs ∧ n ≤ 18446744073709551615 := by
  constructor
  · rintro ⟨ds, rfl | hcs, hne, hd, hv⟩
    · exact ⟨hne, hd, hv⟩
    · exact absurd hcs (h ds)
  · rintro ⟨hne, hd, hv⟩
    exact ⟨cs, .inl rfl, hne, hd, hv⟩

/-- Digits with a value below `2^64` read as that value. -/
theorem readDigits_eq_some_iff (ds : List Char) (n : Nat) :
    (if ds.isEmpty || !ds.all Char.isDigit then none
      else if ds.foldl (fun n c => 10 * n + (c.toNat - 48)) 0 < Nat.pow 2 64 then
        some (ds.foldl (fun n c => 10 * n + (c.toNat - 48)) 0)
      else none) = some n ↔
      ds ≠ [] ∧ (∀ c ∈ ds, c.isDigit) ∧ n = decimalValue ds ∧ n ≤ 18446744073709551615 := by
  have hpow : Nat.pow 2 64 = 18446744073709551616 := rfl
  have hbad : (ds.isEmpty || !ds.all Char.isDigit) = true ↔ ¬(ds ≠ [] ∧ ∀ c ∈ ds, c.isDigit) := by
    simp [List.isEmpty_iff, imp_iff_not_or]
  rw [foldl_eq_decimalValue, hpow]
  by_cases hds : ds ≠ [] ∧ ∀ c ∈ ds, c.isDigit
  · rw [if_neg (mt hbad.1 (not_not.2 hds))]
    rw [and_iff_right hds.1, and_iff_right hds.2]
    split <;> rename_i hlt
    · simp only [Option.some.injEq]
      exact ⟨fun h => ⟨h.symm, by omega⟩, fun h => h.1.symm⟩
    · simp only [reduceCtorEq, false_iff]
      omega
  · rw [if_pos (hbad.2 hds)]
    simp only [reduceCtorEq, false_iff]
    exact fun h => hds ⟨h.1, h.2.1⟩

theorem readU64?_eq_some_iff {s : String} {n : Nat} :
    readU64? s = some n ↔ WritesU64 s.toList n := by
  unfold readU64?
  split
  · rename_i r hr
    rw [hr, writesU64_plus]
    exact readDigits_eq_some_iff r n
  · rename_i r hr
    rw [writesU64_unsigned fun r' h => hr r' h]
    exact readDigits_eq_some_iff _ n

/-! ### Blanks around a setting -/

theorem isBlank_eq_false_of_isDigit {c : Char} (h : c.isDigit) : Text.isBlank c = false := by
  have hc : 48 ≤ c.toNat ∧ c.toNat ≤ 57 := Char.isDigit_iff_toNat.1 h
  simp only [Text.isBlank, Bool.or_eq_false_iff, Bool.and_eq_false_iff, decide_eq_false_iff_not,
    beq_eq_false_iff_ne, ne_eq]
  omega

theorem WritesU64.isBlank_eq_false {cs : List Char} {n : Nat} (h : WritesU64 cs n) :
    ∀ c ∈ cs, Text.isBlank c = false := by
  obtain ⟨ds, rfl | rfl, -, hd, -⟩ := h
  · exact fun c hc => isBlank_eq_false_of_isDigit (hd c hc)
  · rintro c (_ | ⟨_, hc⟩)
    · rfl
    · exact isBlank_eq_false_of_isDigit (hd c hc)

theorem WritesU64.ne_nil {cs : List Char} {n : Nat} (h : WritesU64 cs n) : cs ≠ [] := by
  obtain ⟨ds, rfl | rfl, hne, -⟩ := h
  · exact hne
  · exact List.cons_ne_nil _ _

theorem dropWhile_of_forall_false {p : Char → Bool} {l : List Char} (h : ∀ c ∈ l, p c = false) :
    l.dropWhile p = l := by
  cases l with
  | nil => rfl
  | cons c l => exact List.dropWhile_cons_of_neg (by simp [h c List.mem_cons_self])

theorem trimBlank_toList_of_split {v : String} {lead body trail : List Char}
    (hv : v.toList = lead ++ body ++ trail) (hl : ∀ c ∈ lead, Text.isBlank c)
    (ht : ∀ c ∈ trail, Text.isBlank c) (hb : ∀ c ∈ body, Text.isBlank c = false)
    (hne : body ≠ []) :
    (Text.trimBlank v).toList = body := by
  obtain ⟨b, bs, rfl⟩ := List.exists_cons_of_ne_nil hne
  have hrev : ∀ c ∈ (b :: bs).reverse, Text.isBlank c = false :=
    fun c hc => hb c (List.mem_reverse.1 hc)
  unfold Text.trimBlank Text.dropBlank
  rw [String.toList_ofList, hv, List.append_assoc, List.dropWhile_append_of_pos hl,
    List.cons_append, List.dropWhile_cons_of_neg (by simp [hb b List.mem_cons_self]),
    ← List.cons_append, List.reverse_append, List.dropWhile_append_of_pos (by simpa using ht),
    dropWhile_of_forall_false hrev, List.reverse_reverse]

theorem trimBlank_split (v : String) :
    ∃ lead trail, v.toList = lead ++ (Text.trimBlank v).toList ++ trail ∧
      (∀ c ∈ lead, Text.isBlank c) ∧ (∀ c ∈ trail, Text.isBlank c) := by
  refine ⟨v.toList.takeWhile Text.isBlank,
    ((Text.dropBlank v.toList).reverse.takeWhile Text.isBlank).reverse, ?_,
    fun c hc => List.mem_takeWhile_imp hc,
    fun c hc => List.mem_takeWhile_imp (List.mem_reverse.1 hc)⟩
  unfold Text.trimBlank Text.dropBlank
  rw [String.toList_ofList, List.append_assoc, ← List.reverse_append,
    List.takeWhile_append_dropWhile, List.reverse_reverse, List.takeWhile_append_dropWhile]

theorem settingNumber_iff {v : String} {n : Nat} :
    SettingNumber v n ↔ WritesU64 (Text.trimBlank v).toList n := by
  constructor
  · rintro ⟨lead, body, trail, hv, hl, ht, hw⟩
    rwa [trimBlank_toList_of_split hv hl ht hw.isBlank_eq_false hw.ne_nil]
  · intro hw
    obtain ⟨lead, trail, hv, hl, ht⟩ := trimBlank_split v
    exact ⟨lead, _, trail, hv, hl, ht, hw⟩

theorem readU64?_trimBlank_eq_some_iff {v : String} {n : Nat} :
    readU64? (Text.trimBlank v) = some n ↔ SettingNumber v n :=
  readU64?_eq_some_iff.trans settingNumber_iff.symm

/-! ### Reading one setting -/

def Numeric (lookup : String → Option String) (name : String) : Prop :=
  ∀ v, lookup name = some v → ∃ n, SettingNumber v n

/-- What a numeric setting makes of a field: `f` of its number when it is given, the default `d`
when it is missing. -/
def Gives {α : Type} (lookup : String → Option String) (name : String) (f : Nat → α) (d x : α) :
    Prop :=
  (lookup name = none ∧ x = d) ∨ ∃ v n, lookup name = some v ∧ SettingNumber v n ∧ x = f n

section Setting

variable {lookup : String → Option String} {name : String}

theorem readSetting_error {v : String} (hv : lookup name = some v)
    (hbad : ¬∃ n, SettingNumber v n) :
    readSetting lookup name = .error (.notANumber name v) := by
  have hnone : readU64? (Text.trimBlank v) = none :=
    Option.eq_none_iff_forall_ne_some.2 fun n hn => hbad ⟨n, readU64?_trimBlank_eq_some_iff.1 hn⟩
  simp [readSetting, hv, hnone]

theorem readSetting_eq_ok {o : Option Nat} :
    readSetting lookup name = .ok o ↔
      (lookup name = none ∧ o = none) ∨
        ∃ v n, lookup name = some v ∧ SettingNumber v n ∧ o = some n := by
  cases hl : lookup name with
  | none => simp [readSetting, hl, eq_comm]
  | some v =>
    simp only [readSetting, hl, reduceCtorEq, false_and, Option.some.injEq, exists_and_left,
      exists_eq_left', false_or]
    cases hr : readU64? (Text.trimBlank v) with
    | none =>
      simp only [reduceCtorEq, false_iff, not_exists, not_and]
      intro n hn
      simp [readU64?_trimBlank_eq_some_iff.2 hn] at hr
    | some n =>
      simp only [Except.ok.injEq]
      constructor
      · rintro rfl
        exact ⟨n, readU64?_trimBlank_eq_some_iff.1 hr, rfl⟩
      · rintro ⟨m, hm, rfl⟩
        rw [readU64?_trimBlank_eq_some_iff.2 hm] at hr
        rw [hr]

theorem readSetting_ok_of_numeric (h : Numeric lookup name) :
    ∃ o, readSetting lookup name = .ok o := by
  cases hl : lookup name with
  | none => exact ⟨none, readSetting_eq_ok.2 (.inl ⟨hl, rfl⟩)⟩
  | some v =>
    obtain ⟨n, hn⟩ := h v hl
    exact ⟨some n, readSetting_eq_ok.2 (.inr ⟨v, n, hl, hn, rfl⟩)⟩

theorem Gives.of_readSetting {α : Type} {o : Option Nat} (h : readSetting lookup name = .ok o)
    (f : Nat → α) (d : α) : Gives lookup name f d ((o.map f).getD d) := by
  rcases readSetting_eq_ok.1 h with ⟨hl, rfl⟩ | ⟨v, n, hl, hn, rfl⟩
  · exact .inl ⟨hl, rfl⟩
  · exact .inr ⟨v, n, hl, hn, rfl⟩

end Setting

/-! ### Checking the configuration -/

/-- A character a site id may hold: an ASCII letter or digit, `-` or `_`. -/
def SiteChar (ch : Char) : Prop :=
  ('A' ≤ ch ∧ ch ≤ 'Z') ∨ ('a' ≤ ch ∧ ch ≤ 'z') ∨ ('0' ≤ ch ∧ ch ≤ '9') ∨ ch = '-' ∨ ch = '_'

instance : DecidablePred SiteChar := fun ch =>
  inferInstanceAs (Decidable ((('A' ≤ ch ∧ ch ≤ 'Z') ∨ ('a' ≤ ch ∧ ch ≤ 'z') ∨
    ('0' ≤ ch ∧ ch ≤ '9') ∨ ch = '-' ∨ ch = '_')))

theorem Config.siteIdChar_iff (ch : Char) : Config.siteIdChar ch = true ↔ SiteChar ch := by
  simp only [Config.siteIdChar, SiteChar, Char.isAlphanum, Char.isAlpha, Char.isUpper,
    Char.isLower, Char.isDigit, Char.le_def]
  simp [or_assoc]

theorem trimBlank_isEmpty_iff (s : String) :
    (Text.trimBlank s).isEmpty ↔ ∀ c ∈ s.toList, Text.isBlank c := by
  obtain ⟨lead, trail, hs, hl, ht⟩ := trimBlank_split s
  rw [String.isEmpty_iff, ← String.toList_eq_nil_iff]
  constructor
  · intro h c hc
    rw [hs, h, List.append_nil, List.mem_append] at hc
    exact hc.elim (hl c) (ht c)
  · intro h
    unfold Text.trimBlank Text.dropBlank
    rw [String.toList_ofList, (List.dropWhile_eq_nil_iff).2 h]
    rfl

theorem Config.check_eq (c : Config) :
    c.check =
      if ∀ ch ∈ c.siteId.toList, Text.isBlank ch then some (.empty "site_id")
      else if ∃ ch ∈ c.siteId.toList, ¬SiteChar ch then some (.invalidSiteId c.siteId)
      else if c.minTasks = 0 then some .zeroMinTasks
      else none := by
  have hall : c.siteId.toList.all Config.siteIdChar = true ↔
      ¬∃ ch ∈ c.siteId.toList, ¬SiteChar ch := by
    simp [List.all_eq_true, Config.siteIdChar_iff]
  unfold Config.check
  by_cases hblank : ∀ ch ∈ c.siteId.toList, Text.isBlank ch
  · rw [if_pos ((trimBlank_isEmpty_iff _).2 hblank), if_pos hblank]
  · rw [if_neg (mt (trimBlank_isEmpty_iff _).1 hblank), if_neg hblank]
    by_cases hbad : ∃ ch ∈ c.siteId.toList, ¬SiteChar ch
    · rw [if_pos (by rw [Bool.not_eq_true', ← Bool.not_eq_true, hall, not_not]; exact hbad),
        if_pos hbad]
    · rw [if_neg (by rw [Bool.not_eq_true', ← Bool.not_eq_true, hall, not_not]; exact hbad),
        if_neg hbad]

theorem Config.expiryDelta_nanos (c : Config) :
    c.expiryDelta.nanos = min (c.taskExpiry.nanos : Int) Delta.max.nanos := by
  unfold Config.expiryDelta Delta.ofDurationClamped Delta.ofDuration? Delta.fits
  split <;> rename_i h <;> simp only [Int.natAbs_natCast, decide_eq_true_eq] at h
  · simp only [Option.getD_some, Delta.max]
    omega
  · simp only [Option.getD_none, Delta.max]
    omega

/-! ### Reading the configuration -/

def numberSettings : List String :=
  ["BACKLOG_MIN_TASKS", "BACKLOG_RUN_DELAY_SECS", "BACKLOG_TASK_EXPIRY_SECS", "BACKLOG_PAUSE_SECS"]

/-- `c` holds every setting given and the default of every one missing; it has a storage
directory exactly when that setting is given and not empty. -/
structure Assembled (lookup : String → Option String) (c : Config) : Prop where
  siteId : c.siteId = (lookup "BACKLOG_SITE_ID").getD Config.default.siteId
  minTasks : Gives lookup "BACKLOG_MIN_TASKS" id Config.default.minTasks c.minTasks
  runDelay :
    Gives lookup "BACKLOG_RUN_DELAY_SECS" Duration.ofSecs Config.default.runDelay c.runDelay
  taskExpiry :
    Gives lookup "BACKLOG_TASK_EXPIRY_SECS" Duration.ofSecs Config.default.taskExpiry c.taskExpiry
  pause : Gives lookup "BACKLOG_PAUSE_SECS" Duration.ofSecs Config.default.pause c.pause
  storageDir : ∀ dir, c.storageDir = some dir ↔ lookup "BACKLOG_STORAGE_DIR" = some dir ∧ dir ≠ ""

theorem except_ok_bind {ε α β : Type} (a : α) (f : α → Except ε β) : (Except.ok a >>= f) = f a :=
  rfl

theorem except_error_bind {ε α β : Type} (e : ε) (f : α → Except ε β) :
    (Except.error e >>= f) = .error e :=
  rfl

section Lookup

variable {lookup : String → Option String}

/-- The first numeric setting that is not a number stops the reading. -/
theorem ofLookup_first_bad {pre post : List String} {name v : String}
    (hsplit : numberSettings = pre ++ name :: post) (hpre : ∀ m ∈ pre, Numeric lookup m)
    (hv : lookup name = some v) (hbad : ¬∃ n, SettingNumber v n) :
    Config.ofLookup lookup = .error (.notANumber name v) := by
  have herr := readSetting_error hv hbad
  have hok : ∀ m ∈ pre, ∃ o, readSetting lookup m = .ok o :=
    fun m hm => readSetting_ok_of_numeric (hpre m hm)
  -- `name` is one of the four settings, read after those in `pre`
  rcases pre with _ | ⟨a, _ | ⟨b, _ | ⟨c, _ | ⟨d, pre⟩⟩⟩⟩ <;>
    simp only [numberSettings, List.nil_append, List.cons_append, List.cons.injEq] at hsplit
  · obtain ⟨rfl, -⟩ := hsplit
    simp only [Config.ofLookup, herr, except_error_bind]
  · obtain ⟨rfl, rfl, -⟩ := hsplit
    obtain ⟨o₁, h₁⟩ := hok "BACKLOG_MIN_TASKS" (by simp)
    simp only [Config.ofLookup, h₁, herr, except_ok_bind, except_error_bind]
  · obtain ⟨rfl, rfl, rfl, -⟩ := hsplit
    obtain ⟨o₁, h₁⟩ := hok "BACKLOG_MIN_TASKS" (by simp)
    obtain ⟨o₂, h₂⟩ := hok "BACKLOG_RUN_DELAY_SECS" (by simp)
    simp only [Config.ofLookup, h₁, h₂, herr, except_ok_bind, except_error_bind]
  · obtain ⟨rfl, rfl, rfl, rfl, -⟩ := hsplit
    obtain ⟨o₁, h₁⟩ := hok "BACKLOG_MIN_TASKS" (by simp)
    obtain ⟨o₂, h₂⟩ := hok "BACKLOG_RUN_DELAY_SECS" (by simp)
    obtain ⟨o₃, h₃⟩ := hok "BACKLOG_TASK_EXPIRY_SECS" (by simp)
    simp only [Config.ofLookup, h₁, h₂, h₃, herr, except_ok_bind, except_error_bind]
  · -- more settings before `name` than there are
    simp at hsplit

/-- When every numeric setting is a number, the configuration read holds every setting given and
the default of every one missing, and is refused only by its checks. -/
theorem ofLookup_of_numeric (hnum : ∀ m ∈ numberSettings, Numeric lookup m) :
    ∃ c, Assembled lookup c ∧
      Config.ofLookup lookup =
        if ∀ ch ∈ c.siteId.toList, Text.isBlank ch then .error (.empty "site_id")
        else if ∃ ch ∈ c.siteId.toList, ¬SiteChar ch then .error (.invalidSiteId c.siteId)
        else if c.minTasks = 0 then .error .zeroMinTasks
        else .ok c := by
  obtain ⟨o₁, h₁⟩ := readSetting_ok_of_numeric (hnum "BACKLOG_MIN_TASKS" (by simp [numberSettings]))
  obtain ⟨o₂, h₂⟩ :=
    readSetting_ok_of_numeric (hnum "BACKLOG_RUN_DELAY_SECS" (by simp [numberSettings]))
  obtain ⟨o₃, h₃⟩ :=
    readSetting_ok_of_numeric (hnum "BACKLOG_TASK_EXPIRY_SECS" (by simp [numberSettings]))
  obtain ⟨o₄, h₄⟩ :=
    readSetting_ok_of_numeric (hnum "BACKLOG_PAUSE_SECS" (by simp [numberSettings]))
  have hdir : ∀ dir, (lookup "BACKLOG_STORAGE_DIR").filter (!·.isEmpty) = some dir ↔
      lookup "BACKLOG_STORAGE_DIR" = some dir ∧ dir ≠ "" := by
    simp [Option.filter_eq_some_iff]
  refine ⟨⟨(lookup "BACKLOG_SITE_ID").getD Config.default.siteId, o₁.getD Config.default.minTasks,
    (o₂.map Duration.ofSecs).getD Config.default.runDelay,
    (o₃.map Duration.ofSecs).getD Config.default.taskExpiry,
    (o₄.map Duration.ofSecs).getD Config.default.pause,
    (lookup "BACKLOG_STORAGE_DIR").filter (!·.isEmpty)⟩,
    ⟨rfl, by simpa using Gives.of_readSetting h₁ id Config.default.minTasks,
      Gives.of_readSetting h₂ _ _, Gives.of_readSetting h₃ _ _, Gives.of_readSetting h₄ _ _,
      hdir⟩, ?_⟩
  simp only [Config.ofLookup, h₁, h₂, h₃, h₄, except_ok_bind]
  cases hs : lookup "BACKLOG_SITE_ID" <;>
    simp only [Option.getD_some, Option.getD_none, Config.check_eq] <;> split_ifs <;> rfl

end Lookup

/-- Reading the configuration from settings. The first numeric setting, in reading order, that is
given but writes no number (blanks, an optional `+` and decimal digits of value at most
`2^64 - 1`, blanks) is refused with its name and its text. When every numeric setting is missing
or a number, the configuration holds each setting given and the default of each one missing, and
is refused for a blank site id, else for a site id with a character other than an ASCII letter or
digit, `-` and `_`, else for zero tasks to start a pass. For every configuration the expiry as a
delta is the expiry cut down to the longest delta. -/
theorem config_reads_settings_in_order (lookup : String → Option String) :
    (∀ pre name post v, numberSettings = pre ++ name :: post → (∀ m ∈ pre, Numeric lookup m) →
      lookup name = some v → (¬∃ n, SettingNumber v n) →
      Config.ofLookup lookup = .error (.notANumber name v)) ∧
    ((∀ m ∈ numberSettings, Numeric lookup m) →
      ∃ c, Assembled lookup c ∧
        Config.ofLookup lookup =
          if ∀ ch ∈ c.siteId.toList, Text.isBlank ch then .error (.empty "site_id")
          else if ∃ ch ∈ c.siteId.toList, ¬SiteChar ch then .error (.invalidSiteId c.siteId)
          else if c.minTasks = 0 then .error .zeroMinTasks
          else .ok c) ∧
    ∀ c : Config, c.expiryDelta.nanos = min (c.taskExpiry.nanos : Int) Delta.max.nanos :=
  ⟨fun _ _ _ _ => ofLookup_first_bad, ofLookup_of_numeric,
    Config.expiryDelta_nanos⟩

-- A number past `2^64 - 1` is refused before the site id is looked at; blanks and `+` are read.
example :
    Config.ofLookup (fun n => if n = "BACKLOG_SITE_ID" then some "io.example.app"
      else if n = "BACKLOG_PAUSE_SECS" then some "+18446744073709551616" else none) =
        .error (.notANumber "BACKLOG_PAUSE_SECS" "+18446744073709551616") ∧
    Config.ofLookup (fun n => if n = "BACKLOG_MIN_TASKS" then some "+3"
      else if n = "BACKLOG_PAUSE_SECS" then some " 10\t" else none) =
        .ok ⟨"default", 3, Duration.ofSecs 30, Duration.ofSecs 259200, Duration.ofSecs 10, none⟩ := by
  decide

end Outbox
