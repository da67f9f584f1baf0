import Mathlib
import Outbox.Proofs.Calendar
import Outbox.Time.Stamp

/-!
Reading a written instant gives it back. `Instant.readStamp?` undoes `Instant.stamp` on every
instant whose fields are in range (`Instant.valid`), and every instant it reads is in range, so
writing what was read and reading it again gives the same instant.

Each field is read by a framing lemma: the reader applied to the field's text followed by the
next separator gives the field's value and leaves the separator.
-/

set_option autoImplicit false

namespace Outbox.Time

/-- An instant `Instant.stamp` writes faithfully: a day of the calendar, a second of the day,
nanoseconds below two seconds, and a leap second only at the end of a minute. -/
def Instant.valid (t : Instant) : Bool :=
  Instant.dayInRange t.day && t.second < secsPerDay && t.nanos < 2 * nanosPerSec &&
    (t.nanos < nanosPerSec || t.second % 60 == 59)

section Digits

theorem isDigit_iff {c : Char} : c.isDigit ↔ 48 ≤ c.toNat ∧ c.toNat ≤ 57 := by
  simp [Char.isDigit, UInt32.le_iff_toNat_le]

theorem digitsValue_eq (ds : List Char) : digitsValue ds = Nat.ofDigitChars 10 ds 0 := rfl

theorem toList_padded (w n : Nat) :
    (padded w n).toList =
      List.replicate (w - (Nat.toDigits 10 n).length) '0' ++ Nat.toDigits 10 n := by
  simp [padded]

theorem isDigit_of_mem_padded {w n : Nat} {c : Char} (h : c ∈ (padded w n).toList) :
    c.isDigit := by
  rw [toList_padded, List.mem_append] at h
  rcases h with h | h
  · rw [List.eq_of_mem_replicate h]
    decide
  · exact Nat.isDigit_of_mem_toDigits (by decide) (by decide) h

theorem digitsValue_padded (w n : Nat) : digitsValue (padded w n).toList = n := by
  rw [toList_padded, digitsValue_eq, Nat.ofDigitChars_append, Nat.ofDigitChars_replicate_zero,
    Nat.mul_zero, Nat.ofDigitChars_ten_toDigits]

theorem length_padded (w n : Nat) (hw : 0 < w) (hn : n < 10 ^ w) :
    (padded w n).toList.length = w := by
  have hlen := (Nat.length_toDigits_le_iff (by decide) hw).2 hn
  rw [toList_padded, List.length_append, List.length_replicate]
  omega

theorem le_length_padded (w n : Nat) : w ≤ (padded w n).toList.length := by
  rw [toList_padded, List.length_append, List.length_replicate]
  omega

theorem padded_ne_nil (w n : Nat) : (padded w n).toList ≠ [] := by
  simp [toList_padded]

theorem digitsValue_lt {ds : List Char} (h : ∀ c ∈ ds, c.isDigit) :
    digitsValue ds < 10 ^ ds.length := by
  induction ds with
  | nil => simp [digitsValue]
  | cons c ds ih =>
    have hc : c.toNat - '0'.toNat < 10 := by
      have := isDigit_iff.1 (h c (List.mem_cons_self ..))
      have h0 : '0'.toNat = 48 := rfl
      omega
    have ih := ih fun c hc => h c (List.mem_cons_of_mem _ hc)
    rw [digitsValue_eq] at ih ⊢
    rw [Nat.ofDigitChars_cons, Nat.ofDigitChars_eq_ofDigitChars_zero, List.length_cons,
      Nat.pow_succ, Nat.mul_zero, Nat.zero_add]
    calc 10 ^ ds.length * (c.toNat - '0'.toNat) + Nat.ofDigitChars 10 ds 0
        < 10 ^ ds.length * (c.toNat - '0'.toNat) + 10 ^ ds.length := by omega
      _ ≤ 10 ^ ds.length * 10 := by
        rw [← Nat.mul_succ]
        exact Nat.mul_le_mul_left _ hc

theorem leadingDigits_append (most : Nat) {ds tail : List Char} (hd : ∀ c ∈ ds, c.isDigit)
    (hne : ds ≠ []) (hlen : ds.length ≤ most)
    (htail : ∀ c ∈ tail.head?, c.isDigit = false) :
    leadingDigits most (ds ++ tail) = some (digitsValue ds, ds.length, tail) := by
  have htake : ((ds ++ tail).take most).takeWhile Char.isDigit = ds := by
    rw [List.take_append, List.take_of_length_le hlen, List.takeWhile_append_of_pos hd]
    cases tail with
    | nil => simp
    | cons c rest =>
      cases hm : most - ds.length with
      | zero => simp
      | succ k => simp [htail c rfl]
  simp [leadingDigits, htake, hne]

theorem isBlank_of_isDigit {c : Char} (h : c.isDigit) : Text.isBlank c = false := by
  have := isDigit_iff.1 h
  simp only [Text.isBlank, Bool.or_eq_false_iff, Bool.and_eq_false_iff, beq_eq_false_iff_ne,
    decide_eq_false_iff_not]
  omega

theorem dropBlank_cons {c : Char} (cs : List Char) (h : Text.isBlank c = false) :
    Text.dropBlank (c :: cs) = c :: cs := by
  simp [Text.dropBlank, h]

theorem dropBlank_padded_append (w n : Nat) (tail : List Char) :
    Text.dropBlank ((padded w n).toList ++ tail) = (padded w n).toList ++ tail := by
  obtain ⟨d, ds, hds⟩ := List.exists_cons_of_ne_nil (padded_ne_nil w n)
  have hd : d.isDigit := isDigit_of_mem_padded (hds ▸ List.mem_cons_self ..)
  rw [hds, List.cons_append, dropBlank_cons _ (isBlank_of_isDigit hd)]

end Digits

section Fields

theorem readMark_cons (mark : Char) (s : List Char) (h : Text.isBlank mark = false) :
    readMark mark (mark :: s) = some s := by
  simp [readMark, dropBlank_cons _ h]

theorem head_not_digit (c : Char) (rest : List Char) (h : c.isDigit = false) :
    ∀ x ∈ (c :: rest).head?, x.isDigit = false := by
  simpa using h

theorem readField_padded {n : Nat} (hn : n < 100) {tail : List Char}
    (htail : ∀ x ∈ tail.head?, x.isDigit = false) :
    readField ((padded 2 n).toList ++ tail) = some (n, tail) := by
  rw [readField, dropBlank_padded_append, leadingDigits_append 2
    (fun _ => isDigit_of_mem_padded) (padded_ne_nil 2 n)
    (Nat.le_of_eq (length_padded 2 n (by decide) hn)) htail, digitsValue_padded]
  rfl

theorem leadingDigits_padded_all (n : Nat) (rest : List Char) :
    leadingDigits ((padded 4 n).toList ++ '-' :: rest).length ((padded 4 n).toList ++ '-' :: rest) =
      some (n, (padded 4 n).toList.length, '-' :: rest) := by
  rw [leadingDigits_append _ (fun _ => isDigit_of_mem_padded) (padded_ne_nil 4 n)
    (by simp) (head_not_digit _ rest (by decide)), digitsValue_padded]

theorem readYear_yearText (y : Int) (rest : List Char) :
    readYear ((yearText y).toList ++ '-' :: rest) = some (y, '-' :: rest) := by
  unfold readYear yearText
  by_cases hy : 0 ≤ y ∧ y ≤ 9999
  · rw [if_pos hy, dropBlank_padded_append]
    obtain ⟨d, ds, hds⟩ := List.exists_cons_of_ne_nil (padded_ne_nil 4 y.toNat)
    have hd := isDigit_iff.1 (isDigit_of_mem_padded (hds ▸ List.mem_cons_self ..))
    -- a year inside 0000 .. 9999 starts with a digit, so neither sign case applies
    split
    · rename_i r h
      rw [hds, List.cons_append, List.cons.injEq] at h
      have : d.toNat = 45 := by rw [h.1]; rfl
      omega
    · rename_i r h
      rw [hds, List.cons_append, List.cons.injEq] at h
      have : d.toNat = 43 := by rw [h.1]; rfl
      omega
    · rw [leadingDigits_append 4 (fun _ => isDigit_of_mem_padded) (padded_ne_nil 4 y.toNat)
        (Nat.le_of_eq (length_padded 4 y.toNat (by decide) (by omega)))
        (head_not_digit _ rest (by decide)),
        digitsValue_padded]
      simp only [Option.map_some, Option.some.injEq, Prod.mk.injEq, and_true]
      omega
  · rw [if_neg hy]
    by_cases hneg : y < 0
    · simp only [hneg, if_true, String.toList_append, List.append_assoc]
      rw [show "-".toList = ['-'] from rfl, List.cons_append, List.nil_append,
        dropBlank_cons _ (by decide)]
      simp only [leadingDigits_padded_all, Option.map_some, Option.some.injEq, Prod.mk.injEq,
        and_true]
      omega
    · simp only [hneg, if_false, String.toList_append, List.append_assoc]
      rw [show "+".toList = ['+'] from rfl, List.cons_append, List.nil_append,
        dropBlank_cons _ (by decide)]
      simp only [leadingDigits_padded_all, Option.map_some, Option.some.injEq, Prod.mk.injEq,
        and_true]
      omega

theorem readFraction_point {k n : Nat} (hk : 0 < k) (hk9 : k ≤ 9) (hn : n < 10 ^ k)
    (rest : List Char) :
    readFraction ('.' :: ((padded k n).toList ++ 'Z' :: rest)) =
      some (n * 10 ^ (9 - k), 'Z' :: rest) := by
  simp only [readFraction]
  rw [leadingDigits_append 9 (fun _ => isDigit_of_mem_padded) (padded_ne_nil k n)
    (by rw [length_padded k n hk hn]; omega) (head_not_digit 'Z' rest (by decide)),
    digitsValue_padded, length_padded k n hk hn]
  simp

theorem readFraction_fractionText {nanos : Nat} (h : nanos < nanosPerSec) (rest : List Char) :
    readFraction ((fractionText nanos).toList ++ 'Z' :: rest) = some (nanos, 'Z' :: rest) := by
  unfold fractionText
  split
  · rename_i h0
    simp [readFraction, h0]
  split
  · rw [String.toList_append, show ".".toList = ['.'] from rfl, List.append_assoc,
      List.cons_append, List.nil_append, readFraction_point (by decide) (by decide)
      (by simp only [nanosPerSec] at h; omega)]
    simp only [Nat.reduceSub, Nat.reducePow, Option.some.injEq, Prod.mk.injEq, and_true]
    omega
  split
  · rw [String.toList_append, show ".".toList = ['.'] from rfl, List.append_assoc,
      List.cons_append, List.nil_append, readFraction_point (by decide) (by decide)
      (by simp only [nanosPerSec] at h; omega)]
    simp only [Nat.reduceSub, Nat.reducePow, Option.some.injEq, Prod.mk.injEq, and_true]
    omega
  · rw [String.toList_append, show ".".toList = ['.'] from rfl, List.append_assoc,
      List.cons_append, List.nil_append, readFraction_point (by decide) (by decide)
      (by simp only [nanosPerSec] at h; omega)]
    simp

theorem readOffset_utc (rest : List Char) : readOffset ('Z' :: rest) = some (0, rest) := by
  unfold readOffset
  rw [dropBlank_cons _ (by decide)]
  dsimp only
  split
  · rename_i a b c r h
    simp only [List.cons.injEq] at h
    obtain ⟨rfl, rfl, rfl, rfl⟩ := h
    simp [readOffset.signedOffset]
  · simp [readOffset.signedOffset]

theorem head_fractionText (n : Nat) (rest : List Char) :
    ∀ x ∈ ((fractionText n).toList ++ 'Z' :: rest).head?, x.isDigit = false := by
  unfold fractionText
  split
  · simp only [String.toList_empty, List.nil_append, List.head?_cons, Option.mem_some_iff,
      forall_eq']
    decide
  all_goals
    split <;> (try split) <;>
    · simp only [String.toList_append, show ".".toList = ['.'] from rfl, List.cons_append,
        List.nil_append, List.head?_cons, Option.mem_some_iff, forall_eq']
      decide

theorem some_bind_eq {α β : Type} (a : α) (f : α → Option β) : (some a >>= f) = f a := rfl

theorem bind_eq_some {α β : Type} {x : Option α} {f : α → Option β} {b : β} :
    (x >>= f) = some b ↔ ∃ a, x = some a ∧ f a = some b :=
  Option.bind_eq_some_iff

theorem readStampFields_text (y : Int) {mo d h mi s n : Nat} (hmo : mo < 100) (hd : d < 100)
    (hh : h < 100) (hmi : mi < 100) (hs : s < 100) (hn : n < nanosPerSec) :
    readStampFields (yearText y ++ "-" ++ padded 2 mo ++ "-" ++ padded 2 d ++ "T" ++ padded 2 h ++
      ":" ++ padded 2 mi ++ ":" ++ padded 2 s ++ fractionText n ++ "Z").toList =
      some ⟨y, mo, d, h, mi, s, n, 0⟩ := by
  simp only [String.toList_append, List.append_assoc, show "-".toList = ['-'] from rfl,
    show "T".toList = ['T'] from rfl, show ":".toList = [':'] from rfl,
    show "Z".toList = ['Z'] from rfl, List.cons_append, List.nil_append]
  have hdash := readMark_cons '-'
  have hcolon := readMark_cons ':'
  -- the binds stay in their monadic form: simp only then steps through them one at a time
  -- instead of revisiting the nested chain through congruence lemmas for Option.bind
  simp only [readStampFields, readYear_yearText, some_bind_eq,
    hdash _ (by decide), hcolon _ (by decide),
    readField_padded hmo (head_not_digit '-' _ (by decide)),
    readField_padded hd (head_not_digit 'T' _ (by decide)),
    readField_padded hh (head_not_digit ':' _ (by decide)),
    readField_padded hmi (head_not_digit ':' _ (by decide)),
    readField_padded hs (head_fractionText n []), readFraction_fractionText hn, readOffset_utc]
  simp [Text.dropBlank]

theorem daysInMonth_le (y : Int) (m : Nat) : daysInMonth y m ≤ 31 := by
  unfold daysInMonth
  split
  · split <;> omega
  · split <;> omega

theorem readStamp?_stamp (t : Instant) (h : t.valid) : Instant.readStamp? t.stamp = some t := by
  simp only [Instant.valid, Bool.and_eq_true, Bool.or_eq_true, decide_eq_true_eq, beq_iff_eq]
    at h
  obtain ⟨⟨⟨hday, hsec⟩, hnanos⟩, hleap⟩ := h
  have hcv := civilOfDays_valid t.day
  have hc := hcv
  simp only [Civil.valid, Bool.and_eq_true, decide_eq_true_eq] at hc
  obtain ⟨⟨⟨hm1, hm12⟩, hd1⟩, hd31⟩ := hc
  have hdays := daysInMonth_le (civilOfDays t.day).year (civilOfDays t.day).month
  simp only [secsPerDay, nanosPerSec] at hsec hnanos hleap
  have hceta : (⟨(civilOfDays t.day).year, (civilOfDays t.day).month, (civilOfDays t.day).day⟩ :
      Civil) = civilOfDays t.day := rfl
  have hsecs : (t.second : Int) % 86400 = t.second := Int.emod_eq_of_lt (by omega) (by omega)
  unfold Instant.readStamp? Instant.stamp Instant.civil
  by_cases hl : t.nanos ≥ nanosPerSec
  · simp only [hl, if_true]
    rw [readStampFields_text _ (by omega) (by omega) (by omega) (by omega) (by omega)
      (by simp only [nanosPerSec] at hl ⊢; omega)]
    have h59 : t.second % 60 = 59 := by simp only [nanosPerSec] at hl; omega
    have hS : t.second / 3600 * 3600 + t.second / 60 % 60 * 60 + 59 = t.second := by omega
    simp only [h59, Nat.reduceAdd, Option.bind_some, StampFields.instant?, Nat.lt_one_iff,
      gt_iff_lt, Nat.lt_irrefl, Int.natAbs_zero, secsPerDay, ge_iff_le, Nat.le_zero_eq,
      reduceCtorEq, or_self, or_false, hceta, hcv, daysOfCivil_civilOfDays, hday, Bool.and_self,
      Bool.not_true, Bool.false_eq_true, ↓reduceIte, Nat.sub_add_cancel hl, hS, Int.sub_zero,
      Int.cast_ofNat_Int, hsecs, Int.sub_self, Int.zero_ediv, Int.add_zero, Int.toNat_natCast,
      ite_eq_right_iff, imp_false, not_or, Nat.not_lt]
    omega
  · simp only [hl, if_false, Nat.add_zero]
    rw [readStampFields_text _ (by omega) (by omega) (by omega) (by omega) (by omega)
      (by simp only [nanosPerSec] at hl ⊢; omega)]
    have hS : t.second / 3600 * 3600 + t.second / 60 % 60 * 60 + t.second % 60 = t.second := by
      omega
    have h60 : t.second % 60 ≠ 60 := by omega
    simp only [Option.bind_some, StampFields.instant?, Nat.lt_one_iff, gt_iff_lt,
      Int.natAbs_zero, secsPerDay, ge_iff_le, Nat.le_zero_eq, reduceCtorEq, or_false, hceta, hcv,
      daysOfCivil_civilOfDays, hday, Bool.and_self, Bool.not_true, Bool.false_eq_true, ↓reduceIte,
      h60, hS, Int.sub_zero, Int.cast_ofNat_Int, hsecs, Int.sub_self, Int.zero_ediv, Int.add_zero,
      Int.toNat_natCast, ite_eq_right_iff, imp_false, not_or, Nat.not_lt]
    omega

theorem leadingDigits_bound {most : Nat} {s r : List Char} {v n : Nat}
    (h : leadingDigits most s = some (v, n, r)) : v < 10 ^ n ∧ n ≤ most := by
  simp only [leadingDigits, Option.ite_none_left_eq_some, Option.some.injEq, Prod.mk.injEq] at h
  obtain ⟨-, rfl, rfl, -⟩ := h
  have hdigits : ∀ c ∈ (s.take most).takeWhile Char.isDigit, c.isDigit :=
    List.all_eq_true.1 List.all_takeWhile
  exact ⟨digitsValue_lt hdigits,
    Nat.le_trans (List.takeWhile_sublist _).length_le (List.length_take_le _ _)⟩

theorem readFraction_lt {s r : List Char} {v : Nat} (h : readFraction s = some (v, r)) :
    v < nanosPerSec := by
  unfold readFraction at h
  split at h
  · simp only [Option.bind_eq_bind, Option.bind_eq_some_iff] at h
    obtain ⟨⟨v', n, r'⟩, hl, rfl, -⟩ := h
    obtain ⟨hv, hn⟩ := leadingDigits_bound hl
    calc v' * 10 ^ (9 - n) < 10 ^ n * 10 ^ (9 - n) :=
          Nat.mul_lt_mul_of_pos_right hv (Nat.pow_pos (by decide))
      _ = nanosPerSec := by rw [← Nat.pow_add, Nat.add_sub_cancel' hn]; rfl
  · simp only [Option.some.injEq, Prod.mk.injEq] at h
    obtain ⟨rfl, -⟩ := h
    decide

theorem signedOffset_mod {s r : List Char} {o : Int}
    (h : readOffset.signedOffset s = some (o, r)) : o % 60 = 0 := by
  unfold readOffset.signedOffset at h
  split at h
  · simp only [Option.some.injEq, Prod.mk.injEq] at h
    omega
  · simp only [Option.some.injEq, Prod.mk.injEq] at h
    omega
  · split at h
    · simp only [Option.bind_eq_bind, Option.bind_eq_some_iff] at h
      obtain ⟨⟨hh, r1⟩, -, ⟨mm, r2⟩, -, h⟩ := h
      simp only [pure, Option.some.injEq, Prod.mk.injEq] at h
      obtain ⟨rfl, -⟩ := h
      split <;> omega
    · simp at h
  · simp at h

theorem readOffset_mod {s r : List Char} {o : Int} (h : readOffset s = some (o, r)) :
    o % 60 = 0 := by
  unfold readOffset at h
  dsimp only at h
  split at h
  · split at h
    · simp only [Option.some.injEq, Prod.mk.injEq] at h
      omega
    · exact signedOffset_mod h
  · exact signedOffset_mod h

theorem readStampFields_bounds {cs : List Char} {f : StampFields}
    (h : readStampFields cs = some f) : f.nanos < nanosPerSec ∧ f.offset % 60 = 0 := by
  simp only [readStampFields, bind_eq_some] at h
  obtain ⟨_, -, _, -, _, -, _, -, ⟨_, s⟩, -, h⟩ := h
  split at h
  · split at h
    · simp only [bind_eq_some] at h
      obtain ⟨_, -, _, -, _, -, _, -, _, -, _, -, ⟨nanos, s1⟩, hf, ⟨offset, s2⟩, ho, h⟩ :=
        h
      simp only [pure, Option.ite_none_right_eq_some, Option.some.injEq] at h
      obtain ⟨-, rfl⟩ := h
      exact ⟨readFraction_lt hf, readOffset_mod ho⟩
    · simp at h
  · simp at h

theorem instant?_valid {f : StampFields} {t : Instant} (hn : f.nanos < nanosPerSec)
    (ho : f.offset % 60 = 0) (h : f.instant? = some t) : t.valid := by
  unfold StampFields.instant? at h
  split at h
  · simp at h
  rename_i hrange
  simp only [secsPerDay, nanosPerSec] at hrange hn
  -- second 60 is the leap second of the minute's last second
  generalize hsn : (if f.second = 60 then (59, f.nanos + nanosPerSec) else (f.second, f.nanos)) =
    sn at h
  obtain ⟨second, nanos⟩ := sn
  have hleap : second ≤ 59 ∧ nanos < 2 * 1000000000 ∧
      (1000000000 ≤ nanos → second = 59) := by
    simp only [nanosPerSec] at hsn
    split at hsn <;> simp only [Prod.mk.injEq] at hsn <;> omega
  simp only at h
  split at h
  · simp at h
  split at h
  · rename_i hday
    simp only [Option.some.injEq] at h
    subst h
    simp only [Instant.valid, hday, Bool.true_and, Bool.and_eq_true, Bool.or_eq_true,
      decide_eq_true_eq, beq_iff_eq]
    simp only [secsPerDay, nanosPerSec]
    omega
  · simp at h

theorem readStamp?_valid {s : String} {t : Instant} (h : Instant.readStamp? s = some t) :
    t.valid := by
  simp only [Instant.readStamp?, Option.bind_eq_some_iff] at h
  obtain ⟨f, hf, h⟩ := h
  obtain ⟨hn, ho⟩ := readStampFields_bounds hf
  exact instant?_valid hn ho h

end Fields


end Outbox.Time
