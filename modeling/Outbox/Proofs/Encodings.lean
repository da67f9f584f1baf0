import Mathlib
import Outbox.Text.Utf8
import Outbox.Text.Base64
import Outbox.Task.Id

/-!
The byte and text forms the stored records are built from read back what they write: the octets
of a text (UTF-8), the padded base64 text of a payload, and the 26-character text of a task id.
For UTF-8 each character is written as a lead octet and the tails `scan` expects after it; the
strict reader then takes the text back whole.
-/

set_option autoImplicit false

namespace Outbox.Utf8

theorem toNat_valid (c : Char) : c.toNat < 0xD800 ∨ (0xDFFF < c.toNat ∧ c.toNat < 0x110000) :=
  c.valid

/-- Writing a character gives its lead octet and the tails that `scan` reads back as it. -/
theorem scan_encodeChar (c : Char) (rest : List UInt8) :
    ∃ b tail, encodeChar c = b :: tail ∧ scan b (tail ++ rest) = (tail.length, some c) := by
  have hv := toNat_valid c
  have hc : Char.ofNat c.toNat = c := Char.ofNat_toNat c
  dsimp only [encodeChar]
  split
  · rename_i h₁
    refine ⟨_, [], rfl, ?_⟩
    have hb : c.toNat.toUInt8.toNat = c.toNat := by simp; omega
    simp (disch := omega) only [scan, hb, lead, if_pos, leadBits, readTails, Option.map_some, hc,
      List.length_nil]
  · split
    · rename_i h₁ h₂
      refine ⟨_, [_], rfl, ?_⟩
      have hb : (0xC0 + c.toNat / 64).toUInt8.toNat = 0xC0 + c.toNat / 64 := by simp; omega
      have ht : (0x80 + c.toNat % 64).toUInt8.toNat = 0x80 + c.toNat % 64 := by simp; omega
      have hl : lead (0xC0 + c.toNat / 64) = some (1, 0x80, 0xBF) := by
        simp (disch := omega) only [lead, if_pos, if_neg]
      have hval : (0xC0 + c.toNat / 64) % 32 * 64 + (0x80 + c.toNat % 64) % 64 = c.toNat := by
        omega
      simp (disch := omega) only [scan, hb, hl, leadBits, List.cons_append, List.nil_append,
        readTails, ht, if_pos, hval, Option.map_some, hc, List.length_singleton, Nat.zero_add]
    · split
      · rename_i h₁ h₂ h₃
        refine ⟨_, [_, _], rfl, ?_⟩
        have hb : (0xE0 + c.toNat / 4096).toUInt8.toNat = 0xE0 + c.toNat / 4096 := by simp; omega
        have ht₁ : (0x80 + c.toNat / 64 % 64).toUInt8.toNat = 0x80 + c.toNat / 64 % 64 := by
          simp; omega
        have ht₂ : (0x80 + c.toNat % 64).toUInt8.toNat = 0x80 + c.toNat % 64 := by simp; omega
        -- the first tail's range depends on the lead: it rules out overlong forms and surrogates
        obtain ⟨lo, hi, hl, hlo, hhi⟩ :
            ∃ lo hi, lead (0xE0 + c.toNat / 4096) = some (2, lo, hi) ∧
            lo ≤ 0x80 + c.toNat / 64 % 64 ∧ 0x80 + c.toNat / 64 % 64 ≤ hi := by
          by_cases ha : c.toNat < 0x1000
          · exact ⟨0xA0, 0xBF, by simp (disch := omega) only [lead, if_pos, if_neg], by omega,
              by omega⟩
          by_cases hb' : c.toNat < 0xD000
          · exact ⟨0x80, 0xBF, by simp (disch := omega) only [lead, if_pos, if_neg], by omega,
              by omega⟩
          by_cases hc' : c.toNat < 0xE000
          · exact ⟨0x80, 0x9F, by simp (disch := omega) only [lead, if_pos, if_neg], by omega,
              by omega⟩
          · exact ⟨0x80, 0xBF, by simp (disch := omega) only [lead, if_pos, if_neg], by omega,
              by omega⟩
        have hval : ((0xE0 + c.toNat / 4096) % 16 * 64 + (0x80 + c.toNat / 64 % 64) % 64) * 64 +
            (0x80 + c.toNat % 64) % 64 = c.toNat := by omega
        simp (disch := omega) only [scan, hb, hl, leadBits, List.cons_append, List.nil_append,
          readTails, ht₁, ht₂, if_pos, hval, Option.map_some, hc, List.length_cons,
          List.length_nil, Nat.zero_add]
      · rename_i h₁ h₂ h₃
        refine ⟨_, [_, _, _], rfl, ?_⟩
        have hb : (0xF0 + c.toNat / 262144).toUInt8.toNat = 0xF0 + c.toNat / 262144 := by
          simp; omega
        have ht₁ : (0x80 + c.toNat / 4096 % 64).toUInt8.toNat = 0x80 + c.toNat / 4096 % 64 := by
          simp; omega
        have ht₂ : (0x80 + c.toNat / 64 % 64).toUInt8.toNat = 0x80 + c.toNat / 64 % 64 := by
          simp; omega
        have ht₃ : (0x80 + c.toNat % 64).toUInt8.toNat = 0x80 + c.toNat % 64 := by simp; omega
        obtain ⟨lo, hi, hl, hlo, hhi⟩ :
            ∃ lo hi, lead (0xF0 + c.toNat / 262144) = some (3, lo, hi) ∧
            lo ≤ 0x80 + c.toNat / 4096 % 64 ∧ 0x80 + c.toNat / 4096 % 64 ≤ hi := by
          by_cases ha : c.toNat < 0x40000
          · exact ⟨0x90, 0xBF, by simp (disch := omega) only [lead, if_pos, if_neg], by omega,
              by omega⟩
          by_cases hb' : c.toNat < 0x100000
          · exact ⟨0x80, 0xBF, by simp (disch := omega) only [lead, if_pos, if_neg], by omega,
              by omega⟩
          · exact ⟨0x80, 0x8F, by simp (disch := omega) only [lead, if_pos, if_neg], by omega,
              by omega⟩
        have hval : (((0xF0 + c.toNat / 262144) % 8 * 64 + (0x80 + c.toNat / 4096 % 64) % 64) * 64 +
            (0x80 + c.toNat / 64 % 64) % 64) * 64 + (0x80 + c.toNat % 64) % 64 = c.toNat := by
          omega
        simp (disch := omega) only [scan, hb, hl, leadBits, List.cons_append, List.nil_append,
          readTails, ht₁, ht₂, ht₃, if_pos, hval, Option.map_some, hc, List.length_cons,
          List.length_nil, Nat.zero_add]

theorem decode?_cons_of_scan {b : UInt8} {bs : List UInt8} {k : Nat} {c : Char}
    (h : scan b bs = (k, some c)) : decode? (b :: bs) = (decode? (bs.drop k)).map (c :: ·) := by
  rw [decode?]
  split
  · simp_all
  · simp_all

theorem decode?_encodeChar_append (c : Char) (rest : List UInt8) :
    decode? (encodeChar c ++ rest) = (decode? rest).map (c :: ·) := by
  obtain ⟨b, tail, he, hs⟩ := scan_encodeChar c rest
  rw [he, List.cons_append, decode?_cons_of_scan hs, List.drop_left]

theorem decode?_flatMap_encodeChar (cs : List Char) :
    decode? (cs.flatMap encodeChar) = some cs := by
  induction cs with
  | nil => simp [decode?]
  | cons c cs ih => simp [decode?_encodeChar_append, ih]

theorem toText?_encode (s : String) : toText? (encode s) = some s := by
  simp [toText?, encode, decode?_flatMap_encodeChar]

theorem encodeChar_of_lt {c : Char} (h : c.toNat < 0x80) : encodeChar c = [c.toNat.toUInt8] := by
  simp [encodeChar, h]

theorem le_of_mem_encodeChar {c : Char} (h : 0x80 ≤ c.toNat) :
    ∀ b ∈ encodeChar c, 0x80 ≤ b.toNat := by
  have hv := toNat_valid c
  intro b hb
  simp only [encodeChar, show ¬c.toNat < 0x80 by omega, if_false] at hb
  split at hb
  · simp only [List.mem_cons, List.not_mem_nil, or_false] at hb
    rcases hb with rfl | rfl <;> simp <;> omega
  · split at hb
    · simp only [List.mem_cons, List.not_mem_nil, or_false] at hb
      rcases hb with rfl | rfl | rfl <;> simp <;> omega
    · simp only [List.mem_cons, List.not_mem_nil, or_false] at hb
      rcases hb with rfl | rfl | rfl | rfl <;> simp <;> omega

end Outbox.Utf8

namespace Outbox.Base64

private theorem symbol_table :
    ∀ v : Fin 64, value? (symbol v) = some v.val ∧ symbol v ≠ '=' := by
  decide

theorem value?_symbol {v : Nat} (h : v < 64) : value? (symbol v) = some v :=
  (symbol_table ⟨v, h⟩).1

theorem symbol_ne_pad {v : Nat} (h : v < 64) : symbol v ≠ '=' :=
  (symbol_table ⟨v, h⟩).2

private theorem toUInt8_eq {n : Nat} {a : UInt8} (h : n = a.toNat) : n.toUInt8 = a := by
  subst h
  simp

theorem quad?_three (a b c : UInt8) :
    let n := a.toNat * 65536 + b.toNat * 256 + c.toNat
    quad? (symbol (n / 262144 % 64)) (symbol (n / 4096 % 64)) (symbol (n / 64 % 64))
      (symbol (n % 64)) = some [a, b, c] := by
  intro n
  have ha := a.toNat_lt
  have hb := b.toNat_lt
  have hc := c.toNat_lt
  simp only [quad?, value?_symbol (Nat.mod_lt _ (by omega : 64 > 0)), Option.bind_eq_bind,
    Option.bind_some, symbol_ne_pad (Nat.mod_lt _ (by omega : 64 > 0)), if_false]
  simp only [Option.pure_def, Option.some.injEq, List.cons.injEq, and_true]
  exact ⟨toUInt8_eq (by omega), toUInt8_eq (by omega), toUInt8_eq (by omega)⟩

theorem quad?_one (a : UInt8) :
    quad? (symbol (a.toNat * 65536 / 262144 % 64)) (symbol (a.toNat * 65536 / 4096 % 64)) '=' '=' =
      some [a] := by
  have ha := a.toNat_lt
  simp only [quad?, value?_symbol (Nat.mod_lt _ (by omega : 64 > 0)), Option.bind_eq_bind,
    Option.bind_some, if_true, Option.pure_def, Option.some.injEq, List.cons.injEq, and_true]
  exact toUInt8_eq (by omega)

theorem quad?_two (a b : UInt8) :
    let n := a.toNat * 65536 + b.toNat * 256
    quad? (symbol (n / 262144 % 64)) (symbol (n / 4096 % 64)) (symbol (n / 64 % 64)) '=' =
      some [a, b] := by
  intro n
  have ha := a.toNat_lt
  have hb := b.toNat_lt
  simp only [quad?, value?_symbol (Nat.mod_lt _ (by omega : 64 > 0)), Option.bind_eq_bind,
    Option.bind_some, symbol_ne_pad (Nat.mod_lt _ (by omega : 64 > 0)), if_false, if_true,
    Option.pure_def, Option.some.injEq, List.cons.injEq, and_true]
  exact ⟨toUInt8_eq (by omega), toUInt8_eq (by omega)⟩

theorem encodeChars_ne_nil {bs : List UInt8} (h : bs ≠ []) : encodeChars bs ≠ [] := by
  match bs, h with
  | [_], _ => simp [encodeChars]
  | [_, _], _ => simp [encodeChars]
  | _ :: _ :: _ :: _, _ => simp [encodeChars]

theorem decodeChars?_encodeChars (bs : List UInt8) : decodeChars? (encodeChars bs) = some bs := by
  fun_induction encodeChars bs with
  | case1 => simp [decodeChars?]
  | case2 a => simpa [encodeChars, decodeChars?] using quad?_one a
  | case3 a b => simpa [encodeChars, decodeChars?] using quad?_two a b
  | case4 a b c rest n ih =>
    by_cases hr : rest = []
    · subst hr
      simpa [encodeChars, decodeChars?] using quad?_three a b c
    · obtain ⟨x, xs, hx⟩ := List.exists_cons_of_ne_nil (encodeChars_ne_nil hr)
      have h3 := quad?_three a b c
      simp only at h3
      rw [List.cons_append, List.cons_append, List.cons_append, List.cons_append, List.nil_append,
        hx, decodeChars?, if_neg, h3, ← hx, ih]
      · rfl
      · exact not_or.2 ⟨symbol_ne_pad (Nat.mod_lt _ (by omega)),
          symbol_ne_pad (Nat.mod_lt _ (by omega))⟩

theorem decode?_encode (bs : List UInt8) : decode? (encode bs) = some bs := by
  simp [decode?, encode, decodeChars?_encodeChars]

end Outbox.Base64

namespace Outbox.Task.TaskId

theorem utf8ByteSize_ofList (l : List Char) :
    (String.ofList l).utf8ByteSize = (l.map Char.utf8Size).sum := by
  induction l with
  | nil => rfl
  | cons c l ih =>
    rw [← String.size_toByteArray] at ih ⊢
    rw [String.toByteArray_ofList, List.utf8Encode_cons, ByteArray.size_append,
      List.utf8Encode_singleton, ← String.toByteArray_ofList, ih]
    simp [List.size_toByteArray]

private theorem symbol_table :
    ∀ v : Fin 32, symbolValue? (symbol v) = some v.val ∧ (symbol v).utf8Size = 1 := by
  decide

theorem foldl_digits (x k : Nat) :
    ((List.range k).map fun i => x / 32 ^ (k - 1 - i) % 32).foldl (fun acc v => acc * 32 + v) 0 =
      x % 32 ^ k := by
  induction k generalizing x with
  | zero => simp [Nat.mod_one]
  | succ k ih =>
    -- the leading `k` digits of `x` are the digits of `x / 32`
    have hmap : ((List.range k).map fun i => x / 32 ^ (k + 1 - 1 - i) % 32) =
        (List.range k).map fun i => x / 32 / 32 ^ (k - 1 - i) % 32 := by
      refine List.map_congr_left fun i hi => ?_
      have hi : i < k := List.mem_range.1 hi
      rw [Nat.div_div_eq_div_mul, ← Nat.pow_succ']
      congr 3
      omega
    rw [List.range_succ, List.map_append, hmap, List.foldl_append, ih]
    simp only [List.map_cons, List.map_nil, List.foldl_cons, List.foldl_nil, Nat.add_sub_cancel,
      Nat.sub_self, Nat.pow_zero, Nat.div_one, Nat.pow_succ]
    rw [Nat.mul_comm (32 ^ k) 32, Nat.mod_mul]
    omega

theorem foldl_mod (m a : Nat) (vs : List Nat) :
    vs.foldl (fun acc v => (acc * 32 + v) % m) (a % m) =
      vs.foldl (fun acc v => acc * 32 + v) a % m := by
  induction vs generalizing a with
  | nil => rfl
  | cons v vs ih =>
    simp only [List.foldl_cons]
    rw [← ih, Nat.add_mod, Nat.mul_mod, Nat.mod_mod, ← Nat.mul_mod, ← Nat.add_mod]

theorem mapM_symbolValue? (ds : List Nat) (h : ∀ d ∈ ds, d < 32) :
    (ds.map symbol).mapM symbolValue? = some ds := by
  induction ds with
  | nil => rfl
  | cons d ds ih =>
    have hd := (symbol_table ⟨d, h d (List.mem_cons_self ..)⟩).1
    simp [hd, ih fun x hx => h x (List.mem_cons_of_mem _ hx)]

theorem utf8ByteSize_text (id : TaskId) : id.text.utf8ByteSize = 26 := by
  simp only [text, utf8ByteSize_ofList, List.map_map]
  rw [List.map_congr_left fun i _ => (symbol_table ⟨_, Nat.mod_lt _ (by omega)⟩).2]
  rfl

/-- An id below `2^128` reads back from its text. -/
theorem read?_text (id : TaskId) (h : id.bits < 2 ^ 128) : read? id.text = .ok id := by
  have hdigits :
      ∀ d ∈ (List.range 26).map (fun i => id.bits / 2 ^ (5 * (25 - i)) % 32), d < 32 := by
    intro d hd
    obtain ⟨i, -, rfl⟩ := List.mem_map.1 hd
    exact Nat.mod_lt _ (by omega)
  have hval : ((List.range 26).map (fun i => id.bits / 2 ^ (5 * (25 - i)) % 32)).foldl
      (fun acc v => (acc * 32 + v) % 2 ^ 128) 0 = id.bits := by
    have hdig : (List.range 26).map (fun i => id.bits / 2 ^ (5 * (25 - i)) % 32) =
        (List.range 26).map (fun i => id.bits / 32 ^ (26 - 1 - i) % 32) :=
      List.map_congr_left fun i _ => by rw [Nat.pow_mul]
    rw [hdig]
    rw [← Nat.zero_mod (2 ^ 128), foldl_mod, foldl_digits,
      Nat.mod_eq_of_lt (show id.bits < 32 ^ 26 by omega), Nat.mod_eq_of_lt h]
  have hmap : (List.range 26).map (fun i => symbol (id.bits / 2 ^ (5 * (25 - i)) % 32)) =
      ((List.range 26).map fun i => id.bits / 2 ^ (5 * (25 - i)) % 32).map symbol := by
    simp
  rw [read?, if_neg (by simp [utf8ByteSize_text]), text, String.toList_ofList]
  simp only [Nat.pow_eq]
  rw [hmap, mapM_symbolValue? _ hdigits]
  simp only [hval]

end Outbox.Task.TaskId
