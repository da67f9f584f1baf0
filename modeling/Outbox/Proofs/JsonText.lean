import Outbox.Proofs.Encodings
import Outbox.Proofs.Stamp
import Outbox.Json.Read
import Outbox.Json.Write

/-!
The reader reads back what the writer writes. For every value whose numbers are integers the
reader keeps as integers (`Value.plain`), reading the UTF-8 octets of `v.write` gives `v.toNode`, and reading stops
right after the value, so a value inside an array or an object frees the reader at the next comma
or bracket.

Text is read back escape by escape (`readChars_escapeChar`); a value by structural recursion on it,
with fuel that the length of the written text bounds.
-/

set_option autoImplicit false

namespace Outbox.Json

open Utf8

theorem encode_append (s t : String) : encode (s ++ t) = encode s ++ encode t := by
  simp [encode]

theorem encode_ofList (cs : List Char) : encode (String.ofList cs) = cs.flatMap encodeChar := by
  simp [encode]

section Text

theorem readChars_quote (acc : List UInt8) (ok : Bool) (rest : List UInt8) :
    readChars acc ok (0x22 :: rest) = some (acc, ok, rest) := by
  rw [readChars]
  simp

theorem readChars_escape {acc rest o r : List UInt8} {ok k : Bool}
    (h : readEscape rest = some (o, k, r)) :
    readChars acc ok (0x5C :: rest) = readChars (o.reverse ++ acc) (ok && k) r := by
  rw [readChars, if_neg (by decide), if_neg (by decide), if_pos (by decide)]
  split
  · next h' =>
    rw [h] at h'
    cases h'
  · next o' k' r' h' =>
    rw [h] at h'
    cases h'
    rfl

theorem readChars_plain (acc : List UInt8) (ok : Bool) {bs : List UInt8}
    (h : ∀ b ∈ bs, 0x20 ≤ b.toNat ∧ b ≠ 0x22 ∧ b ≠ 0x5C) (more : List UInt8) :
    readChars acc ok (bs ++ more) = readChars (bs.reverse ++ acc) ok more := by
  induction bs generalizing acc with
  | nil => rfl
  | cons b bs ih =>
    obtain ⟨h20, h22, h5C⟩ := h b (List.mem_cons_self ..)
    rw [List.cons_append, readChars]
    have hlt : ¬ b.toNat < 0x20 := by omega
    simp only [beq_iff_eq, h22, h5C, hlt, if_false]
    rw [ih _ fun b hb => h b (List.mem_cons_of_mem _ hb)]
    simp

private theorem hex_table :
    ∀ d : Fin 16, hexDigit? (hexChar d).toNat.toUInt8 = some d.val ∧
      (hexChar d).toNat < 0x80 := by
  decide

theorem hexDigit?_hexChar {d : Nat} (h : d < 16) : hexDigit? (hexChar d).toNat.toUInt8 = some d :=
  (hex_table ⟨d, h⟩).1

theorem encodeChar_hexChar {d : Nat} (h : d < 16) :
    encodeChar (hexChar d) = [(hexChar d).toNat.toUInt8] :=
  encodeChar_of_lt (hex_table ⟨d, h⟩).2

theorem readEscape_unicode {n : Nat} (hn : n < 0x20) (more : List UInt8) :
    readEscape ([0x75, 0x30, 0x30] ++ encodeChar (hexChar (n / 16)) ++
      encodeChar (hexChar (n % 16)) ++ more) = some (encodeChar (Char.ofNat n), true, more) := by
  have hhi := hexDigit?_hexChar (show n / 16 < 16 by omega)
  have hlo := hexDigit?_hexChar (show n % 16 < 16 by omega)
  simp only [encodeChar_hexChar (show n / 16 < 16 by omega),
    encodeChar_hexChar (show n % 16 < 16 by omega), List.cons_append, List.nil_append]
  simp only [readEscape, readHex4, hhi, hlo]
  simp (disch := omega) [hexDigit?, if_neg]
  rw [show n / 16 * 16 + n % 16 = n by omega]

theorem readChars_short (acc : List UInt8) (ok : Bool) {e o : UInt8} (more : List UInt8)
    (he : e ≠ 0x75) (ho : shortEscape? e = some o) :
    readChars acc ok (0x5C :: e :: more) = readChars (o :: acc) ok more := by
  rw [readChars_escape (o := [o]) (k := true) (r := more)]
  · simp
  · simp [readEscape, he, ho]

theorem readChars_escapeChar (acc : List UInt8) (ok : Bool) (c : Char) (more : List UInt8) :
    readChars acc ok ((escapeChar c).flatMap encodeChar ++ more) =
      readChars ((encodeChar c).reverse ++ acc) ok more := by
  unfold escapeChar
  split
  · next h =>
    subst h
    exact readChars_short acc ok more (by decide) (by decide)
  split
  · next h =>
    subst h
    exact readChars_short acc ok more (by decide) (by decide)
  split
  · next hlt =>
    -- a control character: a short escape where there is one, else \u00XX
    rw [encodeChar_of_lt (by omega)]
    split
    · next h => rw [h]; exact readChars_short acc ok more (by decide) (by decide)
    split
    · next h => rw [h]; exact readChars_short acc ok more (by decide) (by decide)
    split
    · next h => rw [h]; exact readChars_short acc ok more (by decide) (by decide)
    split
    · next h => rw [h]; exact readChars_short acc ok more (by decide) (by decide)
    split
    · next h => rw [h]; exact readChars_short acc ok more (by decide) (by decide)
    have hbytes : ['\\', 'u', '0', '0', hexChar (c.toNat / 16), hexChar (c.toNat % 16)].flatMap
        encodeChar = 0x5C :: ([0x75, 0x30, 0x30] ++ encodeChar (hexChar (c.toNat / 16)) ++
          encodeChar (hexChar (c.toNat % 16))) := by
      simp only [List.flatMap_cons, List.flatMap_nil, List.append_nil, List.append_assoc]
      rfl
    rw [hbytes, List.cons_append, readChars_escape (readEscape_unicode hlt more),
      Char.ofNat_toNat, encodeChar_of_lt (by omega), Bool.and_true]
  · next hq hb hlt =>
    have hplain : ∀ b ∈ encodeChar c, 0x20 ≤ b.toNat ∧ b ≠ 0x22 ∧ b ≠ 0x5C := by
      by_cases hascii : c.toNat < 0x80
      · rw [encodeChar_of_lt hascii]
        intro b hb'
        simp only [List.mem_singleton] at hb'
        subst hb'
        have hq' : c.toNat ≠ 0x22 := fun h => hq (by rw [← Char.ofNat_toNat c, h])
        have hb'' : c.toNat ≠ 0x5C := fun h => hb (by rw [← Char.ofNat_toNat c, h])
        have hbyte : c.toNat.toUInt8.toNat = c.toNat := by simp; omega
        refine ⟨by omega, fun h => hq' ?_, fun h => hb'' ?_⟩
        · rw [← hbyte, h]
          rfl
        · rw [← hbyte, h]
          rfl
      · intro b hb'
        have := le_of_mem_encodeChar (by omega) b hb'
        refine ⟨by omega, ?_, ?_⟩ <;> (rintro rfl; simp at this)
    simp only [List.flatMap_cons, List.flatMap_nil, List.append_nil]
    exact readChars_plain acc ok hplain more

theorem readChars_escaped (acc : List UInt8) (ok : Bool) (cs : List Char) (more : List UInt8) :
    readChars acc ok ((cs.flatMap escapeChar).flatMap encodeChar ++ more) =
      readChars ((cs.flatMap encodeChar).reverse ++ acc) ok more := by
  induction cs generalizing acc with
  | nil => rfl
  | cons c cs ih =>
    rw [List.flatMap_cons, List.flatMap_append, List.append_assoc, readChars_escapeChar, ih]
    simp

theorem encode_quote (s : String) :
    encode (quote s) = 0x22 :: ((s.toList.flatMap escapeChar).flatMap encodeChar ++ [0x22]) := by
  simp only [quote, encode_append, encode_ofList]
  rfl

theorem readString_quote (s : String) (rest : List UInt8) :
    readString ((s.toList.flatMap escapeChar).flatMap encodeChar ++ 0x22 :: rest) =
      some (some s, rest) := by
  rw [readString, readChars_escaped, readChars_quote]
  simp only [List.append_nil]
  rw [show s.toList.flatMap encodeChar = encode s from rfl]
  simp [toText?_encode]

end Text

section Numbers

theorem digit_byte {c : Char} (h : c.isDigit) :
    encodeChar c = [c.toNat.toUInt8] ∧ digit? c.toNat.toUInt8 = some (c.toNat - 48) := by
  have hc := Time.isDigit_iff.1 h
  have hbyte : c.toNat.toUInt8.toNat = c.toNat := by simp; omega
  refine ⟨encodeChar_of_lt (by omega), ?_⟩
  simp only [digit?, hbyte]
  rw [if_pos (by omega)]

/-- Whether octets after a number end it: nothing, or a comma or closing bracket or brace. -/
def Stops (rest : List UInt8) : Prop := ∀ b ∈ rest.head?, b = 0x2C ∨ b = 0x5D ∨ b = 0x7D

theorem digit?_of_stops {b : UInt8} {rest : List UInt8} (h : Stops (b :: rest)) :
    digit? b = none := by
  rcases h b rfl with rfl | rfl | rfl <;> decide

theorem intDigits_digits (sig : Nat) {ds : List Char} (hd : ∀ c ∈ ds, c.isDigit)
    {rest : List UInt8} (hrest : Stops rest) (hlim : Nat.ofDigitChars 10 ds sig ≤ significandLimit) :
    intDigits sig 0 (ds.flatMap encodeChar ++ rest) = (Nat.ofDigitChars 10 ds sig, 0, rest) := by
  induction ds generalizing sig with
  | nil =>
    cases rest with
    | nil => rfl
    | cons b rest => simp [intDigits, digit?_of_stops hrest]
  | cons c ds ih =>
    obtain ⟨henc, hdig⟩ := digit_byte (hd c (List.mem_cons_self ..))
    rw [Nat.ofDigitChars_cons, show '0'.toNat = 48 from rfl] at hlim ⊢
    -- the value read so far never exceeds the whole number
    have hstep : sig * 10 + (c.toNat - 48) ≤ significandLimit := by
      have hmono := @Nat.ofDigitChars_eq_ofDigitChars_zero ds (10 * sig + (c.toNat - 48))
      have : 10 * sig + (c.toNat - 48) ≤ 10 ^ ds.length * (10 * sig + (c.toNat - 48)) :=
        Nat.le_mul_of_pos_left _ (Nat.pow_pos (by decide))
      omega
    rw [List.flatMap_cons, henc, List.singleton_append, List.cons_append, intDigits, hdig]
    simp only [true_and, hstep, if_true]
    rw [Nat.mul_comm sig 10]
    exact ih _ (fun c hc => hd c (List.mem_cons_of_mem _ hc)) hlim

theorem readFraction_stops (sig : Nat) (exp : Int) {rest : List UInt8} (h : Stops rest) :
    readFraction sig exp rest = some (sig, exp, false, rest) := by
  cases rest with
  | nil => rfl
  | cons b rest => rcases h b rfl with rfl | rfl | rfl <;> rfl

theorem readExponent_stops (exp : Int) {rest : List UInt8} (h : Stops rest) :
    readExponent exp rest = some (exp, false, rest) := by
  cases rest with
  | nil => rfl
  | cons b rest => rcases h b rfl with rfl | rfl | rfl <;> rfl

theorem startsWithDigit_stops {rest : List UInt8} (h : Stops rest) :
    startsWithDigit rest = false := by
  cases rest with
  | nil => rfl
  | cons b rest => simp [startsWithDigit, digit?_of_stops h]

theorem toDigits_of_head_zero {n : Nat} {ds : List Char} (h : Nat.toDigits 10 n = '0' :: ds) :
    n = 0 ∧ ds = [] := by
  have hval := @Nat.ofDigitChars_ten_toDigits n
  have hdigits : ∀ c ∈ ds, c.isDigit := fun c hc =>
    Nat.isDigit_of_mem_toDigits (by decide) (by decide) (h ▸ List.mem_cons_of_mem _ hc)
  have hlt := Time.digitsValue_lt hdigits
  rw [h, Nat.ofDigitChars_cons] at hval
  simp only [Nat.mul_zero, Nat.sub_self, Nat.add_zero] at hval
  rw [Time.digitsValue_eq, hval] at hlt
  cases ds with
  | nil => simp_all [Nat.ofDigitChars]
  | cons d ds =>
    have hlen := (Nat.length_toDigits_le_iff (n := n) (by decide) (by simp)).2 hlt
    simp only [h, List.length_cons] at hlen
    omega

/-- The digits of a natural below `2^64` are read as its integer part, up to what stops it. -/
theorem readIntPart_toString {n : Nat} (hn : n < 2 ^ 64) {rest : List UInt8} (hrest : Stops rest) :
    readIntPart (encode (toString n) ++ rest) = some (n, 0, rest) := by
  rw [Nat.toString_eq_ofList_toDigits, encode_ofList]
  have hval := @Nat.ofDigitChars_ten_toDigits n
  have hdigits : ∀ c ∈ Nat.toDigits 10 n, c.isDigit :=
    fun c hc => Nat.isDigit_of_mem_toDigits (by decide) (by decide) hc
  obtain ⟨d, ds, hds⟩ := List.exists_cons_of_ne_nil (@Nat.toDigits_ne_nil n 10)
  rw [hds] at hval hdigits ⊢
  obtain ⟨henc, hdig⟩ := digit_byte (hdigits d (List.mem_cons_self ..))
  rw [List.flatMap_cons, henc, List.singleton_append, List.cons_append, readIntPart, hdig]
  by_cases hzero : d.toNat - 48 = 0
  · -- a leading zero is the whole number zero
    have hd0 : d = '0' := by
      have := Time.isDigit_iff.1 (hdigits d (List.mem_cons_self ..))
      rw [← Char.ofNat_toNat d, show d.toNat = 48 by omega]
    obtain ⟨rfl, rfl⟩ := toDigits_of_head_zero (hd0 ▸ hds)
    simp [hzero, startsWithDigit_stops hrest]
  · rw [Nat.ofDigitChars_cons, show '0'.toNat = 48 from rfl, Nat.mul_zero, Nat.zero_add]
      at hval
    obtain ⟨k, hk⟩ : ∃ k, d.toNat - 48 = k + 1 := ⟨d.toNat - 48 - 1, by omega⟩
    simp only [hk]
    rw [intDigits_digits _ (fun c hc => hdigits c (List.mem_cons_of_mem _ hc)) hrest
      (by rw [← hk, hval, significandLimit, Nat.pow_eq]; omega), ← hk, hval]

theorem readNumber_nat {n : Nat} (hn : n < 2 ^ 64) {rest : List UInt8} (hrest : Stops rest) :
    readNumber false (encode (toString n) ++ rest) = some (some (.nat n), rest) := by
  simp only [readNumber, readIntPart_toString hn hrest, Option.bind_eq_bind, Option.bind_some,
    readFraction_stops _ _ hrest, readExponent_stops _ hrest]
  rfl

theorem readNumber_neg {n : Nat} (hpos : 0 < n) (hn : n ≤ 2 ^ 63) {rest : List UInt8}
    (hrest : Stops rest) :
    readNumber true (encode (toString n) ++ rest) = some (some (.neg n), rest) := by
  have h64 : n < 2 ^ 64 := by omega
  simp only [readNumber, readIntPart_toString h64 hrest, Option.bind_eq_bind, Option.bind_some,
    readFraction_stops _ _ hrest, readExponent_stops _ hrest]
  rw [if_pos (by simp), if_neg (by simp), if_pos ⟨hpos, by rw [Nat.pow_eq]; exact hn⟩]
  rfl

end Numbers

section Values

mutual
/-- Values whose numbers are integers in the ranges the reader keeps as integers, naturals below
`2^64` and negatives down to `-2^63`: the ones whose text reads back as written. -/
def Value.plain : Value → Bool
  | .number (.nat n) => n < 2 ^ 64
  | .number (.neg n) => 0 < n && n ≤ 2 ^ 63
  | .number (.float _) => false
  | .array items => Value.itemsPlain items
  | .object members => Value.membersPlain members
  | _ => true

def Value.itemsPlain : List Value → Bool
  | [] => true
  | v :: rest => v.plain && Value.itemsPlain rest

def Value.membersPlain : List (String × Value) → Bool
  | [] => true
  | (_, v) :: rest => v.plain && Value.membersPlain rest
end

theorem skipBlank_cons {b : UInt8} (rest : List UInt8) (h : isBlank b = false) :
    skipBlank (b :: rest) = b :: rest := by
  simp [skipBlank, h]

theorem stops_comma (rest : List UInt8) : Stops (0x2C :: rest) :=
  fun _ h => .inl (Option.some.inj h).symm

theorem stops_bracket (rest : List UInt8) : Stops (0x5D :: rest) :=
  fun _ h => .inr (.inl (Option.some.inj h).symm)

theorem stops_brace (rest : List UInt8) : Stops (0x7D :: rest) :=
  fun _ h => .inr (.inr (Option.some.inj h).symm)

theorem encode_toString (n : Nat) :
    ∃ b bs, encode (toString n) = b :: bs ∧ 0x30 ≤ b.toNat ∧ b.toNat ≤ 0x39 := by
  rw [Nat.toString_eq_ofList_toDigits, encode_ofList]
  obtain ⟨d, ds, hds⟩ := List.exists_cons_of_ne_nil (@Nat.toDigits_ne_nil n 10)
  have hd : d.isDigit :=
    Nat.isDigit_of_mem_toDigits (by decide) (by decide) (hds ▸ List.mem_cons_self ..)
  have hbounds := Time.isDigit_iff.1 hd
  have hbyte : d.toNat.toUInt8.toNat = d.toNat := by simp; omega
  refine ⟨d.toNat.toUInt8, ds.flatMap encodeChar, ?_, by omega, by omega⟩
  rw [hds, List.flatMap_cons, (digit_byte hd).1]
  rfl

/-- A written value starts with an octet that is no blank and closes nothing. -/
theorem head_write (v : Value) (hv : v.plain) :
    ∃ b bs, encode v.write = b :: bs ∧ isBlank b = false ∧ b ≠ 0x5D ∧ b ≠ 0x7D := by
  match v with
  | .null => exact ⟨_, _, rfl, by decide, by decide, by decide⟩
  | .bool true => exact ⟨_, _, rfl, by decide, by decide, by decide⟩
  | .bool false => exact ⟨_, _, rfl, by decide, by decide, by decide⟩
  | .number (.nat n) =>
    obtain ⟨b, bs, h, hlo, hhi⟩ := encode_toString n
    refine ⟨b, bs, h, ?_, ?_, ?_⟩
    · simp only [isBlank, Bool.or_eq_false_iff, beq_eq_false_iff_ne]
      refine ⟨⟨⟨?_, ?_⟩, ?_⟩, ?_⟩ <;> (rintro rfl; simp at hlo)
    · rintro rfl
      simp at hhi
    · rintro rfl
      simp at hhi
  | .number (.neg n) =>
    refine ⟨0x2D, encode (toString n), ?_, by decide, by decide, by decide⟩
    simp only [Value.write, Number.text, encode_append]
    rfl
  | .number (.float _) => simp [Value.plain] at hv
  | .str s => exact ⟨_, _, encode_quote s, by decide, by decide, by decide⟩
  | .array items =>
    simp only [Value.write, encode_append]
    exact ⟨_, _, rfl, by decide, by decide, by decide⟩
  | .object members =>
    simp only [Value.write, encode_append]
    exact ⟨_, _, rfl, by decide, by decide, by decide⟩

theorem readValue_write_null (fuel : Nat) (rest : List UInt8) :
    readValue (fuel + 1) (encode Value.null.write ++ rest) = some (Value.null.toNode, rest) := by
  rw [show encode Value.null.write ++ rest = 0x6E :: 0x75 :: 0x6C :: 0x6C :: rest from rfl,
    readValue, skipBlank_cons _ (by decide)]
  simp [readWord, Value.toNode]

theorem readValue_write_str (fuel : Nat) (s : String) (rest : List UInt8) :
    readValue (fuel + 1) (encode (Value.str s).write ++ rest) =
      some ((Value.str s).toNode, rest) := by
  rw [Value.write, encode_quote, List.cons_append, List.append_assoc, List.singleton_append]
  rw [readValue, skipBlank_cons _ (by decide)]
  simp [readString_quote, Value.toNode]

theorem readValue_digit {b : UInt8} (hlo : 0x30 ≤ b.toNat) (hhi : b.toNat ≤ 0x39) (fuel : Nat)
    (rest : List UInt8) :
    readValue (fuel + 1) (b :: rest) =
      (readNumber false (b :: rest)).map (fun x => (.number x.1, x.2)) := by
  have hne : ∀ c : UInt8, c.toNat < 0x30 ∨ 0x39 < c.toNat → (b == c) = false := by
    intro c hc
    simp only [beq_eq_false_iff_ne]
    rintro rfl
    omega
  have hdig : (digit? b).isSome = true := by
    simp only [digit?]
    rw [if_pos ⟨hlo, hhi⟩]
    rfl
  have hblank : isBlank b = false := by
    simp [isBlank, hne 0x20 (by decide), hne 0x09 (by decide), hne 0x0A (by decide),
      hne 0x0D (by decide)]
  rw [readValue, skipBlank_cons _ hblank]
  simp only [hne 0x6E (by decide), hne 0x74 (by decide), hne 0x66 (by decide),
    hne 0x22 (by decide), hne 0x2D (by decide), hdig, Bool.false_eq_true, if_false, if_true]

theorem readValue_bracket (fuel : Nat) {b : UInt8} {tail : List UInt8} (hb : isBlank b = false)
    (hclose : b ≠ 0x5D) :
    readValue (fuel + 1) (0x5B :: b :: tail) =
      (readItems fuel [] (b :: tail)).map (fun x => (.array x.1, x.2)) := by
  rw [readValue, skipBlank_cons _ (by decide)]
  simp [startsWith, hclose, skipBlank_cons _ hb, digit?]

theorem readValue_brace (fuel : Nat) {b : UInt8} {tail : List UInt8} (hb : isBlank b = false)
    (hclose : b ≠ 0x7D) :
    readValue (fuel + 1) (0x7B :: b :: tail) =
      (readMembers fuel [] (b :: tail)).map (fun x => (.object x.1, x.2)) := by
  rw [readValue, skipBlank_cons _ (by decide)]
  simp [startsWith, hclose, skipBlank_cons _ hb, digit?]

theorem encode_writeItems_cons (v w : Value) (more : List Value) :
    encode (Value.writeItems (v :: w :: more)) =
      encode v.write ++ 0x2C :: encode (Value.writeItems (w :: more)) := by
  rw [show Value.writeItems (v :: w :: more) = v.write ++ "," ++ Value.writeItems (w :: more)
    from rfl, encode_append, encode_append, List.append_assoc]
  rfl

theorem encode_writeMember (k : String) (v : Value) :
    encode (Value.writeMembers [(k, v)]) =
      0x22 :: ((k.toList.flatMap escapeChar).flatMap encodeChar ++
        0x22 :: 0x3A :: encode v.write) := by
  rw [Value.writeMembers, encode_append, encode_append, encode_quote]
  simp only [List.cons_append, List.append_assoc]
  rfl

theorem encode_writeMembers_cons (k : String) (v : Value) (m : String × Value)
    (more : List (String × Value)) :
    encode (Value.writeMembers ((k, v) :: m :: more)) =
      encode (Value.writeMembers [(k, v)]) ++ 0x2C :: encode (Value.writeMembers (m :: more)) := by
  rw [show Value.writeMembers ((k, v) :: m :: more) =
      quote k ++ ":" ++ v.write ++ "," ++ Value.writeMembers (m :: more) from rfl,
    encode_writeMember, encode_append, encode_append, encode_append, encode_append, encode_quote]
  simp only [List.cons_append, List.append_assoc]
  rfl

theorem readMembers_key_value (fuel : Nat) (acc : List (Option String × Node)) (k : String)
    {v : Value} {after : List UInt8}
    (hread : readValue (fuel + 1) (encode v.write ++ after) = some (v.toNode, after)) :
    readMembers (fuel + 1 + 1) acc
      (0x22 :: ((k.toList.flatMap escapeChar).flatMap encodeChar ++ 0x22 :: 0x3A ::
        (encode v.write ++ after))) =
      if startsWith 0x2C (skipBlank after) then
        readMembers (fuel + 1) ((some k, v.toNode) :: acc) ((skipBlank after).drop 1)
      else if startsWith 0x7D (skipBlank after) then
        some (((some k, v.toNode) :: acc).reverse, (skipBlank after).drop 1)
      else none := by
  rw [readMembers, skipBlank_cons _ (by decide)]
  simp only [startsWith, List.drop_one, List.tail_cons, beq_self_eq_true, if_true,
    readString_quote, skipBlank_cons _ (show isBlank 0x3A = false by decide), hread]

mutual

theorem readValue_write (v : Value) (fuel : Nat) (rest : List UInt8) (hv : v.plain)
    (hlen : (encode v.write).length ≤ fuel) (hrest : Stops rest) :
    readValue (fuel + 1) (encode v.write ++ rest) = some (v.toNode, rest) := by
  cases v with
  | null => exact readValue_write_null fuel rest
  | bool b =>
    cases b with
    | true =>
      rw [show encode (Value.bool true).write ++ rest = 0x74 :: 0x72 :: 0x75 :: 0x65 :: rest
        from rfl, readValue, skipBlank_cons _ (by decide)]
      simp [readWord, Value.toNode]
    | false =>
      rw [show encode (Value.bool false).write ++ rest =
          0x66 :: 0x61 :: 0x6C :: 0x73 :: 0x65 :: rest from rfl,
        readValue, skipBlank_cons _ (by decide)]
      simp [readWord, Value.toNode]
  | number n =>
    cases n with
    | nat n =>
      obtain ⟨b, bs, h, hlo, hhi⟩ := encode_toString n
      have hn : n < 2 ^ 64 := by simpa [Value.plain] using hv
      simp only [Value.write, Number.text]
      rw [h, List.cons_append, readValue_digit hlo hhi, ← List.cons_append, ← h,
        readNumber_nat hn hrest]
      rfl
    | neg n =>
      have hn : 0 < n ∧ n ≤ 2 ^ 63 := by simpa [Value.plain] using hv
      have hwrite : encode (Value.number (.neg n)).write ++ rest =
          0x2D :: (encode (toString n) ++ rest) := by
        simp only [Value.write, Number.text, encode_append, List.append_assoc]
        rfl
      rw [hwrite, readValue, skipBlank_cons _ (by decide)]
      simp only [readNumber_neg hn.1 hn.2 hrest]
      simp [Value.toNode]
    | float _ => simp [Value.plain] at hv
  | str s => exact readValue_write_str fuel s rest
  | array items =>
    cases items with
    | nil =>
      rw [show encode (Value.array []).write ++ rest = 0x5B :: 0x5D :: rest from rfl, readValue,
        skipBlank_cons _ (by decide)]
      simp [startsWith, skipBlank_cons _ (show isBlank 0x5D = false by decide), digit?,
        Value.toNode, Value.itemsToNodes]
    | cons v more =>
      have hitems : Value.itemsPlain (v :: more) := by simpa [Value.plain] using hv
      obtain ⟨b, bs, hb, hblank, hclose, -⟩ := head_write v (by simp_all [Value.itemsPlain])
      have hwrite : encode (Value.array (v :: more)).write ++ rest =
          0x5B :: (encode (Value.writeItems (v :: more)) ++ 0x5D :: rest) := by
        simp only [Value.write, encode_append, List.append_assoc]
        rfl
      have hlen' : (encode (Value.array (v :: more)).write).length =
          (encode (Value.writeItems (v :: more))).length + 2 := by
        have hopen : (encode "[").length = 1 := rfl
        have hclose : (encode "]").length = 1 := rfl
        simp only [Value.write, encode_append, List.length_append]
        omega
      have hhead : ∃ tail, encode (Value.writeItems (v :: more)) ++ 0x5D :: rest = b :: tail := by
        cases more with
        | nil => exact ⟨bs ++ 0x5D :: rest, by rw [Value.writeItems, hb]; rfl⟩
        | cons w more => exact ⟨_, by rw [encode_writeItems_cons, hb]; rfl⟩
      obtain ⟨tail, htail⟩ := hhead
      obtain ⟨g, rfl⟩ : ∃ g, fuel = g + 1 := ⟨fuel - 1, by omega⟩
      rw [hwrite, htail, readValue_bracket (g + 1) hblank hclose, ← htail,
        readItems_write (v :: more) g [] rest (List.cons_ne_nil _ _) hitems (by omega)]
      rfl
  | object members =>
    cases members with
    | nil =>
      rw [show encode (Value.object []).write ++ rest = 0x7B :: 0x7D :: rest from rfl, readValue,
        skipBlank_cons _ (by decide)]
      simp [startsWith, skipBlank_cons _ (show isBlank 0x7D = false by decide), digit?,
        Value.toNode, Value.membersToNodes]
    | cons m more =>
      obtain ⟨k, v⟩ := m
      have hmembers : Value.membersPlain ((k, v) :: more) := by simpa [Value.plain] using hv
      have hwrite : encode (Value.object ((k, v) :: more)).write ++ rest =
          0x7B :: (encode (Value.writeMembers ((k, v) :: more)) ++ 0x7D :: rest) := by
        simp only [Value.write, encode_append, List.append_assoc]
        rfl
      have hlen' : (encode (Value.object ((k, v) :: more)).write).length =
          (encode (Value.writeMembers ((k, v) :: more))).length + 2 := by
        have hopen : (encode "\x7b").length = 1 := rfl
        have hclose : (encode "\x7d").length = 1 := rfl
        simp only [Value.write, encode_append, List.length_append]
        omega
      have hhead : ∃ tail, encode (Value.writeMembers ((k, v) :: more)) ++ 0x7D :: rest =
          0x22 :: tail := by
        cases more with
        | nil => exact ⟨_, by rw [encode_writeMember]; rfl⟩
        | cons m more => exact ⟨_, by rw [encode_writeMembers_cons, encode_writeMember]; rfl⟩
      obtain ⟨tail, htail⟩ := hhead
      obtain ⟨g, rfl⟩ : ∃ g, fuel = g + 1 := ⟨fuel - 1, by omega⟩
      rw [hwrite, htail, readValue_brace (g + 1) (by decide) (by decide), ← htail,
        readMembers_write ((k, v) :: more) g [] rest (List.cons_ne_nil _ _) hmembers (by omega)]
      rfl
termination_by structural v

theorem readItems_write :
    ∀ (items : List Value) (fuel : Nat) (acc : List Node) (rest : List UInt8),
    items ≠ [] → Value.itemsPlain items →
    (encode (Value.writeItems items)).length + 1 ≤ fuel →
    readItems (fuel + 1) acc (encode (Value.writeItems items) ++ 0x5D :: rest) =
      some (acc.reverse ++ Value.itemsToNodes items, rest)
  | [], _, _, _, h, _, _ => (h rfl).elim
  | [v], fuel, acc, rest, _, hv, hfuel => by
    have hv' : v.plain := by simpa [Value.itemsPlain] using hv
    rw [Value.writeItems] at hfuel ⊢
    obtain ⟨g, rfl⟩ : ∃ g, fuel = g + 1 := ⟨fuel - 1, by omega⟩
    rw [readItems, readValue_write v g (0x5D :: rest) hv' (by omega) (stops_bracket rest)]
    simp [skipBlank_cons _ (show isBlank 0x5D = false by decide), startsWith, Value.itemsToNodes]
  | v :: w :: more, fuel, acc, rest, _, hv, hfuel => by
    rw [Value.itemsPlain, Bool.and_eq_true] at hv
    rw [encode_writeItems_cons, List.length_append, List.length_cons] at hfuel
    have hpos : 0 < (encode v.write).length := by
      obtain ⟨b, bs, hb, -⟩ := head_write v hv.1
      simp [hb]
    obtain ⟨g, rfl⟩ : ∃ g, fuel = g + 1 := ⟨fuel - 1, by omega⟩
    rw [encode_writeItems_cons, List.append_assoc, List.cons_append, readItems,
      readValue_write v g _ hv.1 (by omega) (stops_comma _)]
    simp only [skipBlank_cons _ (show isBlank 0x2C = false by decide), startsWith,
      List.drop_one, List.tail_cons]
    rw [readItems_write (w :: more) g (v.toNode :: acc) rest (List.cons_ne_nil _ _) hv.2
      (by omega)]
    simp [Value.itemsToNodes]
termination_by structural items => items

theorem readMembers_write : ∀ (ms : List (String × Value)) (fuel : Nat)
    (acc : List (Option String × Node)) (rest : List UInt8),
    ms ≠ [] → Value.membersPlain ms → (encode (Value.writeMembers ms)).length + 1 ≤ fuel →
    readMembers (fuel + 1) acc (encode (Value.writeMembers ms) ++ 0x7D :: rest) =
      some (acc.reverse ++ Value.membersToNodes ms, rest)
  | [], _, _, _, h, _, _ => (h rfl).elim
  | (k, v) :: more, fuel, acc, rest, _, hv, hfuel => by
    have ih := readMembers_write more
    rw [Value.membersPlain, Bool.and_eq_true] at hv
    have hmember := encode_writeMember k v
    have hlen : (encode v.write).length + 1 < (encode (Value.writeMembers [(k, v)])).length := by
      rw [hmember]
      simp only [List.length_cons, List.length_append]
      omega
    cases more with
    | nil =>
      obtain ⟨g, rfl⟩ : ∃ g, fuel = g + 1 := ⟨fuel - 1, by omega⟩
      rw [hmember, List.cons_append, List.append_assoc, List.cons_append, List.cons_append,
        readMembers_key_value g acc k
        (readValue_write v g _ hv.1 (by omega) (stops_brace rest))]
      simp [skipBlank_cons _ (show isBlank 0x7D = false by decide), startsWith,
        Value.membersToNodes]
    | cons m more =>
      rw [encode_writeMembers_cons, List.length_append, List.length_cons] at hfuel
      obtain ⟨g, rfl⟩ : ∃ g, fuel = g + 1 := ⟨fuel - 1, by omega⟩
      rw [encode_writeMembers_cons, hmember]
      simp only [List.cons_append, List.append_assoc]
      rw [readMembers_key_value g acc k (readValue_write v g _ hv.1 (by omega) (stops_comma _))]
      simp only [skipBlank_cons _ (show isBlank 0x2C = false by decide), startsWith,
        List.drop_one, List.tail_cons]
      rw [if_pos (by decide), ih g _ rest (List.cons_ne_nil _ _) hv.2 (by omega)]
      simp [Value.membersToNodes]
termination_by structural ms => ms

end

theorem stops_nil : Stops [] := fun _ h => nomatch h

theorem read_write (v : Value) (hv : v.plain) : read (encode v.write) = some v.toNode := by
  have h := readValue_write v ((encode v.write).length + 1) [] hv (by omega) stops_nil
  rw [List.append_nil] at h
  rw [read, h]
  rfl

end Values

end Outbox.Json
