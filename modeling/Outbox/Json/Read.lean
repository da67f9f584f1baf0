import Outbox.Json.Value
import Outbox.Text.Utf8

/-!
Reading a JSON document (RFC 8259) from octets into a `Node`. Each reader takes the remaining
octets and gives back what it read with the octets after it.

The grammar is strict: no leading zeros, a digit on both sides of a decimal point, no trailing
commas, no control characters inside text, and only the escapes `\" \\ \/ \b \f \n \r \t \uXXXX`.
Numbers keep the distinction the text makes: without a point or an exponent, an integer in the
64-bit ranges stays an integer (`-0` and integers past them become doubles); otherwise the
double is built by `Decimal.ofParts`, with digits past a full 64-bit significand dropped.

`Decimal.ofParts` builds a double from a decimal `significand · 10^exponent` the way a JSON reader
without exact decimal conversion builds it: the significand (below `2^64`) is rounded to the
nearest double, then multiplied or divided once by a power of ten from the table `1e0 .. 1e308`;
an exponent below `-308` first divides by `1e308` until it is in the table. A result that overflows
is no double. This is not always the double nearest to the decimal, and that is the point: readers
that build doubles this way agree with it to the last bit.
-/

set_option autoImplicit false

namespace Outbox.Decimal

def pow10 (k : Nat) : Float := Float.ofScientific 1 false k

/-- Scales `f` by `10^e` through the table; `fuel` bounds the divisions by `1e308`. -/
def scale : Nat → Float → Int → Option Float
  | 0, f, _ => some f
  | fuel + 1, f, e =>
    if e.natAbs ≤ 308 then
      if 0 ≤ e then
        let g := f * pow10 e.natAbs
        if g.isInf then none else some g
      else some (f / pow10 e.natAbs)
    else if f == 0.0 then some f
    else if 0 ≤ e then none
    else scale fuel (f / pow10 308) (e + 308)

/-- The double of `±significand · 10^exponent` as described above, or nothing on overflow. -/
def ofParts (negative : Bool) (significand : Nat) (exponent : Int) : Option Float :=
  (scale (exponent.natAbs / 308 + 2) (Float.ofNat significand) exponent).map
    (fun f => if negative then -f else f)

end Outbox.Decimal

namespace Outbox.Json

/-- Blank octets between tokens: space, tab, line feed, carriage return. -/
def isBlank (b : UInt8) : Bool := b == 0x20 || b == 0x09 || b == 0x0A || b == 0x0D

def skipBlank : List UInt8 → List UInt8
  | [] => []
  | b :: rest => if isBlank b then skipBlank rest else b :: rest

def startsWith (o : UInt8) : List UInt8 → Bool
  | b :: _ => b == o
  | [] => false

def digit? (b : UInt8) : Option Nat :=
  if 0x30 ≤ b.toNat ∧ b.toNat ≤ 0x39 then some (b.toNat - 0x30) else none

def significandLimit : Nat := Nat.pow 2 64 - 1

/-- Integer digits: the significand, how many digits were dropped once it was full, and the
octets after the digits. -/
def intDigits : Nat → Nat → List UInt8 → Nat × Nat × List UInt8
  | sig, dropped, [] => (sig, dropped, [])
  | sig, dropped, b :: rest =>
    match digit? b with
    | none => (sig, dropped, b :: rest)
    | some d =>
      if dropped = 0 ∧ sig * 10 + d ≤ significandLimit then intDigits (sig * 10 + d) 0 rest
      else intDigits sig (dropped + 1) rest

/-- Fraction digits: the significand, how many digits it took in, whether it was full, and the
octets after the digits. Once full, it takes in no further digit. -/
def fracDigits : Nat → Nat → Bool → List UInt8 → Nat × Nat × Bool × List UInt8
  | sig, taken, full, [] => (sig, taken, full, [])
  | sig, taken, full, b :: rest =>
    match digit? b with
    | none => (sig, taken, full, b :: rest)
    | some d =>
      if !full ∧ sig * 10 + d ≤ significandLimit then
        fracDigits (sig * 10 + d) (taken + 1) false rest
      else fracDigits sig taken true rest

/-- Exponent digits as a number, and the octets after them. -/
def expDigits : Nat → List UInt8 → Nat × List UInt8
  | n, [] => (n, [])
  | n, b :: rest =>
    match digit? b with
    | none => (n, b :: rest)
    | some d => expDigits (n * 10 + d) rest

def startsWithDigit : List UInt8 → Bool
  | b :: _ => (digit? b).isSome
  | [] => false

/-- The integer part: its significand, the count of dropped digits, and the rest. -/
def readIntPart : List UInt8 → Option (Nat × Nat × List UInt8)
  | [] => none
  | b :: rest =>
    match digit? b with
    | none => none
    | some 0 => if startsWithDigit rest then none else some (0, 0, rest)
    | some d => some (intDigits d 0 rest)

/-- An optional fraction: significand, decimal exponent so far, whether there was a point, and
the rest. -/
def readFraction (sig : Nat) (exp : Int) : List UInt8 → Option (Nat × Int × Bool × List UInt8)
  | [] => some (sig, exp, false, [])
  | b :: rest =>
    if b == 0x2E then
      if startsWithDigit rest then
        let (sig', taken, _, rest') := fracDigits sig 0 false rest
        some (sig', exp - taken, true, rest')
      else none
    else some (sig, exp, false, b :: rest)

/-- An optional sign of an exponent: whether it is negative, and the rest. -/
def readSign : List UInt8 → Bool × List UInt8
  | [] => (false, [])
  | b :: rest =>
    if b == 0x2B then (false, rest)
    else if b == 0x2D then (true, rest)
    else (false, b :: rest)

/-- An optional exponent: the decimal exponent, whether there was one, and the rest. -/
def readExponent (exp : Int) : List UInt8 → Option (Int × Bool × List UInt8)
  | [] => some (exp, false, [])
  | b :: rest =>
    if b == 0x65 || b == 0x45 then
      let (negative, rest) := readSign rest
      if startsWithDigit rest then
        let (n, rest') := expDigits 0 rest
        some (if negative then exp - n else exp + n, true, rest')
      else none
    else some (exp, false, b :: rest)

/-- A number after its optional minus sign; the number is `none` when it is past the range of
a double. -/
def readNumber (negative : Bool) (bs : List UInt8) : Option (Option Number × List UInt8) := do
  let (sig, dropped, rest) ← readIntPart bs
  let (sig, exp, point, rest) ← readFraction sig dropped rest
  let (exp, hasExp, rest) ← readExponent exp rest
  if dropped = 0 ∧ !point ∧ !hasExp then
    if !negative then pure (some (.nat sig), rest)
    else if 0 < sig ∧ sig ≤ Nat.pow 2 63 then pure (some (.neg sig), rest)
    else pure ((Decimal.ofParts true sig 0).map (fun f => .float f.toBits), rest)
  else pure ((Decimal.ofParts negative sig exp).map (fun f => .float f.toBits), rest)

/-- The value of a hexadecimal digit octet. -/
def hexDigit? (b : UInt8) : Option Nat :=
  let n := b.toNat
  if 0x30 ≤ n ∧ n ≤ 0x39 then some (n - 0x30)
  else if 0x41 ≤ n ∧ n ≤ 0x46 then some (n - 0x41 + 10)
  else if 0x61 ≤ n ∧ n ≤ 0x66 then some (n - 0x61 + 10)
  else none

/-- Four hexadecimal digits and the octets after them. -/
def readHex4 (bs : List UInt8) : Option (Nat × List UInt8) :=
  match bs with
  | a :: b :: c :: d :: rest =>
    match hexDigit? a, hexDigit? b, hexDigit? c, hexDigit? d with
    | some va, some vb, some vc, some vd => some (((va * 16 + vb) * 16 + vc) * 16 + vd, rest)
    | _, _, _, _ => none
  | _ => none

theorem readHex4_length {bs rest : List UInt8} {n : Nat} (h : readHex4 bs = some (n, rest)) :
    rest.length + 4 = bs.length := by
  unfold readHex4 at h
  split at h
  · split at h
    · simp only [Option.some.injEq, Prod.mk.injEq] at h
      obtain ⟨-, rfl⟩ := h
      simp
    · simp at h
  · simp at h

/-- The octet a one-letter escape stands for. -/
def shortEscape? (b : UInt8) : Option UInt8 :=
  if b == 0x22 then some 0x22
  else if b == 0x5C then some 0x5C
  else if b == 0x2F then some 0x2F
  else if b == 0x62 then some 0x08
  else if b == 0x66 then some 0x0C
  else if b == 0x6E then some 0x0A
  else if b == 0x72 then some 0x0D
  else if b == 0x74 then some 0x09
  else none

/-- A low surrogate escape (`\u` and a value in `DC00 .. DFFF`) at the front, and the octets
after it. -/
def lowSurrogate? (bs : List UInt8) : Option (Nat × List UInt8) :=
  match bs with
  | b :: u :: rest =>
    if b == 0x5C && u == 0x75 then
      match readHex4 rest with
      | some (n, r) => if 0xDC00 ≤ n ∧ n ≤ 0xDFFF then some (n, r) else none
      | none => none
    else none
  | _ => none

theorem lowSurrogate_length {bs rest : List UInt8} {n : Nat}
    (h : lowSurrogate? bs = some (n, rest)) : rest.length + 6 = bs.length := by
  unfold lowSurrogate? at h
  split at h
  · split at h
    · split at h
      · next h4 =>
        split at h
        · simp only [Option.some.injEq, Prod.mk.injEq] at h
          obtain ⟨-, rfl⟩ := h
          have := readHex4_length h4
          simp only [List.length_cons]
          omega
        · simp at h
      · simp at h
    · simp at h
  · simp at h

def pairChar (hi lo : Nat) : Char := Char.ofNat (0x10000 + (hi - 0xD800) * 1024 + (lo - 0xDC00))

/-- An escape after its backslash: the octets it stands for, whether it stands for a character,
and the octets after it. A surrogate escape without its partner stands for nothing usable, and
the next escape is read on its own. -/
def readEscape (rest : List UInt8) : Option (List UInt8 × Bool × List UInt8) :=
  match rest with
  | [] => none
  | e :: r1 =>
    if e == 0x75 then
      match readHex4 r1 with
      | none => none
      | some (n, r2) =>
        if 0xD800 ≤ n ∧ n ≤ 0xDBFF then
          match lowSurrogate? r2 with
          | some (lo, r3) => some (Utf8.encodeChar (pairChar n lo), true, r3)
          | none => some ([], false, r2)
        else if 0xDC00 ≤ n ∧ n ≤ 0xDFFF then some ([], false, r2)
        else some (Utf8.encodeChar (Char.ofNat n), true, r2)
    else (shortEscape? e).map (fun o => ([o], true, r1))

theorem readEscape_length {rest o r : List UInt8} {k : Bool}
    (h : readEscape rest = some (o, k, r)) : r.length < rest.length := by
  unfold readEscape at h
  split at h
  · simp at h
  · rename_i e r1
    split at h
    · split at h
      · simp at h
      · rename_i n r2 h4
        have := readHex4_length h4
        split at h
        · split at h
          · rename_i lo r3 hl
            have := lowSurrogate_length hl
            simp only [Option.some.injEq, Prod.mk.injEq] at h
            obtain ⟨-, -, rfl⟩ := h
            simp only [List.length_cons]
            omega
          · simp only [Option.some.injEq, Prod.mk.injEq] at h
            obtain ⟨-, -, rfl⟩ := h
            simp only [List.length_cons]
            omega
        · split at h
          · simp only [Option.some.injEq, Prod.mk.injEq] at h
            obtain ⟨-, -, rfl⟩ := h
            simp only [List.length_cons]
            omega
          · simp only [Option.some.injEq, Prod.mk.injEq] at h
            obtain ⟨-, -, rfl⟩ := h
            simp only [List.length_cons]
            omega
    · cases hs : shortEscape? e with
      | none => simp [hs] at h
      | some o' =>
        simp only [hs, Option.map_some, Option.some.injEq, Prod.mk.injEq] at h
        obtain ⟨-, -, rfl⟩ := h
        simp

/-- The body of a string after its opening quote, through the closing quote. Gives the octets of
the text (in reverse), whether every escape stood for a character, and the octets after the
closing quote. -/
def readChars (acc : List UInt8) (ok : Bool) (bs : List UInt8) :
    Option (List UInt8 × Bool × List UInt8) :=
  match bs with
  | [] => none
  | b :: rest =>
    if b == 0x22 then some (acc, ok, rest)
    else if b.toNat < 0x20 then none
    else if b == 0x5C then
      match h : readEscape rest with
      | none => none
      | some (o, k, r) =>
        have := readEscape_length h
        readChars (o.reverse ++ acc) (ok && k) r
    else readChars (b :: acc) ok rest
termination_by bs.length
decreasing_by all_goals simp only [List.length_cons]; omega

/-- A string after its opening quote: its text when usable, and the rest. -/
def readString (bs : List UInt8) : Option (Option String × List UInt8) := do
  let (acc, ok, rest) ← readChars [] true bs
  pure (if ok then Utf8.toText? acc.reverse else none, rest)

def readWord (word : List UInt8) (bs : List UInt8) : Option (List UInt8) :=
  if word.isPrefixOf bs then some (bs.drop word.length) else none

mutual
/-- A value after blanks; `fuel` bounds the depth of the reading, and the octets' length is
always enough. -/
def readValue : Nat → List UInt8 → Option (Node × List UInt8)
  | 0, _ => none
  | fuel + 1, bs =>
    match skipBlank bs with
    | [] => none
    | b :: rest =>
      if b == 0x6E then (readWord [0x75, 0x6C, 0x6C] rest).map (fun r => (.null, r))
      else if b == 0x74 then (readWord [0x72, 0x75, 0x65] rest).map (fun r => (.bool true, r))
      else if b == 0x66 then
        (readWord [0x61, 0x6C, 0x73, 0x65] rest).map (fun r => (.bool false, r))
      else if b == 0x22 then (readString rest).map (fun (t, r) => (.text t, r))
      else if b == 0x2D then (readNumber true rest).map (fun (n, r) => (.number n, r))
      else if (digit? b).isSome then
        (readNumber false (b :: rest)).map (fun (n, r) => (.number n, r))
      else if b == 0x5B then
        if startsWith 0x5D (skipBlank rest) then some (.array [], (skipBlank rest).drop 1)
        else (readItems fuel [] rest).map (fun (items, r) => (.array items, r))
      else if b == 0x7B then
        if startsWith 0x7D (skipBlank rest) then some (.object [], (skipBlank rest).drop 1)
        else (readMembers fuel [] rest).map (fun (ms, r) => (.object ms, r))
      else none

/-- Array items from the next value on, through the closing bracket. -/
def readItems : Nat → List Node → List UInt8 → Option (List Node × List UInt8)
  | 0, _, _ => none
  | fuel + 1, acc, bs =>
    match readValue fuel bs with
    | none => none
    | some (v, rest) =>
      let r := skipBlank rest
      if startsWith 0x2C r then readItems fuel (v :: acc) (r.drop 1)
      else if startsWith 0x5D r then some ((v :: acc).reverse, r.drop 1)
      else none

/-- Object members from the next key on, through the closing brace. -/
def readMembers : Nat → List (Option String × Node) → List UInt8 →
    Option (List (Option String × Node) × List UInt8)
  | 0, _, _ => none
  | fuel + 1, acc, bs =>
    let r := skipBlank bs
    if startsWith 0x22 r then
      match readString (r.drop 1) with
      | none => none
      | some (k, r) =>
        let r := skipBlank r
        if startsWith 0x3A r then
          match readValue fuel (r.drop 1) with
          | none => none
          | some (v, rest) =>
            let r := skipBlank rest
            if startsWith 0x2C r then readMembers fuel ((k, v) :: acc) (r.drop 1)
            else if startsWith 0x7D r then some (((k, v) :: acc).reverse, r.drop 1)
            else none
        else none
    else none
end

def read (bs : List UInt8) : Option Node :=
  match readValue (bs.length + 2) bs with
  | some (v, rest) => if skipBlank rest = [] then some v else none
  | none => none

def readText (s : String) : Option Node := read (Utf8.encode s)

end Outbox.Json
