/-!
UTF-8 octets of text. A character is written as one to four octets; reading is either strict
(an octet sequence RFC 3629 does not derive is refused) or lossy (each maximal invalid subpart
becomes U+FFFD and reading goes on at the octet that broke it). Both readers share `Utf8.scan`,
which takes one character off the front of the octets.

Percent-encoding writes a path segment through these octets: each that is an ASCII letter, a
digit, `-`, `.`, `_` or `~` stands for itself, every other one is written `%` and two upper-case
hexadecimal digits.
-/

set_option autoImplicit false

namespace Outbox.Utf8

/-- The octets of one character. -/
def encodeChar (c : Char) : List UInt8 :=
  let n := c.toNat
  if n < 0x80 then [n.toUInt8]
  else if n < 0x800 then [(0xC0 + n / 64).toUInt8, (0x80 + n % 64).toUInt8]
  else if n < 0x10000 then
    [(0xE0 + n / 4096).toUInt8, (0x80 + n / 64 % 64).toUInt8, (0x80 + n % 64).toUInt8]
  else
    [(0xF0 + n / 262144).toUInt8, (0x80 + n / 4096 % 64).toUInt8,
      (0x80 + n / 64 % 64).toUInt8, (0x80 + n % 64).toUInt8]

def encode (s : String) : List UInt8 := s.toList.flatMap encodeChar

/-- For a lead octet: how many tail octets follow, and the range the first tail must lie in
(RFC 3629 §4), which rules out overlong forms, surrogates and values past U+10FFFF. -/
def lead (b : Nat) : Option (Nat × Nat × Nat) :=
  if b ≤ 0x7F then some (0, 0, 0)
  else if 0xC2 ≤ b ∧ b ≤ 0xDF then some (1, 0x80, 0xBF)
  else if b = 0xE0 then some (2, 0xA0, 0xBF)
  else if 0xE1 ≤ b ∧ b ≤ 0xEC then some (2, 0x80, 0xBF)
  else if b = 0xED then some (2, 0x80, 0x9F)
  else if 0xEE ≤ b ∧ b ≤ 0xEF then some (2, 0x80, 0xBF)
  else if b = 0xF0 then some (3, 0x90, 0xBF)
  else if 0xF1 ≤ b ∧ b ≤ 0xF3 then some (3, 0x80, 0xBF)
  else if b = 0xF4 then some (3, 0x80, 0x8F)
  else none

/-- The value bits a lead octet carries when `n` tails follow it. -/
def leadBits (b n : Nat) : Nat :=
  match n with
  | 0 => b
  | 1 => b % 32
  | 2 => b % 16
  | _ => b % 8

/-- Reads `n` tail octets onto `acc`, the first within `lo..hi` and the others within
`0x80..0xBF`. Gives the number of tails taken and the code point, or, on a tail out of range or
missing, the number of tails that were valid before it and nothing. -/
def readTails : Nat → Nat → Nat → Nat → List UInt8 → Nat × Option Nat
  | 0, acc, _, _, _ => (0, some acc)
  | _ + 1, _, _, _, [] => (0, none)
  | n + 1, acc, lo, hi, t :: ts =>
    if lo ≤ t.toNat ∧ t.toNat ≤ hi then
      let r := readTails n (acc * 64 + t.toNat % 64) 0x80 0xBF ts
      (r.1 + 1, r.2)
    else (0, none)

theorem readTails_fst_le (n acc lo hi : Nat) (l : List UInt8) :
    (readTails n acc lo hi l).1 ≤ l.length := by
  induction n generalizing acc lo hi l with
  | zero => simp [readTails]
  | succ n ih =>
    cases l with
    | nil => simp [readTails]
    | cons t ts =>
      simp only [readTails]
      split
      · have := ih (acc * 64 + t.toNat % 64) 0x80 0xBF ts
        simp only [List.length_cons]
        omega
      · simp

/-- One character off the front: its lead octet `b` and the octets after it. Gives how many of
those later octets belong to it, and the character, or nothing when the octets are no character
(then the count is the length of the maximal invalid subpart after `b`). -/
def scan (b : UInt8) (rest : List UInt8) : Nat × Option Char :=
  match lead b.toNat with
  | none => (0, none)
  | some (n, lo, hi) =>
    let r := readTails n (leadBits b.toNat n) lo hi rest
    (r.1, r.2.map Char.ofNat)

theorem scan_fst_le (b : UInt8) (rest : List UInt8) : (scan b rest).1 ≤ rest.length := by
  unfold scan
  split
  · simp
  · exact readTails_fst_le _ _ _ _ _

/-- Strict reading: the characters, or nothing when any octet sequence is invalid. -/
def decode? : List UInt8 → Option (List Char)
  | [] => some []
  | b :: bs =>
    match h : scan b bs with
    | (k, some c) =>
      have : k ≤ bs.length := by simpa [h] using scan_fst_le b bs
      (decode? (bs.drop k)).map (c :: ·)
    | (_, none) => none
termination_by l => l.length
decreasing_by simp only [List.length_drop, List.length_cons]; omega

/-- Lossy reading: every maximal invalid subpart becomes U+FFFD. -/
def decodeLossy : List UInt8 → List Char
  | [] => []
  | b :: bs =>
    match h : scan b bs with
    | (k, some c) =>
      have : k ≤ bs.length := by simpa [h] using scan_fst_le b bs
      c :: decodeLossy (bs.drop k)
    | (k, none) =>
      have : k ≤ bs.length := by simpa [h] using scan_fst_le b bs
      '�' :: decodeLossy (bs.drop k)
termination_by l => l.length
decreasing_by
  all_goals simp only [List.length_drop, List.length_cons]
  all_goals omega

def toText? (bytes : List UInt8) : Option String := (decode? bytes).map String.ofList

/-- The text the octets spell, with U+FFFD where they are not valid UTF-8. -/
def toTextLossy (bytes : List UInt8) : String := String.ofList (decodeLossy bytes)

end Outbox.Utf8

namespace Outbox.Text

def isUnreserved (b : UInt8) : Bool :=
  let n := b.toNat
  (0x30 ≤ n && n ≤ 0x39) || (0x41 ≤ n && n ≤ 0x5A) || (0x61 ≤ n && n ≤ 0x7A) ||
    n == 0x2D || n == 0x2E || n == 0x5F || n == 0x7E

def upperHex (n : Nat) : Char :=
  if n < 10 then Char.ofNat (48 + n) else Char.ofNat (55 + n)

def percentOctet (b : UInt8) : List Char :=
  if isUnreserved b then [Char.ofNat b.toNat]
  else ['%', upperHex (b.toNat / 16), upperHex (b.toNat % 16)]

def percentEncode (s : String) : String :=
  String.ofList ((Utf8.encode s).flatMap percentOctet)

example : percentEncode "a b/c" = "a%20b%2Fc" := by decide
example : percentEncode "plain-id_1.2~" = "plain-id_1.2~" := by decide

end Outbox.Text
