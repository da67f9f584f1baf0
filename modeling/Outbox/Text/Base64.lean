/-!
Base64 with the standard alphabet (RFC 4648 §4) and padding. Three octets become four symbols;
a last group of one or two octets becomes two or three symbols and `=` up to four. Reading is
canonical: a text is accepted exactly when it is the encoding of what it decodes to, so missing
padding, stray symbols, and unused bits that are not zero are all refused.
-/

set_option autoImplicit false

namespace Outbox.Base64

/-- The symbol for a six-bit value. -/
def symbol (v : Nat) : Char :=
  if v < 26 then Char.ofNat (65 + v)
  else if v < 52 then Char.ofNat (97 + v - 26)
  else if v < 62 then Char.ofNat (48 + v - 52)
  else if v = 62 then '+'
  else '/'

/-- The six-bit value of a symbol of the alphabet. -/
def value? (c : Char) : Option Nat :=
  let n := c.toNat
  if 65 ≤ n ∧ n ≤ 90 then some (n - 65)
  else if 97 ≤ n ∧ n ≤ 122 then some (n - 97 + 26)
  else if 48 ≤ n ∧ n ≤ 57 then some (n - 48 + 52)
  else if c = '+' then some 62
  else if c = '/' then some 63
  else none

/-- Symbols of octets, three at a time, padding the last group. -/
def encodeChars : List UInt8 → List Char
  | [] => []
  | [a] =>
    let n := a.toNat * 65536
    [symbol (n / 262144 % 64), symbol (n / 4096 % 64), '=', '=']
  | [a, b] =>
    let n := a.toNat * 65536 + b.toNat * 256
    [symbol (n / 262144 % 64), symbol (n / 4096 % 64), symbol (n / 64 % 64), '=']
  | a :: b :: c :: rest =>
    let n := a.toNat * 65536 + b.toNat * 256 + c.toNat
    [symbol (n / 262144 % 64), symbol (n / 4096 % 64), symbol (n / 64 % 64), symbol (n % 64)] ++
      encodeChars rest

def encode (bytes : List UInt8) : String := String.ofList (encodeChars bytes)

/-- Octets of four symbols, the last of which may be padding; nothing for a symbol outside the
alphabet or padding in a place it cannot stand. Unused bits are not checked here. -/
def quad? (a b c d : Char) : Option (List UInt8) := do
  let va ← value? a
  let vb ← value? b
  if c = '=' then
    if d = '=' then
      pure [((va * 64 + vb) / 16).toUInt8]
    else none
  else
    let vc ← value? c
    if d = '=' then
      let n := (va * 64 + vb) * 64 + vc
      pure [(n / 1024).toUInt8, (n / 4 % 256).toUInt8]
    else
      let vd ← value? d
      let n := ((va * 64 + vb) * 64 + vc) * 64 + vd
      pure [(n / 65536).toUInt8, (n / 256 % 256).toUInt8, (n % 256).toUInt8]

/-- Octets of groups of four symbols, padding allowed only in the last group. -/
def decodeChars? : List Char → Option (List UInt8)
  | [] => some []
  | [a, b, c, d] => quad? a b c d
  | a :: b :: c :: d :: rest@(_ :: _) =>
    if c = '=' ∨ d = '=' then none
    else do
      let q ← quad? a b c d
      let r ← decodeChars? rest
      pure (q ++ r)
  | _ => none

def decode? (s : String) : Option (List UInt8) :=
  match decodeChars? s.toList with
  | some bytes => if encode bytes = s then some bytes else none
  | none => none

end Outbox.Base64
