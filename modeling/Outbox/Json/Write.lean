import Outbox.Json.Value
import Outbox.Decimal.Shortest

/-!
Writing JSON compactly: no blanks, members in the order the value gives them. Inside strings
only the quote, the backslash and control characters are escaped (`\b \f \n \r \t` where they
have a short form, `\u00xx` with lowercase hexadecimal otherwise); every other character is
written as itself.

A double is written with its shortest decimal digits (`Decimal.Parts.shortest`) in the layout
`Json.doubleLayout` fixes: positional when the decimal point falls within the first sixteen
digit places or up to five zeros after the point, always with a fraction (`100.0`), and
otherwise one digit before the point and a signed exponent (`1e+21`, `2.5e-8`).
-/

set_option autoImplicit false

namespace Outbox.Json

def hexChar (n : Nat) : Char :=
  if n < 10 then Char.ofNat (48 + n) else Char.ofNat (87 + n)

/-- A character as it stands inside a written string. -/
def escapeChar (c : Char) : List Char :=
  if c = '"' then ['\\', '"']
  else if c = '\\' then ['\\', '\\']
  else if c.toNat < 0x20 then
    if c.toNat = 0x08 then ['\\', 'b']
    else if c.toNat = 0x0C then ['\\', 'f']
    else if c.toNat = 0x0A then ['\\', 'n']
    else if c.toNat = 0x0D then ['\\', 'r']
    else if c.toNat = 0x09 then ['\\', 't']
    else ['\\', 'u', '0', '0', hexChar (c.toNat / 16), hexChar (c.toNat % 16)]
  else [c]

def quote (s : String) : String :=
  "\"" ++ String.ofList (s.toList.flatMap escapeChar) ++ "\""

/-- Where a double's decimal layout changes: the decimal point may stand after at most
`maxIntDigits` digit places, and at most `maxLeadZeros` zeros may follow the point before the
first digit; past either the exponent form is used, with an explicit `+` on positive exponents. -/
structure DoubleLayout where
  maxIntDigits : Nat
  maxLeadZeros : Nat
  plusSign : Bool

def doubleLayout : DoubleLayout := ⟨16, 4, true⟩

def zeros (n : Nat) : List Char := List.replicate n '0'

/-- Digits `ds` times `10^k`, laid out as `layout` says. -/
def layoutDigits (layout : DoubleLayout) (ds : List Char) (k : Int) : List Char :=
  let len : Int := ds.length
  let kk := len + k
  if 0 ≤ k ∧ kk ≤ layout.maxIntDigits then ds ++ zeros k.toNat ++ ['.', '0']
  else if 0 < kk ∧ kk ≤ layout.maxIntDigits then
    ds.take kk.toNat ++ ['.'] ++ ds.drop kk.toNat
  else if -(layout.maxLeadZeros : Int) ≤ kk ∧ kk ≤ 0 then
    ['0', '.'] ++ zeros (-kk).toNat ++ ds
  else
    let e := kk - 1
    let mant := match ds with
      | [d] => [d]
      | d :: rest => d :: '.' :: rest
      | [] => []
    let sign := if e < 0 then ['-'] else if layout.plusSign then ['+'] else []
    mant ++ ['e'] ++ sign ++ (Nat.toDigits 10 e.natAbs)

/-- The text of a finite double given by its bits. -/
def doubleText (bits : UInt64) : String :=
  let p := Decimal.Parts.ofBits bits
  let sign := if p.negative then "-" else ""
  if p.mantissa = 0 then sign ++ "0.0"
  else
    let (d, k) := p.shortest
    sign ++ String.ofList (layoutDigits doubleLayout (Nat.toDigits 10 d) k)

def Number.text : Number → String
  | .nat n => toString n
  | .neg n => "-" ++ toString n
  | .float bits => doubleText bits

mutual
/-- The compact text of a value. -/
def Value.write : Value → String
  | .null => "null"
  | .bool true => "true"
  | .bool false => "false"
  | .number n => n.text
  | .str s => quote s
  | .array items => "[" ++ Value.writeItems items ++ "]"
  | .object members => "\x7b" ++ Value.writeMembers members ++ "\x7d"

def Value.writeItems : List Value → String
  | [] => ""
  | [v] => v.write
  | v :: rest => v.write ++ "," ++ Value.writeItems rest

def Value.writeMembers : List (String × Value) → String
  | [] => ""
  | [(k, v)] => quote k ++ ":" ++ v.write
  | (k, v) :: rest => quote k ++ ":" ++ v.write ++ "," ++ Value.writeMembers rest
end

def indentation (depth : Nat) : String := String.ofList (List.replicate (2 * depth) ' ')

mutual
/-- The indented text of a value at nesting level `depth`: each item and member on a line of its
own, indented two spaces a level, a member's key followed by a colon and a space; an empty
array or object stays on its line. -/
def Value.writeIndented (depth : Nat) : Value → String
  | .array [] => "[]"
  | .object [] => "\x7b\x7d"
  | .array items => "[" ++ Value.indentedItems (depth + 1) items ++ "\n" ++ indentation depth ++ "]"
  | .object members =>
    "\x7b" ++ Value.indentedMembers (depth + 1) members ++ "\n" ++ indentation depth ++ "\x7d"
  | v => v.write

def Value.indentedItems (depth : Nat) : List Value → String
  | [] => ""
  | [v] => "\n" ++ indentation depth ++ v.writeIndented depth
  | v :: rest =>
    "\n" ++ indentation depth ++ v.writeIndented depth ++ "," ++ Value.indentedItems depth rest

/-- Members at nesting level `depth`, each on a line of its own. -/
def Value.indentedMembers (depth : Nat) : List (String × Value) → String
  | [] => ""
  | [(k, v)] => "\n" ++ indentation depth ++ quote k ++ ": " ++ v.writeIndented depth
  | (k, v) :: rest =>
    "\n" ++ indentation depth ++ quote k ++ ": " ++ v.writeIndented depth ++ "," ++
      Value.indentedMembers depth rest
end

def Value.writePretty (v : Value) : String := v.writeIndented 0

example : (Value.object [("a", .array [.nat 1, .array []]), ("b", .object [])]).writePretty =
    "\x7b\n  \"a\": [\n    1,\n    []\n  ],\n  \"b\": \x7b\x7d\n\x7d" := by decide +kernel

end Outbox.Json
