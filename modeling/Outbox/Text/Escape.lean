import Outbox.Text.Classes
import Outbox.Text.Extending

/-!
Quoted text for messages, in the escaped form that error messages show a record key in. The
text stands between double quotes; the quote, the backslash, NUL, tab, carriage return and line
feed are written with a backslash (`\"`, `\\`, `\0`, `\t`, `\r`, `\n`); any other character that
does not print on its own, or that only extends the character before it, is written
`\u` followed by its code in lower-case hexadecimal between braces.

A character does not print on its own when it is a control or format character, a separator
other than the space, a surrogate, for private use, or not assigned (`unprintableRanges`); a
character extends the one before it when it has the Grapheme_Extend property
(`extendingRanges`).
-/

set_option autoImplicit false

namespace Outbox.Text

def inRanges (n : Nat) (ranges : List (Nat × Nat)) : Bool :=
  ranges.any fun r => r.1 ≤ n && n ≤ r.2

def isExtending (c : Char) : Bool := inRanges c.toNat extendingRanges

def isPrintable (c : Char) : Bool := !inRanges c.toNat unprintableRanges

/-- The code of a character in lower-case hexadecimal between braces, as `\u` escapes write
it. -/
def unicodeEscape (c : Char) : List Char :=
  ['\\', 'u', '\x7b'] ++ Nat.toDigits 16 c.toNat ++ ['\x7d']

/-- A character as the quoted form writes it. -/
def escapeChar (c : Char) : List Char :=
  if c = '\x00' then ['\\', '0']
  else if c = '\t' then ['\\', 't']
  else if c = '\r' then ['\\', 'r']
  else if c = '\n' then ['\\', 'n']
  else if c = '\\' then ['\\', '\\']
  else if c = '"' then ['\\', '"']
  else if isExtending c then unicodeEscape c
  else if isPrintable c then [c]
  else unicodeEscape c

def quoted (s : String) : String :=
  "\"" ++ String.ofList (s.toList.flatMap escapeChar) ++ "\""

example : quoted "a\x00b\x7f\"é" = "\"a\\0b\\u\x7b7f\x7d\\\"é\"" := by decide +kernel

end Outbox.Text
