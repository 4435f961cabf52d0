import Switchboard.Text.Printable

/-!
# Quoted text

Reports show a text between quotation marks: single ones, unless the text has a single mark and no double one.
Inside, the mark in use and the backslash are escaped, line feed, carriage return and tab have their short
escapes, and any other character that is not printable is written by its code point in hexadecimal, with
two, four or eight digits.
-/

namespace Switchboard

/-- The hexadecimal digit of a number below sixteen. -/
def hexDigit (n : Nat) : Char := Nat.digitChar n

/-- The lowest `width` hexadecimal digits of a number, most significant first. -/
def hexDigits : Nat → Nat → List Char
  | 0, _ => []
  | width + 1, n => hexDigits width (n / 16) ++ [hexDigit (n % 16)]

/-- The escape of a character by its code point: two, four or eight hexadecimal digits. -/
def codePointEscape (c : Char) : List Char :=
  if c.toNat < 0x100 then '\\' :: 'x' :: hexDigits 2 c.toNat
  else if c.toNat < 0x10000 then '\\' :: 'u' :: hexDigits 4 c.toNat
  else '\\' :: 'U' :: hexDigits 8 c.toNat

/-- How one character is written between the quotation marks `mark`. -/
def quotedChar (mark c : Char) : List Char :=
  if c == mark || c == '\\' then ['\\', c]
  else if c == '\n' then ['\\', 'n']
  else if c == '\r' then ['\\', 'r']
  else if c == '\t' then ['\\', 't']
  else if isPrintable c then [c]
  else codePointEscape c

/-- The quotation mark for a text: a double one only where that saves an escape. -/
def quotationMark (cs : List Char) : Char :=
  if cs.contains '\'' && !cs.contains '"' then '"' else '\''

/-- A text between quotation marks. -/
def quotedChars (cs : List Char) : List Char :=
  let mark := quotationMark cs
  mark :: cs.flatMap (quotedChar mark) ++ [mark]

/-- A string between quotation marks, as reports show it. -/
def quoted (s : String) : String := String.ofList (quotedChars s.toList)

end Switchboard
