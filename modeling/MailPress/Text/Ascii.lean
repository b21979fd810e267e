/-!
# Letters and digits of ASCII

Names in markup and style sheets are compared without regard to the case of
their ASCII letters, and numbers are written with ASCII digits. Both are defined
here for the 128 characters of ASCII alone; any other character is left as it is
and belongs to no class.
-/

namespace MailPress
namespace Text

/-- A letter or digit of ASCII. -/
def isAsciiAlphanumeric (c : Char) : Bool :=
  ('a' ≤ c && c ≤ 'z') || ('A' ≤ c && c ≤ 'Z') || ('0' ≤ c && c ≤ '9')

/-- A letter of ASCII. -/
def isAsciiLetter (c : Char) : Bool :=
  ('a' ≤ c && c ≤ 'z') || ('A' ≤ c && c ≤ 'Z')

/-- A decimal digit of ASCII. -/
def isAsciiDigit (c : Char) : Bool :=
  '0' ≤ c && c ≤ '9'

/-- A hexadecimal digit of ASCII, in either case. -/
def isHexDigit (c : Char) : Bool :=
  isAsciiDigit c || ('a' ≤ c && c ≤ 'f') || ('A' ≤ c && c ≤ 'F')

/-- A character of ASCII. -/
def isAscii (c : Char) : Bool :=
  c.toNat < 128

/-- Lowercase form, for the letters of ASCII alone. -/
def lowerChar (c : Char) : Char :=
  if 'A' ≤ c && c ≤ 'Z' then Char.ofNat (c.toNat + 32) else c

/-- Lowercase the ASCII letters of a text. -/
def lower (text : String) : String :=
  String.ofList (text.toList.map lowerChar)

/-- Two texts that differ at most in the case of ASCII letters. -/
def sameIgnoringCase (first second : String) : Bool :=
  lower first == lower second

/-- The number that a run of decimal digits denotes. -/
def decimalValue (digits : List Char) : Nat :=
  digits.foldl (fun value c => value * 10 + (c.toNat - 48)) 0

/-- The value of a hexadecimal digit. -/
def hexValue? (c : Char) : Option Nat :=
  if '0' ≤ c && c ≤ '9' then some (c.toNat - 48)
  else if 'a' ≤ c && c ≤ 'f' then some (c.toNat - 87)
  else if 'A' ≤ c && c ≤ 'F' then some (c.toNat - 55)
  else none

/-- A hexadecimal digit, in lowercase. -/
def hexDigit (value : Nat) : Char :=
  if value < 10 then Char.ofNat (48 + value) else Char.ofNat (87 + value)

/-- The number that a run of hexadecimal digits denotes. -/
def hexadecimalValue (digits : List Char) : Nat :=
  digits.foldl (fun value c => value * 16 + (hexValue? c).getD 0) 0

/-- The decimal digits of a number. -/
def decimalDigits (value : Nat) : List Char :=
  Nat.toDigits 10 value

end Text
end MailPress
