import MailPress.Text.Ascii
import MailPress.Text.Search

/-!
# Character references

A reference is an ampersand, a name or a number, and a semicolon. Two questions
are asked about one: whether an ampersand starts a reference at all, which is a
matter of the form of what follows, and which character it denotes, which is a
matter of its name or number.

A reference that denotes nothing stays as it is written.
-/

namespace MailPress
namespace Markup

/-- The part of the text before the first semicolon, if there is one. -/
def beforeSemicolon (text : List Char) : Option (List Char) :=
  (Text.splitOnce [';'] text).map Prod.fst

/-- Whether the text has the form of a reference after its ampersand. -/
def hasReferenceForm (text : List Char) : Bool :=
  match beforeSemicolon text with
  | none => false
  | some ('#' :: 'x' :: digits) => !digits.isEmpty && digits.all Text.isHexDigit
  | some ('#' :: 'X' :: digits) => !digits.isEmpty && digits.all Text.isHexDigit
  | some ('#' :: digits) => !digits.isEmpty && digits.all Text.isAsciiDigit
  | some name => name.head?.any Text.isAsciiLetter && name.all Text.isAsciiAlphanumeric

/-- Escape the ampersands that start no reference. -/
def escapeBareAmpersands : List Char → List Char
  | [] => []
  | c :: rest =>
      if c = '&' && !hasReferenceForm rest then
        "&amp;".toList ++ escapeBareAmpersands rest
      else c :: escapeBareAmpersands rest

/-- Whether a character after `<` makes it the start of a tag or a declaration. -/
def opensMarkup (c : Char) : Bool :=
  Text.isAsciiLetter c || c == '/' || c == '!' || c == '?'

/-- Escape the angle brackets that start no tag and no declaration. -/
def escapeBareAngles : List Char → List Char
  | [] => []
  | c :: rest =>
      if c = '<' && !rest.head?.any opensMarkup then
        "&lt;".toList ++ escapeBareAngles rest
      else c :: escapeBareAngles rest

/-- The source with its bare ampersands and angle brackets escaped. -/
def prepare (source : List Char) : List Char :=
  escapeBareAngles (escapeBareAmpersands source)

/-- The named references and the characters they denote. -/
def namedReferences : List (String × Char) :=
  [("amp", '&'), ("lt", '<'), ("gt", '>'), ("quot", '"'), ("apos", '\''),
    ("nbsp", '\u00a0'), ("copy", '\u00a9'), ("reg", '\u00ae'), ("trade", '\u2122'),
    ("hellip", '\u2026'), ("mdash", '\u2014'), ("ndash", '\u2013'),
    ("lsquo", '\u2018'), ("rsquo", '\u2019'), ("ldquo", '\u201c'),
    ("rdquo", '\u201d'), ("zwnj", '\u200c')]

/-- The character with the given code, if there is one. -/
def charOfCode? (code : Nat) : Option Char :=
  if code.isValidChar then some (Char.ofNat code) else none

/-- Digits with an optional plus sign in front. -/
def unsignedDigits? (isDigit : Char → Bool) (text : List Char) : Option (List Char) :=
  let digits := (Text.dropStart? ['+'] text).getD text
  if !digits.isEmpty && digits.all isDigit then some digits else none

/-- The character that a numeric reference denotes, given the text after its `#`. -/
def numericReference? : List Char → Option Char
  | 'x' :: digits | 'X' :: digits =>
      (unsignedDigits? Text.isHexDigit digits).bind fun digits =>
        charOfCode? (Text.hexadecimalValue digits)
  | digits =>
      (unsignedDigits? Text.isAsciiDigit digits).bind fun digits =>
        charOfCode? (Text.decimalValue digits)

/-- The character that a reference denotes, given the text between `&` and `;`. -/
def denotation? : List Char → Option Char
  | '#' :: number => numericReference? number
  | name => namedReferences.lookup (String.ofList name)

/-- The longest text between `&` and `;`, in bytes, that is looked up. -/
def longestReference : Nat := 11

/-- The number of bytes of a text in UTF-8. -/
def byteLength (text : List Char) : Nat :=
  text.foldr (fun c bytes => c.utf8Size + bytes) 0

/-- The character that a reference at the start denotes, with the number of characters that
it takes after its ampersand. -/
def referenceAt? (text : List Char) : Option (Char × Nat) :=
  match beforeSemicolon text with
  | none => none
  | some name =>
      if byteLength name ≤ longestReference then
        (denotation? name).map fun c => (c, name.length + 1)
      else none

/-- Replace references by what they denote, after skipping the given number of characters. -/
def decodeFrom : Nat → List Char → List Char
  | _, [] => []
  | skip + 1, _ :: rest => decodeFrom skip rest
  | 0, c :: rest =>
      if c = '&' then
        match referenceAt? rest with
        | some (denoted, length) => denoted :: decodeFrom length rest
        | none => '&' :: decodeFrom 0 rest
      else c :: decodeFrom 0 rest

/-- Replace each reference by the character it denotes. -/
def decode (raw : String) : String :=
  String.ofList (decodeFrom 0 raw.toList)

/-- How a character of a plain value is written inside a quoted attribute. -/
def escapeAttributeChar (c : Char) : List Char :=
  if c = '&' then "&amp;".toList
  else if c = '"' then "&quot;".toList
  else if c = '<' then "&lt;".toList
  else [c]

/-- Write a plain value for use inside a double-quoted attribute. -/
def escapeAttribute (value : String) : String :=
  String.ofList (value.toList.flatMap escapeAttributeChar)

end Markup
end MailPress
