import MailPress.Text.Ascii

/-!
# Characters outside ASCII

A plain-text mail holds ASCII alone: typographic quotes, dashes and ellipses are
folded, and what has no ASCII form is dropped. A page keeps every character, but
writes those outside ASCII as references.
-/

namespace MailPress
namespace Text

/-- The ASCII form of a character; empty when it has none. -/
def asciiForm (c : Char) : List Char :=
  if isAscii c then [c]
  else if c = '\u2018' || c = '\u2019' then ['\'']
  else if c = '\u201c' || c = '\u201d' then ['"']
  else if c = '\u2013' || c = '\u2014' then ['-']
  else if c = '\u2026' then ['.', '.', '.']
  else []

/-- Fold a text to ASCII. -/
def normalize (text : String) : String :=
  String.ofList (text.toList.flatMap asciiForm)

/-- A character as it stands in a page: one outside ASCII as a reference. -/
def referenceForm (c : Char) : List Char :=
  if isAscii c then [c] else '&' :: '#' :: decimalDigits c.toNat ++ [';']

/-- Write the characters outside ASCII as references. -/
def encodeNonAscii (text : String) : String :=
  String.ofList (text.toList.flatMap referenceForm)

end Text
end MailPress
