import MailPress.Text.Ascii

/-!
# Blank characters

White space occurs in two senses. Style sheets, template sources and derived
text use the Unicode property; lists inside attribute values use the five ASCII
characters that markup counts as white space.

Trimming and word splitting are functions on character lists, so that what a
reader drops is always a stretch of blanks at one end.
-/

namespace MailPress
namespace Text

/-- A character with the Unicode property `White_Space`. -/
def isBlank (c : Char) : Bool :=
  let code := c.toNat
  (9 ≤ code && code ≤ 13) || code == 0x20 || code == 0x85 || code == 0xA0 ||
    code == 0x1680 || (0x2000 ≤ code && code ≤ 0x200A) || code == 0x2028 ||
    code == 0x2029 || code == 0x202F || code == 0x205F || code == 0x3000

/-- White space of markup: space, tab, line feed, form feed and carriage return. -/
def isAsciiBlank (c : Char) : Bool :=
  c == ' ' || c == '\t' || c == '\n' || c == '\x0c' || c == '\r'

/-- Remove the leading characters that satisfy `drop`. -/
def trimStartOf (drop : Char → Bool) (text : List Char) : List Char :=
  text.dropWhile drop

/-- Remove the trailing characters that satisfy `drop`. -/
def trimEndOf (drop : Char → Bool) (text : List Char) : List Char :=
  (text.reverse.dropWhile drop).reverse

/-- Remove the blanks at the start. -/
def trimStart (text : List Char) : List Char :=
  trimStartOf isBlank text

/-- Remove the blanks at the end. -/
def trimEnd (text : List Char) : List Char :=
  trimEndOf isBlank text

/-- Remove the blanks at both ends. -/
def trim (text : List Char) : List Char :=
  trimEnd (trimStart text)

theorem length_dropWhile_le (p : Char → Bool) (text : List Char) :
    (text.dropWhile p).length ≤ text.length :=
  (List.dropWhile_suffix p).length_le

theorem length_trim_le (text : List Char) : (trim text).length ≤ text.length := by
  have start := length_dropWhile_le isBlank text
  have finish := length_dropWhile_le isBlank (text.dropWhile isBlank).reverse
  simp only [trim, trimEnd, trimEndOf, trimStart, trimStartOf, List.length_reverse] at *
  omega

/-- A text without its blanks at both ends. -/
def trimmed (text : String) : String :=
  String.ofList (trim text.toList)

/-- The pieces between separator characters, in order; one more than there are separators. -/
def splitAtEach (isSeparator : Char → Bool) : List Char → List (List Char)
  | [] => [[]]
  | c :: rest =>
      match splitAtEach isSeparator rest with
      | [] => [[]]
      | piece :: pieces =>
          if isSeparator c then [] :: piece :: pieces else (c :: piece) :: pieces

/-- The maximal non-empty stretches without a separator, in order. -/
def wordsOf (isSeparator : Char → Bool) (text : List Char) : List (List Char) :=
  (splitAtEach isSeparator text).filter (!·.isEmpty)

/-- The words of an attribute value that holds a list. -/
def asciiWords (text : String) : List String :=
  (wordsOf isAsciiBlank text.toList).map String.ofList

/-- The words of a text, blanks taken in the sense of Unicode. -/
def blankWords (text : List Char) : List (List Char) :=
  wordsOf isBlank text

end Text
end MailPress
