import MailPress.Text.Blank
import MailPress.Text.Search
import MailPress.Text.Word

/-!
# The pieces of a template

A template is text with tags in it: tags that print a value, tags that hold a
statement, and comments. A hyphen at either end of a tag takes away the blanks
beside it.

What is inside a tag is cut into lexemes. A tag ends at its closing mark outside
all brackets.
-/

namespace MailPress
namespace Jinja

/-- A lexeme of a tag. -/
inductive Lexeme
  /-- A name. -/
  | name (content : String)
  /-- A text in quotes. -/
  | text (content : String)
  /-- An integer. -/
  | integer (value : Nat)
  /-- A number with a fraction. -/
  | real (value : Float)
  /-- An operator or a punctuation mark. -/
  | sign (spelling : String)
  deriving Repr, Inhabited, BEq

/-- A piece of a template. -/
inductive Segment
  /-- Text. -/
  | text (content : List Char)
  /-- A tag that prints a value. -/
  | output (lexemes : List Lexeme)
  /-- A tag that holds a statement. -/
  | statement (lexemes : List Lexeme)
  deriving Repr, Inhabited

/-- The signs of two characters. -/
def longSigns : List String :=
  ["//", "**", "==", "!=", ">=", "<="]

/-- The signs of one character. -/
def shortSigns : List Char :=
  ['+', '-', '*', '/', '%', '.', ',', ':', '~', '|', '=', '>', '<', '(', ')', '[', ']',
    '\x7b', '\x7d']

/-- A character that may start a name. -/
def isNameStart (c : Char) : Bool :=
  Text.isAsciiLetter c || c == '_' || (!Text.isAscii c && Text.isWordChar c)

/-- A character of a name. -/
def isNamePart (c : Char) : Bool :=
  isNameStart c || Text.isAsciiDigit c

/-- A text in quotes after its opening quote; the result has the text and what is left. -/
def takeString (quote : Char) : List Char → Option (List Char × List Char)
  | [] => none
  | '\\' :: 'u' :: a :: b :: c :: d :: rest =>
      if [a, b, c, d].all Text.isHexDigit then
        (takeString quote rest).map fun found =>
          (Char.ofNat (Text.hexadecimalValue [a, b, c, d]) :: found.1, found.2)
      else none
  | '\\' :: c :: rest =>
      let escaped := match c with
        | 'n' => some '\n'
        | 'r' => some '\r'
        | 't' => some '\t'
        | 'b' => some '\x08'
        | 'f' => some '\x0c'
        | '"' | '\\' | '/' | '\'' => some c
        | _ => none
      escaped.bind fun d => (takeString quote rest).map fun found => (d :: found.1, found.2)
  | c :: rest =>
      if c = quote then some ([], rest)
      else (takeString quote rest).map fun found => (c :: found.1, found.2)

/-- The digits at the start of a text, without the underscores between them. -/
def takeDigits (isDigit : Char → Bool) (text : List Char) : List Char × List Char :=
  let isPart := fun c => isDigit c || c == '_'
  ((text.takeWhile isPart).filter (· != '_'), text.dropWhile isPart)

/-- The value of digits in a base. -/
def valueIn (base : Nat) (digits : List Char) : Nat :=
  digits.foldl (fun value c => value * base + (Text.hexValue? c).getD 0) 0

/-- The exponent at the start of a text, if there is one. -/
def takeExponent? (text : List Char) : Option (Int × List Char) :=
  match text with
  | c :: rest =>
      if c = 'e' || c = 'E' then
        let (negative, digits) := match rest with
          | '-' :: more => (true, more)
          | '+' :: more => (false, more)
          | more => (false, more)
        let (exponent, after) := takeDigits Text.isAsciiDigit digits
        if exponent.isEmpty then none
        else
          let size : Int := Text.decimalValue exponent
          some (if negative then -size else size, after)
      else none
  | [] => none

/-- The float of digits with a power of ten. -/
def floatOf (digits : List Char) (exponent : Int) : Float :=
  Float.ofScientific (Text.decimalValue digits) (exponent < 0) exponent.natAbs

/-- The number at the start of a text that starts with a digit. -/
def takeNumber (text : List Char) : Option (Lexeme × List Char) :=
  let based := fun (base : Nat) (isDigit : Char → Bool) (rest : List Char) =>
    let (digits, after) := takeDigits isDigit rest
    if digits.isEmpty then none else some (Lexeme.integer (valueIn base digits), after)
  match text with
  | '0' :: 'x' :: rest | '0' :: 'X' :: rest => based 16 Text.isHexDigit rest
  | '0' :: 'o' :: rest | '0' :: 'O' :: rest => based 8 (fun c => '0' ≤ c && c ≤ '7') rest
  | '0' :: 'b' :: rest | '0' :: 'B' :: rest => based 2 (fun c => c == '0' || c == '1') rest
  | _ =>
      let (whole, rest) := takeDigits Text.isAsciiDigit text
      let (fraction, after) := match rest with
        | '.' :: more => takeDigits Text.isAsciiDigit more
        | _ => ([], rest)
      if fraction.isEmpty then
        match takeExponent? rest with
        | some (exponent, after) => some (.real (floatOf whole exponent), after)
        | none => some (.integer (Text.decimalValue whole), rest)
      else
        let (exponent, after) := (takeExponent? after).getD (0, after)
        some (.real (floatOf (whole ++ fraction) (exponent - fraction.length)), after)

/-- The lexeme at the start of a text that does not start with a blank. -/
def takeLexeme? (text : List Char) : Option (Lexeme × List Char) :=
  match longSigns.findSome? fun sign =>
      (Text.dropStart? sign.toList text).map fun rest => (Lexeme.sign sign, rest) with
  | some found => some found
  | none =>
      match text with
      | [] => none
      | c :: rest =>
          if isNameStart c then
            some (.name (String.ofList (text.takeWhile isNamePart)), text.dropWhile isNamePart)
          else if Text.isAsciiDigit c then takeNumber text
          else if c = '"' || c = '\'' then
            (takeString c rest).map fun found => (.text (String.ofList found.1), found.2)
          else if c ∈ shortSigns then some (.sign (String.singleton c), rest)
          else none

/-- How brackets change the depth. -/
def depthAfter (depth : Nat) (lexeme : Lexeme) : Nat :=
  match lexeme with
  | .sign spelling =>
      if ["(", "[", "\x7b"].contains spelling then depth + 1
      else if [")", "]", "\x7d"].contains spelling then depth - 1
      else depth
  | _ => depth

/-- The rest after the closing mark of a tag, with whether it takes away the blanks behind it. -/
def closeTag? (close text : List Char) : Option (Bool × List Char) :=
  match Text.dropStart? close text with
  | some rest => some (false, rest)
  | none =>
      match text with
      | '-' :: more => (Text.dropStart? close more).map fun rest => (true, rest)
      | '+' :: more => (Text.dropStart? close more).map fun rest => (false, rest)
      | _ => none

/-- What a tag holds, and what follows it. -/
structure Tag where
  /-- The lexemes of the tag. -/
  lexemes : List Lexeme
  /-- Whether the blanks behind it are taken away. -/
  trims : Bool
  /-- The text behind it. -/
  rest : List Char

/-- Read a tag up to its closing mark; `limit` bounds the lexemes. -/
def readTag (close : List Char) : (limit depth : Nat) → List Char → Option Tag
  | 0, _, _ => none
  | limit + 1, depth, text =>
      let text := text.dropWhile Text.isAsciiBlank
      match (if depth = 0 then closeTag? close text else none) with
      | some (trims, rest) => some ⟨[], trims, rest⟩
      | none =>
          match takeLexeme? text with
          | none => none
          | some (lexeme, after) =>
              (readTag close limit (depthAfter depth lexeme) after).map fun tag =>
                { tag with lexemes := lexeme :: tag.lexemes }

/-- The text before the first tag, and the tag with what follows it. -/
def cutAtTag : List Char → List Char × List Char
  | [] => ([], [])
  | '{' :: c :: rest =>
      if c = '{' || c = '%' || c = '#' then ([], '{' :: c :: rest)
      else
        let cut := cutAtTag (c :: rest)
        ('{' :: cut.1, cut.2)
  | c :: rest =>
      let cut := cutAtTag rest
      (c :: cut.1, cut.2)

/-- The start of a tag that holds one word: what follows the tag, with whether the tag takes away
the blanks before and behind it. -/
def wordTag? (word text : List Char) : Option (Bool × Bool × List Char) :=
  (Text.dropStart? ['{', '%'] text).bind fun inside =>
    let (trims, inside) := match inside with
      | '-' :: more => (true, more)
      | '+' :: more => (false, more)
      | more => (false, more)
    (Text.dropStart? word (inside.dropWhile Text.isAsciiBlank)).bind fun after =>
      (closeTag? ['%', '}'] (after.dropWhile Text.isAsciiBlank)).map fun closed =>
        (trims, closed.1, closed.2)

/-- The text up to the tag that ends a verbatim part, with what `wordTag?` says of that tag. -/
def takeVerbatim : List Char → Option (List Char × Bool × Bool × List Char)
  | [] => none
  | c :: rest =>
      match wordTag? "endraw".toList (c :: rest) with
      | some tag => some ([], tag)
      | none => (takeVerbatim rest).map fun found => (c :: found.1, found.2)

/-- Cut a template into segments; `limit` bounds the tags. `trims` tells whether the blanks at
the start are taken away. -/
def segmentsWithin : (limit : Nat) → (trims : Bool) → List Char → Option (List Segment)
  | 0, _, _ => none
  | limit + 1, trims, text =>
      let text := if trims then Text.trimStart text else text
      let (before, rest) := cutAtTag text
      let textSegment := fun (trimsEnd : Bool) =>
        let shown := if trimsEnd then Text.trimEnd before else before
        if shown.isEmpty then [] else [Segment.text shown]
      match rest with
      | '{' :: mark :: inside =>
          match wordTag? "raw".toList rest with
          | some (trimsBefore, trimsStart, after) =>
              (takeVerbatim after).bind fun (verbatim, trimsEnd, trimsAfter, after) =>
                let content := if trimsStart then Text.trimStart verbatim else verbatim
                let content := if trimsEnd then Text.trimEnd content else content
                (segmentsWithin limit trimsAfter after).map fun segments =>
                  textSegment trimsBefore ++ .text content :: segments
          | none =>
              let (trimsBefore, inside) := match inside with
                | '-' :: more => (true, more)
                | '+' :: more => (false, more)
                | more => (false, more)
              if mark = '#' then
                (Text.splitOnce ['#', '}'] inside).bind fun (comment, after) =>
                  (segmentsWithin limit (comment.getLast? == some '-') after).map fun segments =>
                    textSegment trimsBefore ++ segments
              else
                let close := if mark = '%' then ['%', '}'] else ['}', '}']
                (readTag close (inside.length + 1) 0 inside).bind fun tag =>
                  (segmentsWithin limit tag.trims tag.rest).map fun segments =>
                    let segment := if mark = '%' then Segment.statement tag.lexemes
                      else .output tag.lexemes
                    textSegment trimsBefore ++ segment :: segments
      | _ => some (textSegment false)

/-- Cut a template into segments. None when a tag has no end or holds what is no lexeme. -/
def segmentsOf (source : String) : Option (List Segment) :=
  let text := source.toList
  segmentsWithin (text.length + 1) false text

end Jinja
end MailPress
