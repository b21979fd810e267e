import MailPress.Scss.Value
import MailPress.Text.Ascii
import MailPress.Text.Blank
import MailPress.Text.Search

/-!
# The words of expressions

An expression is first cut into lexemes: numbers, words, strings, variables and
signs. Whether a blank stands before a lexeme is kept, because a hyphen after a
blank starts a new element of a list and one without a blank is a difference.

Texts with holes are cut into fixed parts and holes; what is in a hole is an
expression again and is cut later.
-/

namespace MailPress
namespace Scss

/-- A part of a text whose holes are not yet read. -/
inductive Part
  /-- Fixed text. -/
  | fixed (content : List Char)
  /-- The source of the expression in a hole. -/
  | hole (source : List Char)
  deriving DecidableEq, Repr, Inhabited

/-- Put a character in front of parts. -/
def pushFixed (c : Char) : List Part → List Part
  | .fixed content :: parts => .fixed (c :: content) :: parts
  | parts => .fixed [c] :: parts

/-- Put a character in front of the source of the hole that comes first. -/
def pushHole (c : Char) : List Part → List Part
  | .hole source :: parts => .hole (c :: source) :: parts
  | parts => parts

/-- Where a cut into parts stands. -/
inductive PartState
  /-- Outside holes. -/
  | outside
  /-- Inside a hole, at a depth of braces, and perhaps inside a string of it. -/
  | inside (depth : Nat) (quote : Option Char)
  deriving DecidableEq, Repr

/-- Cut a text into parts up to a character that does not belong to it; the result has the parts
and what is left. None when a hole has no end. -/
def takeParts (belongs : Char → Bool) : PartState → List Char → Option (List Part × List Char)
  | .outside, [] => some ([], [])
  | .inside _ _, [] => none
  | .outside, '#' :: '{' :: rest => takeParts belongs (.inside 0 none) rest
  | .outside, '\\' :: c :: rest =>
      (takeParts belongs .outside rest).map fun cut =>
        (pushFixed '\\' (pushFixed c cut.1), cut.2)
  | .outside, c :: rest =>
      if belongs c then
        (takeParts belongs .outside rest).map fun cut => (pushFixed c cut.1, cut.2)
      else some ([], c :: rest)
  | .inside depth (some quote), c :: rest =>
      (takeParts belongs (.inside depth (if c = quote then none else some quote)) rest).map
        fun cut => (pushHole c cut.1, cut.2)
  | .inside depth none, c :: rest =>
      if c = '}' then
        match depth with
        | 0 => (takeParts belongs .outside rest).map fun cut => (.hole [] :: cut.1, cut.2)
        | depth + 1 =>
            (takeParts belongs (.inside depth none) rest).map fun cut =>
              (pushHole c cut.1, cut.2)
      else
        let state : PartState :=
          if c = '{' then .inside (depth + 1) none
          else if c = '"' || c = '\'' then .inside depth (some c)
          else .inside depth none
        (takeParts belongs state rest).map fun cut => (pushHole c cut.1, cut.2)

/-- All parts of a text. -/
def partsOf (text : List Char) : Option (List Part) :=
  (takeParts (fun _ => true) .outside text).map Prod.fst

/-- A character that may start a name. -/
def isNameStart (c : Char) : Bool :=
  Text.isAsciiLetter c || c == '_' || !Text.isAscii c

/-- A character of a name. -/
def isNamePart (c : Char) : Bool :=
  isNameStart c || Text.isAsciiDigit c || c == '-'

/-- Whether a name starts here, perhaps with a hole or an escaped character. -/
def startsName : List Char → Bool
  | '#' :: '{' :: _ => true
  | '\\' :: _ :: _ => true
  | '-' :: '-' :: _ => true
  | '-' :: '#' :: '{' :: _ => true
  | '-' :: c :: _ => isNameStart c || c == '\\'
  | c :: _ => isNameStart c
  | [] => false

/-- A lexeme of an expression. -/
inductive Token
  /-- A number with its unit. -/
  | number (value : Rat) (unit : String)
  /-- A word. -/
  | word (parts : List Part)
  /-- A word with the parenthesis that opens its arguments. -/
  | opening (parts : List Part)
  /-- A string in quotes. -/
  | quoted (parts : List Part)
  /-- A text that is printed as it is. -/
  | verbatim (parts : List Part)
  /-- A hash sign with what follows. -/
  | hash (content : List Char)
  /-- A variable. -/
  | variable (name : String)
  /-- An operator or a punctuation mark. -/
  | sign (spelling : String)
  deriving Repr, Inhabited

/-- A token, with whether a blank stands before it. -/
structure Lexeme where
  /-- The token. -/
  token : Token
  /-- Whether a blank stands before it. -/
  spaced : Bool
  deriving Repr, Inhabited

/-- The digits at the start, and what is left. -/
def takeDigits (text : List Char) : List Char × List Char :=
  (text.takeWhile Text.isAsciiDigit, text.dropWhile Text.isAsciiDigit)

/-- The unit at the start, and what is left. A hyphen belongs to it only before a letter. -/
def takeUnit : List Char → List Char × List Char
  | '-' :: c :: rest =>
      if isNameStart c then
        let more := takeUnit (c :: rest)
        ('-' :: more.1, more.2)
      else ([], '-' :: c :: rest)
  | '\\' :: c :: rest =>
      let more := takeUnit rest
      ('\\' :: c :: more.1, more.2)
  | c :: rest =>
      if isNameStart c || Text.isAsciiDigit c then
        let more := takeUnit rest
        (c :: more.1, more.2)
      else ([], c :: rest)
  | [] => ([], [])

/-- The power of ten that is written after a number, and what is left. -/
def takeExponent (text : List Char) : Int × List Char :=
  match text with
  | 'e' :: rest | 'E' :: rest =>
      let (negative, digits) := match rest with
        | '-' :: more => (true, more)
        | '+' :: more => (false, more)
        | more => (false, more)
      let (exponent, after) := takeDigits digits
      if exponent.isEmpty then (0, text)
      else
        let size : Int := Text.decimalValue exponent
        (if negative then -size else size, after)
  | _ => (0, text)

/-- The number at the start of a text, if there is one. -/
def takeNumber? (text : List Char) : Option (Rat × String × List Char) :=
  let (whole, rest) := takeDigits text
  let (fraction, rest) := match rest with
    | '.' :: more =>
        let (digits, after) := takeDigits more
        if digits.isEmpty then ([], rest) else (digits, after)
    | _ => ([], rest)
  if whole.isEmpty && fraction.isEmpty then none
  else
    let (exponent, rest) := takeExponent rest
    let digits : Rat := Text.decimalValue (whole ++ fraction)
    let shift : Int := exponent - fraction.length
    let scale : Rat := Nat.pow 10 shift.natAbs
    let value := if shift < 0 then digits / scale else digits * scale
    match rest with
    | '%' :: after => some (value, "%", after)
    | _ =>
        let (unit, after) := if startsName rest then takeUnit rest else ([], rest)
        some (value, String.ofList unit, after)

/-- A character of an address that needs no quotes. -/
def isAddressChar (c : Char) : Bool :=
  c == '!' || c == '%' || c == '&' || c == '#' || ('*' ≤ c && c ≤ '~') || !Text.isAscii c

/-- The address in the parentheses of `url`, up to and with the closing one, if it is written
without quotes. -/
def takeAddress? (text : List Char) : Option (List Part × List Char) :=
  match takeParts isAddressChar .outside (text.dropWhile Text.isBlank) with
  | some (parts, rest) =>
      match rest.dropWhile Text.isBlank with
      | ')' :: after => some (.fixed "url(".toList :: parts ++ [.fixed [')']], after)
      | _ => none
  | none => none

/-- The text up to the parenthesis that closes an open one, with it. -/
def takeBalanced : Nat → List Char → Option (List Char × List Char)
  | _, [] => none
  | depth, c :: rest =>
      if c = ')' && depth = 0 then some ([c], rest)
      else
        let depth := if c = '(' then depth + 1 else if c = ')' then depth - 1 else depth
        (takeBalanced depth rest).map fun found => (c :: found.1, found.2)

/-- The names of functions whose arguments are not read. -/
def isVerbatimCall (name : List Char) : Bool :=
  let name := Text.lower (String.ofList name)
  name = "expression" || name = "element" || Text.hasEnd "-element" name

/-- The signs of two or more characters, longest first. -/
def longSigns : List String :=
  ["...", "==", "!=", "<=", ">="]

/-- The signs of one character. -/
def shortSigns : List Char :=
  ['+', '-', '*', '/', '%', '=', '<', '>', '(', ')', '[', ']', ',', ':', '&']

/-- The sign at the start of a text. -/
def takeSign? (text : List Char) : Option (Token × List Char) :=
  match longSigns.findSome? fun sign =>
      (Text.dropStart? sign.toList text).map fun rest => (Token.sign sign, rest) with
  | some found => some found
  | none =>
      match text with
      | c :: rest => if c ∈ shortSigns then some (.sign (String.singleton c), rest) else none
      | [] => none

/-- The word at the start of a text, as a word, a call, an address, or the member of a module. -/
def takeWord? (text : List Char) : Option (Token × List Char) :=
  match takeParts isNamePart .outside text with
  | none => none
  | some (parts, rest) =>
      match parts, rest with
      | [.fixed name], '(' :: inside =>
          if Text.sameIgnoringCase (String.ofList name) "url" then
            match takeAddress? inside with
            | some (address, after) => some (.verbatim address, after)
            | none => some (.opening parts, inside)
          else if isVerbatimCall name then
            (takeBalanced 0 inside).map fun found =>
              (.verbatim [.fixed (name ++ '(' :: found.1)], found.2)
          else some (.opening parts, inside)
      | [.fixed name], ':' :: inside =>
          if Text.sameIgnoringCase (String.ofList name) "progid" then
            match inside.dropWhile fun c => isNamePart c || c == '.' with
            | '(' :: after =>
                (takeBalanced 0 after).map fun found =>
                  (.verbatim [.fixed (name ++ ':' ::
                    (inside.takeWhile fun c => isNamePart c || c == '.') ++ '(' :: found.1)],
                    found.2)
            | _ => none
          else some (.word parts, rest)
      | [.fixed name], '.' :: '$' :: inside =>
          let member := inside.takeWhile isNamePart
          some (.variable (String.ofList (name ++ '.' :: member)), inside.dropWhile isNamePart)
      | [.fixed name], '.' :: c :: inside =>
          if isNameStart c then
            let member := (c :: inside).takeWhile isNamePart
            let full := [Part.fixed (name ++ '.' :: member)]
            match (c :: inside).dropWhile isNamePart with
            | '(' :: after => some (.opening full, after)
            | after => some (.word full, after)
          else some (.word parts, rest)
      | _, '(' :: inside => some (.opening parts, inside)
      | _, _ => some (.word parts, rest)

/-- The marks that may stand after a value, in lowercase. -/
def marks : List String :=
  ["!important", "!default", "!global"]

/-- The token at the start of a text that does not start with a blank. -/
def takeToken? (text : List Char) : Option (Token × List Char) :=
  match text with
  | [] => none
  | '"' :: rest | '\'' :: rest =>
      let quote := if text.head? = some '"' then '"' else '\''
      match takeParts (fun c => c != quote && c != '\n') .outside rest with
      | some (parts, c :: after) => if c = quote then some (.quoted parts, after) else none
      | _ => none
  | '$' :: rest =>
      let name := rest.takeWhile isNamePart
      if name.isEmpty then none
      else some (.variable (String.ofList name), rest.dropWhile isNamePart)
  | '!' :: '=' :: rest => some (.sign "!=", rest)
  | '!' :: rest =>
      let rest := rest.dropWhile Text.isBlank
      let mark := Text.lower (String.ofList ('!' :: rest.takeWhile isNamePart))
      if marks.contains mark then
        some (.verbatim [.fixed mark.toList], rest.dropWhile isNamePart)
      else none
  | '#' :: c :: rest =>
      if c = '{' then takeWord? text
      else if isNamePart c then
        some (.hash ((c :: rest).takeWhile isNamePart), (c :: rest).dropWhile isNamePart)
      else none
  | c :: '+' :: rest =>
      if (c = 'u' || c = 'U') && rest.any fun d => Text.isHexDigit d || d == '?' then
        let isRange := fun d => Text.isHexDigit d || d == '?' || d == '-'
        some (.verbatim [.fixed (c :: '+' :: rest.takeWhile isRange)], rest.dropWhile isRange)
      else if startsName text then takeWord? text
      else match takeNumber? text with
        | some (value, unit, after) => some (.number value unit, after)
        | none => takeSign? text
  | _ =>
      if startsName text then takeWord? text
      else match takeNumber? text with
        | some (value, unit, after) => some (.number value unit, after)
        | none => takeSign? text

/-- Cut a text into lexemes; `limit` bounds their number. None where no lexeme fits. -/
def lexemesWithin : (limit : Nat) → List Char → Option (List Lexeme)
  | 0, text => if text.all Text.isBlank then some [] else none
  | limit + 1, text =>
      match text.dropWhile Text.isBlank with
      | [] => some []
      | c :: rest =>
          match takeToken? (c :: rest) with
          | none => none
          | some (token, after) =>
              (lexemesWithin limit after).map fun lexemes =>
                ⟨token, text.head?.any Text.isBlank⟩ :: lexemes

/-- Cut a text into lexemes. None where no lexeme fits. -/
def lexemesOf (text : List Char) : Option (List Lexeme) :=
  lexemesWithin text.length text

end Scss
end MailPress
