import MailPress.Scss.Expression
import MailPress.Scss.Expression.Lexeme

/-!
# Reading expressions

Operators bind by their levels and group to the left. A list of operands without
commas is separated by blanks, and binds tighter than one with commas.

The readers call one another along the nesting of the text, which is bounded by
its length. Each takes a bound on the calls that remain, and the wrappers at the
end give one that is never reached.
-/

namespace MailPress
namespace Scss

/-- The character that an escape of a string denotes, and what is left after it. -/
def takeEscape (text : List Char) : List Char × List Char :=
  match text with
  | '\n' :: rest => ([], rest)
  | c :: rest =>
      let digits := (text.take 6).takeWhile Text.isHexDigit
      if digits.isEmpty then ([c], rest)
      else
        let after := text.drop digits.length
        let after := match after with
          | ' ' :: more => more
          | more => more
        ([Char.ofNat (Text.hexadecimalValue digits)], after)
  | [] => ([], [])

/-- Replace the escapes of a string, after skipping the given number of characters. -/
def unescapeFrom : Nat → List Char → List Char
  | _, [] => []
  | skip + 1, _ :: rest => unescapeFrom skip rest
  | 0, '\\' :: rest =>
      let (content, after) := takeEscape rest
      content ++ unescapeFrom (rest.length - after.length) rest
  | 0, c :: rest => c :: unescapeFrom 0 rest

/-- The parts of a string with their escapes replaced. -/
def unescapeParts (parts : List Part) : List Part :=
  parts.map fun part =>
    match part with
    | .fixed content => .fixed (unescapeFrom 0 content)
    | .hole source => .hole source

/-- The literal that a word is, if it is one. -/
def literalWord? (name : String) : Option Value :=
  if name = "true" then some (.truth true)
  else if name = "false" then some (.truth false)
  else if name = "null" then some .null
  else (Colour.named? name).map Value.colour

/-- The operator that a token is. -/
def operatorOf? : Token → Option BinaryOperator
  | .sign spelling => BinaryOperator.ofSign? spelling
  | .word [.fixed name] =>
      if name = "and".toList then some .both
      else if name = "or".toList then some .either
      else none
  | _ => none

/-- Whether a hyphen before these lexemes is a sign of the number that follows, and so starts a
new element of a list. -/
def startsNegative (spaced : Bool) (rest : List Lexeme) : Bool :=
  match rest with
  | ⟨.number _ _, false⟩ :: _ => spaced
  | _ => false

/-- Whether a lexeme can start an operand. -/
def startsOperand : List Lexeme → Bool
  | [] => false
  | ⟨.sign spelling, _⟩ :: _ => ["(", "[", "&", "-"].contains spelling
  | _ => true

/-- A list of operands separated by blanks; one operand is itself. -/
def ofSpaced : List Expression → Expression
  | [element] => element
  | elements => .list elements .space false

mutual

/-- Read the holes of parts. -/
def readParts : (bound : Nat) → List Part → Option (List Piece)
  | _, [] => some []
  | 0, _ => none
  | bound + 1, .fixed content :: parts =>
      (readParts bound parts).map (.fixed (String.ofList content) :: ·)
  | bound + 1, .hole source :: parts =>
      (readWhole bound source).bind fun inner =>
        (readParts bound parts).map (.hole inner :: ·)

/-- Read an expression that takes up a whole text. -/
def readWhole : (bound : Nat) → List Char → Option Expression
  | 0, _ => none
  | bound + 1, text =>
      match (lexemesOf text).bind (readCommas bound) with
      | some (expression, []) => some expression
      | _ => none

/-- Read a list with commas. -/
def readCommas : (bound : Nat) → List Lexeme → Option (Expression × List Lexeme)
  | 0, _ => none
  | bound + 1, lexemes =>
      (readSpaced bound lexemes).bind fun first =>
        match first.2 with
        | ⟨.sign ",", _⟩ :: _ =>
            (readMoreCommas bound first.2).map fun more =>
              (.list (first.1 :: more.1) .comma false, more.2)
        | _ => some first

/-- Read the elements after commas; a comma may end the list. -/
def readMoreCommas : (bound : Nat) → List Lexeme → Option (List Expression × List Lexeme)
  | 0, _ => none
  | bound + 1, ⟨.sign ",", _⟩ :: rest =>
      if startsOperand rest then
        (readSpaced bound rest).bind fun element =>
          (readMoreCommas bound element.2).map fun more => (element.1 :: more.1, more.2)
      else some ([], rest)
  | _, rest => some ([], rest)

/-- Read a list with blanks. -/
def readSpaced : (bound : Nat) → List Lexeme → Option (Expression × List Lexeme)
  | 0, _ => none
  | bound + 1, lexemes =>
      (readLevel bound 1 lexemes).bind fun first =>
        (readMoreSpaced bound first.2).map fun more => (ofSpaced (first.1 :: more.1), more.2)

/-- Read the elements after blanks. -/
def readMoreSpaced : (bound : Nat) → List Lexeme → Option (List Expression × List Lexeme)
  | 0, _ => none
  | bound + 1, lexemes =>
      if startsOperand lexemes then
        (readLevel bound 1 lexemes).bind fun element =>
          (readMoreSpaced bound element.2).map fun more => (element.1 :: more.1, more.2)
      else some ([], lexemes)

/-- Read operands joined by operators that bind at least as tightly as a level. -/
def readLevel : (bound level : Nat) → List Lexeme → Option (Expression × List Lexeme)
  | 0, _, _ => none
  | bound + 1, level, lexemes =>
      if 6 < level then readUnary bound lexemes
      else
        (readLevel bound (level + 1) lexemes).bind fun first =>
          readOperators bound level first.1 first.2

/-- Read the operators of one level after an operand. -/
def readOperators :
    (bound level : Nat) → Expression → List Lexeme → Option (Expression × List Lexeme)
  | 0, _, _, _ => none
  | bound + 1, level, left, ⟨token, spaced⟩ :: rest =>
      match operatorOf? token with
      | some operator =>
          if operator.level ≠ level then some (left, ⟨token, spaced⟩ :: rest)
          else if operator = .minus && startsNegative spaced rest then
            some (left, ⟨token, spaced⟩ :: rest)
          else
            (readLevel bound (level + 1) rest).bind fun right =>
              readOperators bound level (.binary operator left right.1) right.2
      | none => some (left, ⟨token, spaced⟩ :: rest)
  | _, _, left, [] => some (left, [])

/-- Read an operand with the operators in front of it. -/
def readUnary : (bound : Nat) → List Lexeme → Option (Expression × List Lexeme)
  | 0, _ => none
  | bound + 1, ⟨.sign "-", _⟩ :: ⟨.number value unit, false⟩ :: rest =>
      readUnary bound (⟨.number (-value) unit, false⟩ :: rest)
  | bound + 1, ⟨.sign "+", _⟩ :: ⟨.number value unit, false⟩ :: rest =>
      readUnary bound (⟨.number value unit, false⟩ :: rest)
  | bound + 1, ⟨.sign "-", _⟩ :: rest =>
      (readUnary bound rest).map fun operand => (.unary .minus operand.1, operand.2)
  | bound + 1, ⟨.sign "+", _⟩ :: rest =>
      (readUnary bound rest).map fun operand => (.unary .plus operand.1, operand.2)
  | bound + 1, ⟨.sign "/", _⟩ :: rest =>
      (readUnary bound rest).map fun operand => (.unary .divide operand.1, operand.2)
  | bound + 1, ⟨.word [.fixed ['n', 'o', 't']], _⟩ :: rest =>
      (readUnary bound rest).map fun operand => (.unary .negation operand.1, operand.2)
  | bound + 1, lexemes => readOperand bound lexemes

/-- Read one operand. -/
def readOperand : (bound : Nat) → List Lexeme → Option (Expression × List Lexeme)
  | 0, _ => none
  | _, [] => none
  | bound + 1, ⟨token, _⟩ :: rest =>
      match token with
      | .number value unit =>
          let units := if unit.isEmpty then [] else [unit]
          some (.literal (.number ⟨value, units, [], none⟩), rest)
      | .word [.fixed name] =>
          let name := String.ofList name
          match literalWord? name with
          | some value => some (.literal value, rest)
          | none => some (.text [.fixed name] false, rest)
      | .word parts | .verbatim parts =>
          (readParts bound parts).map fun pieces => (.text pieces false, rest)
      | .quoted parts =>
          (readParts bound (unescapeParts parts)).map fun pieces => (.text pieces true, rest)
      | .hash content =>
          match Colour.ofHexDigits? content with
          | some colour => some (.literal (.colour colour), rest)
          | none => some (.text [.fixed ("#" ++ String.ofList content)] false, rest)
      | .variable name => some (.variable (plainName name), rest)
      | .opening parts =>
          (readParts bound parts).bind fun name =>
            (readArguments bound rest).map fun arguments =>
              (.call name arguments.1, arguments.2)
      | .sign "&" => some (.parent, rest)
      | .sign "(" => readGroup bound rest
      | .sign "[" =>
          match rest with
          | ⟨.sign "]", _⟩ :: rest => some (.list [] .undecided true, rest)
          | _ =>
              match readCommas bound rest with
              | some (.list elements separator false, ⟨.sign "]", _⟩ :: rest) =>
                  some (.list elements separator true, rest)
              | some (element, ⟨.sign "]", _⟩ :: rest) =>
                  some (.list [element] .undecided true, rest)
              | _ => none
      | .sign _ => none

/-- Read what follows an opening parenthesis: nothing, a map, or an expression. -/
def readGroup : (bound : Nat) → List Lexeme → Option (Expression × List Lexeme)
  | 0, _ => none
  | _, ⟨.sign ")", _⟩ :: rest => some (.list [] .undecided false, rest)
  | bound + 1, lexemes =>
      (readSpaced bound lexemes).bind fun first =>
        match first.2 with
        | ⟨.sign ")", _⟩ :: rest => some (.group first.1, rest)
        | ⟨.sign ":", _⟩ :: rest =>
            (readEntries bound first.1 rest).map fun entries => (.map entries.1, entries.2)
        | ⟨.sign ",", _⟩ :: _ =>
            (readMoreCommas bound first.2).bind fun more =>
              match more.2 with
              | ⟨.sign ")", _⟩ :: rest =>
                  some (.group (.list (first.1 :: more.1) .comma false), rest)
              | _ => none
        | _ => none

/-- Read the entries of a map from the value of the first one on. -/
def readEntries :
    (bound : Nat) → (key : Expression) → List Lexeme →
      Option (List (Expression × Expression) × List Lexeme)
  | 0, _, _ => none
  | bound + 1, key, lexemes =>
      (readSpaced bound lexemes).bind fun value =>
        match value.2 with
        | ⟨.sign ")", _⟩ :: rest => some ([(key, value.1)], rest)
        | ⟨.sign ",", _⟩ :: ⟨.sign ")", _⟩ :: rest => some ([(key, value.1)], rest)
        | ⟨.sign ",", _⟩ :: rest =>
            (readSpaced bound rest).bind fun next =>
              match next.2 with
              | ⟨.sign ":", _⟩ :: rest =>
                  (readEntries bound next.1 rest).map fun more =>
                    ((key, value.1) :: more.1, more.2)
              | _ => none
        | _ => none

/-- Read arguments up to and with the closing parenthesis. -/
def readArguments : (bound : Nat) → List Lexeme → Option (List Argument × List Lexeme)
  | 0, _ => none
  | _, ⟨.sign ")", _⟩ :: rest => some ([], rest)
  | bound + 1, lexemes =>
      (readArgument bound lexemes).bind fun first =>
        match first.2 with
        | ⟨.sign ")", _⟩ :: rest => some ([first.1], rest)
        | ⟨.sign ",", _⟩ :: rest =>
            (readArguments bound rest).map fun more => (first.1 :: more.1, more.2)
        | _ => none

/-- Read one argument. -/
def readArgument : (bound : Nat) → List Lexeme → Option (Argument × List Lexeme)
  | 0, _ => none
  | bound + 1, ⟨.variable name, _⟩ :: ⟨.sign ":", _⟩ :: rest =>
      (readSpaced bound rest).map fun value => (.one (some (plainName name)) value.1, value.2)
  | bound + 1, lexemes =>
      (readSpaced bound lexemes).bind fun value =>
        match value.2 with
        | ⟨.sign "...", _⟩ :: rest => some (.spread value.1, rest)
        | ⟨.sign "=", _⟩ :: rest =>
            (readSpaced bound rest).map fun right =>
              (.one none (.binary .assign value.1 right.1), right.2)
        | rest => some (.one none value.1, rest)

end

/-- A bound that reading a text of this length does not reach: at most sixteen calls lie between
two characters. -/
def readingBound (length : Nat) : Nat :=
  16 * (length + 2)

/-- Read a text as an expression. -/
def Expression.read? (text : List Char) : Option Expression :=
  readWhole (readingBound text.length) text

/-- Read lexemes of a text of the given length as an expression. -/
def Expression.ofLexemes? (length : Nat) (lexemes : List Lexeme) : Option Expression :=
  match readCommas (readingBound length) lexemes with
  | some (expression, []) => some expression
  | _ => none

/-- Read a text with holes. -/
def readPieces? (text : List Char) : Option (List Piece) :=
  (partsOf text).bind (readParts (readingBound text.length))

/-- Read arguments in parentheses; no text stands for no arguments. -/
def readArgumentList? (text : List Char) : Option (List Argument) :=
  match lexemesOf text with
  | some [] => some []
  | some (⟨.sign "(", _⟩ :: rest) =>
      match readArguments (readingBound text.length) rest with
      | some (arguments, []) => some arguments
      | _ => none
  | _ => none

/-- Read parameters up to and with the closing parenthesis. -/
def readParameters :
    (bound length : Nat) → List Lexeme → Option (Parameters × List Lexeme)
  | 0, _, _ => none
  | _, _, ⟨.sign ")", _⟩ :: rest => some (.none, rest)
  | _ + 1, _, ⟨.variable name, _⟩ :: ⟨.sign "...", _⟩ :: ⟨.sign ")", _⟩ :: rest =>
      some (⟨[], some (plainName name)⟩, rest)
  | bound + 1, length, ⟨.variable name, _⟩ :: ⟨.sign ":", _⟩ :: rest =>
      (readSpaced (readingBound length) rest).bind fun fallback =>
        let parameter : Parameter := ⟨plainName name, some fallback.1⟩
        match fallback.2 with
        | ⟨.sign ")", _⟩ :: rest => some (⟨[parameter], none⟩, rest)
        | ⟨.sign ",", _⟩ :: rest =>
            (readParameters bound length rest).map fun more =>
              (⟨parameter :: more.1.single, more.1.rest⟩, more.2)
        | _ => none
  | bound + 1, length, ⟨.variable name, _⟩ :: rest =>
      let parameter : Parameter := ⟨plainName name, none⟩
      match rest with
      | ⟨.sign ")", _⟩ :: rest => some (⟨[parameter], none⟩, rest)
      | ⟨.sign ",", _⟩ :: rest =>
          (readParameters bound length rest).map fun more =>
            (⟨parameter :: more.1.single, more.1.rest⟩, more.2)
      | _ => none
  | _, _, _ => none

end Scss
end MailPress
