import MailPress.Scss.Value

/-!
# Writing values

The text of a value in a style sheet. Numbers have at most ten decimals, strings
have quotes, and a colour is written as it was or by its name or digits. Some
values have no text: an empty list, a map, and a number with more than one unit.

In a hole of some other text a value is written in the same way, but strings
without their quotes.
-/

namespace MailPress
namespace Scss

/-- The decimals that a number has at most. -/
def decimalPlaces : Nat := 10

/-- What a number is multiplied by so that all its decimals become digits. -/
def decimalScale : Nat := Nat.pow 10 decimalPlaces

/-- The digits after the point, the zeros at the end left out. -/
def fractionDigits (fraction : Nat) : List Char :=
  let digits := Text.decimalDigits fraction
  let padded := List.replicate (decimalPlaces - digits.length) '0' ++ digits
  (padded.reverse.dropWhile (· == '0')).reverse

/-- The text of a number. -/
def writeRational (value : Rat) : String :=
  let scaled := roundHalfAway (value * decimalScale)
  let size := scaled.natAbs
  let whole := Text.decimalDigits (size / decimalScale)
  let fraction := fractionDigits (size % decimalScale)
  let digits := if fraction.isEmpty then whole else whole ++ '.' :: fraction
  String.ofList (if scaled < 0 then '-' :: digits else digits)

/-- The text of a number with its unit. -/
def Number.write? (number : Number) : Option String :=
  match number.spelling, number.units, number.divisors with
  | some spelling, _, _ => some spelling
  | none, [], [] => some (writeRational number.value)
  | none, [unit], [] => some (writeRational number.value ++ unit)
  | _, _, _ => none

/-- The text of a number, with all its units. -/
def Number.describe (number : Number) : String :=
  let below := if number.divisors.isEmpty then "" else "/" ++ String.intercalate "*" number.divisors
  writeRational number.value ++ String.intercalate "*" number.units ++ below

/-- The arguments of the function that makes an opaque colour or one that is not. -/
def writeChannels (name : String) (arguments : List String) (alpha : Rat) : String :=
  if alpha = 1 then name ++ "(" ++ String.intercalate ", " arguments ++ ")"
  else name ++ "a(" ++ String.intercalate ", " (arguments ++ [writeRational alpha]) ++ ")"

/-- The text of a colour. -/
def Colour.write (colour : Colour) : String :=
  let channels := [colour.red, colour.green, colour.blue].map writeRational
  match colour.form with
  | .written spelling => spelling
  | .channels => writeChannels "rgb" channels colour.alpha
  | .cylinder =>
      let view := colour.cylinder
      writeChannels "hsl" [writeRational view.hue ++ "deg",
        writeRational (view.saturation * 100) ++ "%",
        writeRational (view.lightness * 100) ++ "%"] colour.alpha
  | .computed =>
      if colour.alpha = 1 then colour.name?.getD ("#" ++ colour.hexDigits)
      else writeChannels "rgb" channels colour.alpha

/-- A string in quotes. Double quotes are used unless only they occur inside. -/
def writeQuoted (content : String) : String :=
  let characters := content.toList
  let quote := if characters.contains '"' && !characters.contains '\'' then '\'' else '"'
  let written := characters.flatMap fun c =>
    if c = quote || c = '\\' then ['\\', c]
    else if c = '\n' then ['\\', 'a']
    else [c]
  String.ofList (quote :: (written ++ [quote]))

/-- What stands between the elements of a list. -/
def Separator.write : Separator → String
  | .comma => ", "
  | .slash => " / "
  | .space | .undecided => " "

mutual

/-- The text of a value, strings with or without quotes. -/
def Value.write? (quoting : Bool) : Value → Option String
  | .null => some ""
  | .truth holds => some (if holds then "true" else "false")
  | .number number => number.write?
  | .colour colour => some colour.write
  | .text content quoted =>
      some (if quoted && quoting then writeQuoted content else content)
  | .list elements separator bracketed =>
      if elements.isEmpty && !bracketed then none
      else
        (writeElements? quoting elements).map fun texts =>
          let inner := String.intercalate separator.write (texts.filter (!·.isEmpty))
          if bracketed then "[" ++ inner ++ "]" else inner
  | .map _ => none

/-- The texts of some values. -/
def writeElements? (quoting : Bool) : List Value → Option (List String)
  | [] => some []
  | element :: elements =>
      (element.write? quoting).bind fun text =>
        (writeElements? quoting elements).map (text :: ·)

end

/-- The text of a value in a style sheet. -/
def Value.css? (value : Value) : Option String :=
  value.write? true

/-- The text of a value in a hole. -/
def Value.inline? (value : Value) : Option String :=
  value.write? false

mutual

/-- The text of any value, for a reader of the style sheet. -/
def Value.describe : Value → String
  | .null => "null"
  | .truth holds => if holds then "true" else "false"
  | .number number => number.spelling.getD number.describe
  | .colour colour => colour.write
  | .text content quoted => if quoted then writeQuoted content else content
  | .list elements separator bracketed =>
      let inner := String.intercalate separator.write (describeAll elements)
      if bracketed then "[" ++ inner ++ "]" else if elements.isEmpty then "()" else inner
  | .map entries => "(" ++ String.intercalate ", " (describeEntries entries) ++ ")"

/-- The texts of some values, for a reader. -/
def describeAll : List Value → List String
  | [] => []
  | element :: elements => element.describe :: describeAll elements

/-- The texts of the entries of a map, for a reader. -/
def describeEntries : List (Value × Value) → List String
  | [] => []
  | (key, value) :: entries => (key.describe ++ ": " ++ value.describe) :: describeEntries entries

end

end Scss
end MailPress
