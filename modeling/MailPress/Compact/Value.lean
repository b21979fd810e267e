import MailPress.Css.ColourName
import MailPress.Css.Writer

/-!
# Compact values

The values of declarations in as few characters as they can be written: numbers
without needless zeros, lengths of nothing without a unit, colours by the shorter
of name and digits, strings and addresses without needless quotes.

What is not understood is kept as it stands.
-/

namespace MailPress
namespace Compact

/-- The units of lengths. -/
def lengthUnits : List String :=
  ["px", "em", "rem", "ex", "ch", "vw", "vh", "vmin", "vmax", "cm", "mm", "in", "pt", "pc", "q"]

/-- A number with its unit. -/
structure Quantity where
  /-- Whether it is below zero. -/
  isNegative : Bool
  /-- The digits before the point, without zeros at their start. -/
  whole : List Char
  /-- The digits after the point, without zeros at their end. -/
  fraction : List Char
  /-- The unit, in small letters. -/
  unit : String
  deriving DecidableEq, Repr, Inhabited

/-- Read a number with its unit. -/
def Quantity.read? (word : List Char) : Option Quantity :=
  let isNegative := word.head? = some '-'
  let unsigned := if isNegative || word.head? = some '+' then word.drop 1 else word
  let whole := unsigned.takeWhile Text.isAsciiDigit
  let after := unsigned.drop whole.length
  let fraction := match after with
    | '.' :: rest => rest.takeWhile Text.isAsciiDigit
    | _ => []
  let rest := if fraction.isEmpty then after else after.drop (fraction.length + 1)
  let isUnit := rest.all Text.isAsciiLetter || rest = ['%']
  if (whole.isEmpty && fraction.isEmpty) || !isUnit then none
  else
    some ⟨isNegative, whole.dropWhile (· == '0'), Text.trimEndOf (· == '0') fraction,
      Text.lower (String.ofList rest)⟩

/-- Write a number with its unit; a length of nothing needs none where `isLength` holds. -/
def Quantity.write (quantity : Quantity) (isLength : Bool) : String :=
  if quantity.whole.isEmpty && quantity.fraction.isEmpty then
    if isLength && lengthUnits.contains quantity.unit then "0" else "0" ++ quantity.unit
  else
    let point := if quantity.fraction.isEmpty then [] else '.' :: quantity.fraction
    String.ofList ((if quantity.isNegative then ['-'] else []) ++ quantity.whole ++ point) ++
      quantity.unit

/-- Hexadecimal digits with every pair of equal digits written once, if all pairs are. -/
def shortDigits : List Char → Option (List Char)
  | [] => some []
  | first :: second :: rest =>
      if first = second then (shortDigits rest).map (first :: ·) else none
  | [_] => none

/-- A colour by the shorter of its name and its digits. -/
def writeColour (digits : List Char) : String :=
  let opaqueDigits := if digits.drop 6 = ['f', 'f'] then digits.take 6 else digits
  let numbered := '#' :: (shortDigits opaqueDigits).getD opaqueDigits
  let names := Css.colourNames.filter fun entry =>
    entry.2.toList = opaqueDigits && entry.1.length < numbered.length
  match names with
  | (name, _) :: _ => name
  | [] => String.ofList numbered

/-- The two digits of a channel. -/
def channelDigits (value : Nat) : List Char :=
  [Text.hexDigit (value / 16), Text.hexDigit (value % 16)]

/-- A decimal number between zero and one as a channel, rounded. -/
def opacityChannel? (word : List Char) : Option Nat :=
  (Quantity.read? word).bind fun quantity =>
    if quantity.isNegative || quantity.unit != "" then none
    else
      let scale := Nat.pow 10 quantity.fraction.length
      let value := Text.decimalValue quantity.whole * scale + Text.decimalValue quantity.fraction
      some (min 255 ((2 * 255 * value + scale) / (2 * scale)))

/-- The digits of a colour that is given by its channels. -/
def digitsOfChannels? (arguments : List (List Char)) : Option (List Char) :=
  let channel? := fun (word : List Char) =>
    if !word.isEmpty && word.all Text.isAsciiDigit then
      some (channelDigits (min 255 (Text.decimalValue word)))
    else none
  match arguments with
  | [red, green, blue] => do
      some ((← channel? red) ++ (← channel? green) ++ (← channel? blue))
  | [red, green, blue, alpha] => do
      let alpha := channelDigits (← opacityChannel? alpha)
      some ((← channel? red) ++ (← channel? green) ++ (← channel? blue) ++ alpha)
  | _ => none

/-- The digits of the colour that a word names: six, or eight with an opacity. -/
def colourDigits? (word : List Char) : Option (List Char) :=
  let small := word.map Text.lowerChar
  match small with
  | '#' :: digits =>
      if !digits.all Text.isHexDigit then none
      else if digits.length = 3 || digits.length = 4 then
        some (digits.flatMap fun digit => [digit, digit])
      else if digits.length = 6 || digits.length = 8 then some digits
      else none
  | _ =>
      let arguments := fun (rest : List Char) =>
        (Text.splitAtEach (· == ',') rest.dropLast).map Text.trim
      match Text.dropStart? "rgb(".toList small, Text.dropStart? "rgba(".toList small with
      | some rest, _ | none, some rest => digitsOfChannels? (arguments rest)
      | none, none =>
          if small = "transparent".toList then some "00000000".toList
          else (Css.colourNames.lookup (String.ofList small)).map String.toList

/-- Whether a word is a plain name. -/
def isPlainName (word : List Char) : Bool :=
  let isPart := fun (c : Char) =>
    Text.isAsciiAlphanumeric c || c == '-' || c == '_' || !Text.isAscii c
  word.all isPart && word.head?.any (fun c => !Text.isAsciiDigit c && c != '-')

/-- The content of a quoted string. -/
def unquoted? (word : List Char) : Option (List Char) :=
  match word with
  | quote :: rest =>
      if Css.isQuote quote && rest.getLast? = some quote && !rest.dropLast.contains '\\' then
        some rest.dropLast
      else none
  | [] => none

/-- An address without quotes, if none are needed. -/
def writeAddress (word : List Char) : List Char :=
  let inside := Text.trim ((word.drop 4).dropLast)
  match unquoted? inside with
  | some content =>
      let needsQuotes := content.any fun c =>
        Text.isBlank c || Css.isQuote c || c == '(' || c == ')' || c == '\\'
      if needsQuotes then "url(\"".toList ++ content ++ "\")".toList
      else "url(".toList ++ content ++ [')']
  | none => "url(".toList ++ inside ++ [')']

/-- The properties whose values may hold colours start with these names. -/
def colouredNames : List String :=
  ["color", "background", "border", "outline", "text-decoration", "text-shadow", "box-shadow",
    "fill", "stroke", "caret-color", "column-rule"]

/-- Whether the value of a property may hold colours. -/
def holdsColours (property : String) : Bool :=
  colouredNames.any fun name => Text.hasStart name property

/-- Whether a property is one of an application, of which nothing is known. -/
def isForeign (property : String) : Bool :=
  Text.hasStart "mso-" property || Text.hasStart "--" property

/-- The families that are named by a keyword. -/
def familyKeywords : List String :=
  ["serif", "sans-serif", "cursive", "fantasy", "monospace", "system-ui", "inherit", "initial",
    "unset", "default"]

/-- A quoted string: a family needs no quotes if its words are plain names. -/
def writeString (property : String) (word content : List Char) : List Char :=
  let isFamily := property = "font-family" || property = "font"
  let names := Text.splitAtEach (· == ' ') content
  if isFamily && names.all isPlainName && !familyKeywords.contains (String.ofList content) then
    content
  else if content.contains '"' then word
  else '"' :: content ++ ['"']

/-- A word of a value. -/
def compactWord (property : String) (word : List Char) : List Char :=
  let small := word.map Text.lowerChar
  if isForeign property then word
  else
    match unquoted? word, Quantity.read? word with
    | some content, _ => writeString property word content
    | none, some quantity => (quantity.write true).toList
    | none, none =>
        if Text.startsWith "url(".toList small then writeAddress word
        else if property = "font-weight" && small = "bold".toList then "700".toList
        else if property = "font-weight" && small = "normal".toList then "400".toList
        else
          match if holdsColours property then colourDigits? word else none with
          | some digits => (writeColour digits).toList
          | none => word

/-- Cut a value into words and the marks between them; `word` holds the word that is begun, from
the back, and `depth` counts its open parentheses. -/
def wordsFrom (depth : Nat) (quote : Option Char) (word : List Char) :
    List Char → List (List Char)
  | [] => if word.isEmpty then [] else [word.reverse]
  | c :: rest =>
      match quote with
      | some mark => wordsFrom depth (if c = mark then none else quote) (c :: word) rest
      | none =>
          if depth = 0 && (c == ' ' || c == ',' || c == '/') then
            let begun := if word.isEmpty then [] else [word.reverse]
            begun ++ [c] :: wordsFrom 0 none [] rest
          else if Css.isQuote c then wordsFrom depth (some c) (c :: word) rest
          else if c = '(' then wordsFrom (depth + 1) none (c :: word) rest
          else if c = ')' then wordsFrom (depth - 1) none (c :: word) rest
          else wordsFrom depth none (c :: word) rest

/-- The words of a value and the marks between them, without blanks around a slash. -/
def wordsOfValue (value : String) : List (List Char) :=
  let tight := Css.tighten (fun c => c == ',' || c == '/') value.toList
  wordsFrom 0 none [] tight

/-- A value in as few characters as it can be written. -/
def compactValue (property value : String) : String :=
  String.ofList ((wordsOfValue value).map (compactWord property)).flatten

end Compact
end MailPress
