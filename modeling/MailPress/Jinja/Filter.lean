import MailPress.Jinja.Arithmetic
import MailPress.Text.Blank
import MailPress.Text.LetterCase
import MailPress.Text.Search

/-!
# Filters and tests

A filter turns a value into another one, and a test answers whether something
holds of a value. Both are known by name and take arguments, by position or by
name.

Some filters apply another filter or a test to each element of a list. They take
a bound on how often that is nested.
-/

namespace MailPress
namespace Jinja

/-- The arguments of a filter, a test or a function. -/
structure Arguments where
  /-- The arguments by position. -/
  positional : List Value
  /-- The arguments by name. -/
  named : List (String × Value)

namespace Arguments

/-- No arguments. -/
def none : Arguments :=
  ⟨[], []⟩

/-- The argument at a position or with a name. -/
def get? (arguments : Arguments) (position : Nat) (name : String) : Option Value :=
  match arguments.positional[position]? with
  | some value => some value
  | .none => arguments.named.lookup name

/-- The arguments without the first ones. -/
def drop (arguments : Arguments) (count : Nat) : Arguments :=
  { arguments with positional := arguments.positional.drop count }

end Arguments

/-- How a character of a text stands in markup. -/
def escapeChar (c : Char) : List Char :=
  if c = '<' then "&lt;".toList
  else if c = '>' then "&gt;".toList
  else if c = '&' then "&amp;".toList
  else if c = '"' then "&quot;".toList
  else if c = '\'' then "&#x27;".toList
  else if c = '/' then "&#x2f;".toList
  else [c]

/-- The text of a value for markup; a safe text is not changed. -/
def escapeValue : Value → String
  | .text content true => content
  | value => String.ofList (value.display.toList.flatMap escapeChar)

/-- The value at a dotted path: members by name, elements by index. -/
def atPath (value : Value) (path : String) : Value :=
  ((Text.splitAtEach (· == '.') path.toList).foldl
    (fun current part =>
      current.bind fun current =>
        if !part.isEmpty && part.all Text.isAsciiDigit then
          itemOf? current (.integer (Text.decimalValue part))
        else memberOf? current (String.ofList part))
    (some value)).getD .undefined

/-- A value for comparison, its letters made small unless case counts. -/
def caseKey (caseSensitive : Bool) : Value → Value
  | .text content isSafe => .text (if caseSensitive then content else Text.toSmall content) isSafe
  | value => value

/-- Sort values by keys. -/
def sortBy (key : Value → Value) (isReverse : Bool) (values : List Value) : List Value :=
  let sorted := values.mergeSort fun first second =>
    (if isReverse then (key second).compare (key first) else (key first).compare (key second))
      != .gt
  sorted

/-- The values whose keys did not occur before. -/
def uniqueBy (key : Value → Value) : (seen : List Value) → List Value → List Value
  | _, [] => []
  | seen, value :: values =>
      if seen.any (key value).same then uniqueBy key seen values
      else value :: uniqueBy key (key value :: seen) values

/-- Cut a list into lists of a length; `limit` bounds their number. -/
def chunks (size : Nat) : (limit : Nat) → List Value → List (List Value)
  | 0, _ => []
  | _, [] => []
  | limit + 1, values => values.take size :: chunks size limit (values.drop size)

/-- Fill a list up to a length. -/
def fillTo (size : Nat) (filler : Option Value) (values : List Value) : List Value :=
  match filler with
  | some filler => values ++ List.replicate (size - values.length) filler
  | none => values

/-- Cut a list into a number of lists, the first ones longer where needed. -/
def columns (values : List Value) (filler : Option Value) (count : Nat) :
    (place : Nat) → List (List Value)
  | 0 => []
  | place + 1 =>
      let size := values.length / count
      let extra := values.length % count
      let index := count - (place + 1)
      let start := index * size + min index extra
      let own := size + (if index < extra then 1 else 0)
      let column := (values.drop start).take own
      let filled := if extra ≠ 0 ∧ extra ≤ index then fillTo (size + 1) filler column else column
      filled :: columns values filler count place

/-- Group sorted values by their keys. -/
def groupBy (key : Value → Value) : List Value → List (Value × List Value)
  | [] => []
  | value :: values =>
      match groupBy key values with
      | (other, members) :: groups =>
          if (key value).same other then (other, value :: members) :: groups
          else (key value, [value]) :: (other, members) :: groups
      | [] => [(key value, [value])]

/-- The words of a text with their first letters capital and the others small. -/
def titleCase : (atStart : Bool) → List Char → List Char
  | _, [] => []
  | atStart, c :: rest =>
      let isPunctuation :=
        Text.isAscii c && !Text.isAsciiAlphanumeric c && 32 < c.toNat && c.toNat < 127
      if isPunctuation || Text.isBlank c then c :: titleCase true rest
      else if atStart then Text.capitalLetters c ++ titleCase false rest
      else Text.smallLetter c :: titleCase false rest

/-- The lines of a text. -/
def linesOf (text : List Char) : List (List Char) :=
  let lines := Text.splitAtEach (· == '\n') text
  let lines := if lines.getLast? == some [] then lines.dropLast else lines
  lines.map fun line => if line.getLast? == some '\r' then line.dropLast else line

/-- Cut a text at a separator, at most so many times. -/
def splitAtText (separator : List Char) : (limit : Nat) → List Char → List (List Char)
  | 0, text => [text]
  | limit + 1, text =>
      match Text.splitOnce separator text with
      | some (before, after) => before :: splitAtText separator limit after
      | none => [text]

/-- Cut a text at blanks, at most so many times. -/
def splitAtBlanks : (limit : Nat) → List Char → List (List Char)
  | 0, text =>
      let text := Text.trimStart text
      if text.isEmpty then [] else [text]
  | limit + 1, text =>
      let text := Text.trimStart text
      if text.isEmpty then []
      else
        let isPart := fun c => !Text.isBlank c
        text.takeWhile isPart :: splitAtBlanks limit (text.dropWhile isPart)

/-- Indent the lines of a text. -/
def indentLines (text : String) (width : Nat) (isFirst isBlank : Bool) : String :=
  let lines := Text.splitAtEach (· == '\n') text.toList
  let lines := if lines.getLast? == some [] && 1 < lines.length then lines.dropLast else lines
  let margin := List.replicate width ' '
  let indented := (lines.zipIdx).map fun (line, place) =>
    if place = 0 then (if isFirst then margin ++ line else line)
    else if line.isEmpty && !isBlank then line
    else margin ++ line
  String.ofList (['\n'].intercalate indented)

/-- The number that a text denotes. -/
def readReal? (text : String) : Option Float :=
  let characters := Text.trim text.toList
  let (isNegative, digits) := match characters with
    | '-' :: rest => (true, rest)
    | '+' :: rest => (false, rest)
    | rest => (false, rest)
  let whole := digits.takeWhile Text.isAsciiDigit
  let rest := digits.dropWhile Text.isAsciiDigit
  let (fraction, rest) := match rest with
    | '.' :: more => (more.takeWhile Text.isAsciiDigit, more.dropWhile Text.isAsciiDigit)
    | more => ([], more)
  if whole.isEmpty && fraction.isEmpty then none
  else
    let exponent : Option Int := match rest with
      | [] => some 0
      | c :: more =>
          if c = 'e' || c = 'E' then
            let (isSmall, digits) := match more with
              | '-' :: digits => (true, digits)
              | '+' :: digits => (false, digits)
              | digits => (false, digits)
            if digits.isEmpty || !digits.all Text.isAsciiDigit then none
            else
              let size : Int := Text.decimalValue digits
              some (if isSmall then -size else size)
          else none
    exponent.map fun exponent =>
      let shift : Int := exponent - (fraction.length : Int)
      let value := Float.ofScientific (Text.decimalValue (whole ++ fraction)) (shift < 0)
        shift.natAbs
      if isNegative then -value else value

/-- The integer that a text denotes. -/
def readInteger? (text : String) : Option Int :=
  let (isNegative, digits) := match Text.trim text.toList with
    | '-' :: rest => (true, rest)
    | '+' :: rest => (false, rest)
    | rest => (false, rest)
  if digits.isEmpty || !digits.all Text.isAsciiDigit then none
  else
    let size : Int := Text.decimalValue digits
    some (if isNegative then -size else size)

/-- A float without its fraction as an integer. -/
def integerOfFloat? (value : Float) : Option Int :=
  (Value.real (truncate value)).integer?

/-- Round a number to so many places. -/
def roundTo (value : Float) (places : Int) : Float :=
  let scale := (10.0 : Float) ^ (Float.ofInt places)
  (value * scale).round / scale

/-- The sum of some values. -/
def sumOf? (values : List Value) : Option Value :=
  values.foldlM plus? (.integer 0)

/-- The texts of values joined. -/
def joinTexts (separator : String) (values : List Value) : Value :=
  .plain (String.intercalate separator (values.map Value.display))

/-- The greatest value, by an order. -/
def best? (isBetter : Value → Value → Bool) : List Value → Value
  | [] => .undefined
  | value :: values =>
      values.foldl (fun best value => if isBetter value best then value else best) value

/-- A flag among the arguments. -/
def flag (arguments : Arguments) (position : Nat) (name : String) (fallback : Bool) : Bool :=
  ((arguments.get? position name).map Value.isTrue).getD fallback

/-- A flag among the arguments by name; down by default. -/
def namedFlag (arguments : Arguments) (name : String) : Bool :=
  ((arguments.named.lookup name).map Value.isTrue).getD false

/-- Whether something holds of a value. None when there is no such test, or it has no answer. -/
def applyTest? (name : String) (value : Value) (arguments : Arguments) : Option Bool :=
  let other := arguments.positional[0]?
  let ordered := fun (accepts : Ordering → Bool) =>
    other.map fun other => accepts (value.compare other)
  let ofTexts := fun (holds : String → String → Bool) =>
    match value, other with
    | .text first _, some (.text second _) => some (holds first second)
    | _, some _ => some false
    | _, none => none
  match name with
  | "undefined" => some (value matches .undefined)
  | "defined" => some !(value matches .undefined)
  | "none" => some (value matches .none)
  | "true" => some (value matches .truth true)
  | "false" => some (value matches .truth false)
  | "boolean" => some (value matches .truth _)
  | "odd" => value.integer?.map fun number => number % 2 != 0
  | "even" => value.integer?.map fun number => number % 2 == 0
  | "divisibleby" =>
      other.bind fun other =>
        match numbers? value other with
        | some (.integers number divisor) => some (divisor != 0 && number % divisor == 0)
        | some (.floats number divisor) => some (floatRemainder number divisor == 0)
        | none => some false
  | "number" => some (value matches .integer _ | .real _)
  | "integer" | "int" => some (value matches .integer _)
  | "float" => some (value matches .real _)
  | "string" => some (value matches .text _ _)
  | "sequence" => some (value matches .list _)
  | "mapping" => some (value matches .map _)
  | "iterable" => some value.elements?.isSome
  | "startingwith" => ofTexts fun text start => Text.hasStart start text
  | "endingwith" => ofTexts fun text stop => Text.hasEnd stop text
  | "lower" => some (value.display = Text.toSmall value.display)
  | "upper" => some (value.display = Text.toCapitals value.display)
  | "sameas" => other.map fun other => value.rank == other.rank && value.same other
  | "eq" | "equalto" => other.map value.same
  | "ne" => other.map fun other => !value.same other
  | "lt" | "lessthan" => ordered (· == .lt)
  | "le" => ordered (· != .gt)
  | "gt" | "greaterthan" => ordered (· == .gt)
  | "ge" => ordered (· != .lt)
  | "in" => other.map fun other => (holds? other value).getD false
  | "safe" | "escaped" => some (value matches .text _ true)
  | _ => none

/-- The filters that do not apply others. None when there is no such filter, or it has no
result. -/
def applySimple? (name : String) (value : Value) (arguments : Arguments) : Option Value :=
  let text := value.display
  let argument := arguments.get?
  let argumentText := fun position name => (argument position name).map Value.display
  let caseSensitive := namedFlag arguments "case_sensitive"
  let keyOf := fun (value : Value) =>
    match arguments.named.lookup "attribute" with
    | some path => caseKey caseSensitive (atPath value path.display)
    | none => caseKey caseSensitive value
  match name with
  | "safe" => some (.text text true)
  | "escape" | "e" => some (.text (escapeValue value) true)
  | "lower" => some (.plain (Text.toSmall text))
  | "upper" => some (.plain (Text.toCapitals text))
  | "title" => some (.plain (String.ofList (titleCase true text.toList)))
  | "capitalize" =>
      some (.plain (match text.toList with
        | [] => ""
        | c :: rest => String.ofList (Text.capitalLetters c ++ rest.map Text.smallLetter)))
  | "replace" => do
      let old ← argumentText 0 "from"
      let new ← argumentText 1 "to"
      return .plain (if old.isEmpty then
          String.ofList (text.toList.foldr (fun c rest => new.toList ++ c :: rest) new.toList)
        else Text.substitute old new text)
  | "trim" =>
      match argumentText 0 "chars" with
      | some dropped =>
          let isDropped := fun c => dropped.toList.contains c
          some (.plain (String.ofList
            (Text.trimEndOf isDropped (Text.trimStartOf isDropped text.toList))))
      | none => some (.plain (Text.trimmed text))
  | "split" =>
      let limit := (((argument 1 "maxsplits").bind Value.integer?).map Int.toNat).getD text.length
      let pieces := match argument 0 "sep" with
        | none | some .none | some .undefined => splitAtBlanks limit text.toList
        | some separator =>
            if separator.display.isEmpty then [text.toList]
            else splitAtText separator.display.toList limit text.toList
      some (.list (pieces.map fun piece => .plain (String.ofList piece)))
  | "lines" => some (.list ((linesOf text.toList).map fun line => .plain (String.ofList line)))
  | "abs" =>
      match value with
      | .integer number => some (.integer number.natAbs)
      | .real number => some (.real number.abs)
      | _ => none
  | "attr" => (argument 0 "name").map fun key => (itemOf? value key).getD .undefined
  | "round" =>
      let places := ((argument 0 "precision").bind Value.integer?).getD 0
      match value with
      | .integer number => some (.integer number)
      | .real number => some (.real (roundTo number places))
      | _ => none
  | "int" =>
      match value with
      | .undefined | .none => some (.integer 0)
      | .text content _ =>
          match readInteger? content with
          | some number => some (.integer number)
          | none =>
              match (readReal? content).bind integerOfFloat? with
              | some number => some (.integer number)
              | none => argument 0 "default"
      | .real number => (integerOfFloat? number).map Value.integer
      | other => other.integer?.map Value.integer
  | "float" =>
      match value with
      | .undefined | .none => some (.real 0)
      | .text content _ =>
          match readReal? content with
          | some number => some (.real number)
          | none => argument 0 "default"
      | other => other.float?.map Value.real
  | "bool" => some (.truth value.isTrue)
  | "string" => some (if value matches .text _ _ then value else .plain text)
  | "list" => value.elements?.map Value.list
  | "length" | "count" => value.length?.map fun length => .integer length
  | "first" => value.elements?.map fun elements => elements.headD .undefined
  | "last" =>
      match value with
      | .text _ _ | .list _ => value.elements?.map fun elements => elements.getLastD .undefined
      | _ => none
  | "min" => value.elements?.map (best? fun value best => value.compare best == .lt)
  | "max" => value.elements?.map (best? fun value best => value.compare best == .gt)
  | "sort" =>
      value.elements?.map fun elements =>
        .list (sortBy keyOf (namedFlag arguments "reverse") elements)
  | "unique" =>
      value.elements?.map fun elements =>
        .list (uniqueBy keyOf [] elements)
  | "reverse" =>
      match value with
      | .text content _ => some (.plain (String.ofList content.toList.reverse))
      | other => other.elements?.map fun elements => .list elements.reverse
  | "join" =>
      match value with
      | .undefined | .none => some (.plain "")
      | other =>
          other.elements?.map (joinTexts ((argumentText 0 "joiner").getD ""))
  | "items" =>
      match value with
      | .map entries => some (.list (entries.map fun entry => .list [entry.1, entry.2]))
      | _ => none
  | "dictsort" =>
      match value with
      | .map entries =>
          let byValue := (arguments.named.lookup "by").any fun key => key.display = "value"
          let key := fun (pair : Value) =>
            (itemOf? pair (.integer (if byValue then 1 else 0))).getD .undefined
          some (.list (sortBy (fun pair => caseKey caseSensitive (key pair))
            (namedFlag arguments "reverse")
            (entries.map fun entry => .list [entry.1, entry.2])))
      | _ => none
  | "default" | "d" =>
      let isMissing := value matches .undefined
      if isMissing || (flag arguments 1 "lax" (flag arguments 1 "boolean" false) && !value.isTrue)
      then some ((argument 0 "default_value").getD (.plain ""))
      else some value
  | "indent" => do
      let width ← (← argument 0 "width").integer?
      return .plain (indentLines text width.toNat
        (flag arguments 1 "first" false) (flag arguments 2 "blank" false))
  | "batch" => do
      let count ← (← argument 0 "count").integer?
      let elements ← value.elements?
      if count ≤ 0 then none
      else
        let filler := argument 1 "fill_with"
        return .list ((chunks count.toNat elements.length elements).map fun chunk =>
          .list (fillTo count.toNat filler chunk))
  | "slice" => do
      let count ← (← argument 0 "count").integer?
      let elements ← value.elements?
      if count ≤ 0 then none
      else
        return .list ((columns elements (argument 1 "fill_with") count.toNat count.toNat).map
          Value.list)
  | "sum" => value.elements?.bind sumOf?
  | "groupby" => do
      let path ← argumentText 0 "attribute"
      let elements ← value.elements?
      let missing := (argument 1 "default").getD .undefined
      let key := fun (value : Value) =>
        match atPath value path with
        | .undefined => missing
        | found => found
      let sorted := sortBy (fun value => caseKey caseSensitive (key value)) false elements
      return .list ((groupBy key sorted).map fun group => .list [group.1, .list group.2])
  | "chain" => do
      let lists ← (value :: arguments.positional).mapM Value.elements?
      return .list lists.flatten
  | "zip" => do
      let lists ← (value :: arguments.positional).mapM Value.elements?
      let size := (lists.map List.length).foldl min (lists.headD []).length
      return .list ((List.range size).map fun place =>
        .list (lists.map fun elements => elements.getD place .undefined))
  | "pprint" => some (.plain value.inspect)
  | _ => none

/-- Apply a filter. None when there is no such filter, or it has no result. -/
def applyFilter? : (bound : Nat) → String → Value → Arguments → Option Value
  | 0, _, _, _ => none
  | bound + 1, name, value, arguments =>
      let accepts := fun (rest : Arguments) (value : Value) =>
        match rest.positional with
        | [] => some value.isTrue
        | test :: _ => applyTest? test.display value (rest.drop 1)
      let choose := fun (keep : Bool) (part : Value → Value) (rest : Arguments) =>
        match value with
        | .undefined | .none => some (.list [])
        | _ => do
            let elements ← value.elements?
            let answers ← elements.mapM fun element => accepts rest (part element)
            return Value.list ((elements.zip answers).filterMap fun (element, answer) =>
              if answer == keep then some element else none)
      match name with
      | "select" => choose true id arguments
      | "reject" => choose false id arguments
      | "selectattr" | "rejectattr" =>
          match arguments.positional with
          | path :: _ =>
              choose (name == "selectattr") (fun value => atPath value path.display)
                (arguments.drop 1)
          | [] => none
      | "map" =>
          match arguments.named.lookup "attribute", arguments.positional with
          | some path, _ => do
              let elements ← value.elements?
              let missing := (arguments.named.lookup "default").getD .undefined
              return .list (elements.map fun element =>
                match atPath element path.display with
                | .undefined => missing
                | found => found)
          | none, filter :: _ => do
              let elements ← value.elements?
              return .list (← elements.mapM fun element =>
                applyFilter? bound filter.display element (arguments.drop 1))
          | none, [] => none
      | _ => applySimple? name value arguments

end Jinja
end MailPress
