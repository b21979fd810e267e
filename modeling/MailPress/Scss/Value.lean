import MailPress.Scss.Colour

/-!
# Values of style sheets

What an expression in a style sheet stands for: a number with units, a text with
or without quotes, a colour, a list, a map, a truth value, or nothing.

Numbers are exact. A number that was written as a quotient of two literals also
keeps that spelling, because such a quotient is printed with its slash unless
something is computed from it.
-/

namespace MailPress
namespace Scss

/-- What separates the elements of a list. -/
inductive Separator
  /-- A comma. -/
  | comma
  /-- A blank. -/
  | space
  /-- A slash. -/
  | slash
  /-- Not settled yet, as in a list with fewer than two elements. -/
  | undecided
  deriving DecidableEq, Repr, Inhabited

/-- A number with its units. -/
structure Number where
  /-- The number itself. -/
  value : Rat
  /-- The units above the line. -/
  units : List String
  /-- The units below the line. -/
  divisors : List String
  /-- The quotient it was written as. -/
  spelling : Option String
  deriving Repr, Inhabited, BEq

/-- A number without units. -/
def Number.plain (value : Rat) : Number :=
  ⟨value, [], [], none⟩

/-- The number without the quotient it was written as. -/
def Number.computed (number : Number) : Number :=
  { number with spelling := none }

/-- Whether a number has no units. -/
def Number.isPlain (number : Number) : Bool :=
  number.units.isEmpty && number.divisors.isEmpty

/-- A value. -/
inductive Value
  /-- Nothing. -/
  | null
  /-- A truth value. -/
  | truth (holds : Bool)
  /-- A number. -/
  | number (number : Number)
  /-- A colour. -/
  | colour (colour : Colour)
  /-- A text, with or without quotes. -/
  | text (content : String) (quoted : Bool)
  /-- A list. -/
  | list (elements : List Value) (separator : Separator) (bracketed : Bool)
  /-- A map, in the order of its keys' first appearance. -/
  | map (entries : List (Value × Value))
  deriving Repr, Inhabited

namespace Value

/-- A text without quotes. -/
def word (content : String) : Value :=
  .text content false

/-- Everything counts as true except `false` and nothing. -/
def isTrue : Value → Bool
  | .null => false
  | .truth holds => holds
  | _ => true

/-- A value as a list: a map is a list of pairs, and any other value a list of itself. -/
def elements : Value → List Value
  | .list elements _ _ => elements
  | .map entries => entries.map fun entry => .list [entry.1, entry.2] .space false
  | value => [value]

/-- The separator of a value as a list. -/
def separator : Value → Separator
  | .list _ separator _ => separator
  | .map entries => if entries.isEmpty then .undecided else .comma
  | _ => .undecided

/-- The entries of a map; the empty list is an empty map. -/
def entries? : Value → Option (List (Value × Value))
  | .map entries => some entries
  | .list [] _ _ => some []
  | _ => none

/-- The value without the quotient it was written as. -/
def computed : Value → Value
  | .number amount => .number amount.computed
  | value => value

end Value

/-- The units that measure one quantity, each with its size. -/
def unitFamilies : List (List (String × Rat)) :=
  [[("px", 1), ("in", 96), ("cm", 4800 / 127), ("mm", 480 / 127), ("q", 120 / 127),
      ("pt", 4 / 3), ("pc", 16)],
    [("deg", 1), ("grad", 9 / 10), ("turn", 360)],
    [("s", 1), ("ms", 1 / 1000)],
    [("hz", 1), ("khz", 1000)],
    [("dpi", 1), ("dpcm", 127 / 50), ("dppx", 96)]]

/-- By what a number grows when it goes from one unit to another. -/
def unitRatio? (source target : String) : Option Rat :=
  if source = target then some 1
  else
    unitFamilies.findSome? fun family =>
      match family.lookup (Text.lower source), family.lookup (Text.lower target) with
      | some size, some other => some (size / other)
      | _, _ => none

/-- Take the first unit that can be turned into `target` off a list, with the growth. -/
def takeUnit? (target : String) : List String → Option (Rat × List String)
  | [] => none
  | unit :: units =>
      match unitRatio? unit target with
      | some ratio => some (ratio, units)
      | none => (takeUnit? target units).map fun found => (found.1, unit :: found.2)

/-- The growth from units to others that measure the same. -/
def growth? : (source target : List String) → Option Rat
  | [], [] => some 1
  | _ :: _, [] => none
  | source, unit :: target =>
      (takeUnit? unit source).bind fun found =>
        (growth? found.2 target).map (found.1 * ·)

/-- The value of a number in the units of another, where both measure the same. -/
def Number.valueIn? (number target : Number) : Option Rat :=
  (growth? number.units target.units).bind fun above =>
    (growth? number.divisors target.divisors).map fun below => number.value * above / below

/-- Cancel the units below the line against those above it. -/
def cancelUnits (value : Rat) (units : List String) : List String → Number
  | [] => ⟨value, units, [], none⟩
  | divisor :: divisors =>
      match takeUnit? divisor units with
      | some (ratio, rest) => cancelUnits (value * ratio) rest divisors
      | none =>
          let number := cancelUnits value units divisors
          { number with divisors := divisor :: number.divisors }

/-- The product of two numbers. -/
def Number.times (first second : Number) : Number :=
  cancelUnits (first.value * second.value) (first.units ++ second.units)
    (first.divisors ++ second.divisors)

/-- The quotient of two numbers. -/
def Number.over (first second : Number) : Number :=
  cancelUnits (first.value / second.value) (first.units ++ second.divisors)
    (first.divisors ++ second.units)

/-- Two numbers that denote the same amount. -/
def Number.same (first second : Number) : Bool :=
  if first.isPlain != second.isPlain then false
  else first.valueIn? second == some second.value

mutual

/-- Two values that are equal: quotes and spellings do not count. -/
def Value.same : Value → Value → Bool
  | .null, .null => true
  | .truth first, .truth second => first == second
  | .number first, .number second => first.same second
  | .colour first, .colour second => first.same second
  | .text first _, .text second _ => first == second
  | .list first separator bracketed, .list second separator' bracketed' =>
      sameElements first second && bracketed == bracketed' &&
        (separator == separator' || first.isEmpty)
  | .map first, .map second => first.length == second.length && sameEntries first second
  | .map [], .list [] _ _ => true
  | .list [] _ _, .map [] => true
  | _, _ => false

/-- Lists whose elements are equal one by one. -/
def sameElements : List Value → List Value → Bool
  | [], [] => true
  | first :: firsts, second :: seconds => first.same second && sameElements firsts seconds
  | _, _ => false

/-- Maps of which the second holds every entry of the first. -/
def sameEntries : List (Value × Value) → List (Value × Value) → Bool
  | [], _ => true
  | (key, value) :: rest, others =>
      (others.any fun other => key.same other.1 && value.same other.2) && sameEntries rest others

end

/-- The value that a map holds for a key. -/
def lookupKey? (key : Value) (entries : List (Value × Value)) : Option Value :=
  (entries.find? fun entry => entry.1.same key).map Prod.snd

/-- Put a value under a key, at its old place or at the end. -/
def putKey (key value : Value) : List (Value × Value) → List (Value × Value)
  | [] => [(key, value)]
  | entry :: rest =>
      if entry.1.same key then (entry.1, value) :: rest else entry :: putKey key value rest

end Scss
end MailPress
