import MailPress.Scss.Value.Writer
import MailPress.Text.Search

/-!
# Calculations

The argument of `calc` is worked out as far as its units allow. What mixes units
that cannot be turned into one another stays as it is, with the parentheses that
the operators need.
-/

namespace MailPress
namespace Scss

/-- The operators of a calculation. -/
inductive CalculationSign
  /-- A sum. -/
  | plus
  /-- A difference. -/
  | minus
  /-- A product. -/
  | times
  /-- A quotient. -/
  | divide
  deriving DecidableEq, Repr

/-- A part of a calculation. -/
inductive Calculation
  /-- A number. -/
  | amount (number : Number)
  /-- Text that is left as it is. -/
  | words (content : String)
  /-- Two parts with an operator between them. -/
  | pair (sign : CalculationSign) (left right : Calculation)
  deriving Repr, Inhabited

namespace CalculationSign

/-- How an operator is written. -/
def write : CalculationSign → String
  | .plus => " + "
  | .minus => " - "
  | .times => " * "
  | .divide => " / "

/-- Whether an operator is a sum or a difference. -/
def isSum : CalculationSign → Bool
  | .plus | .minus => true
  | _ => false

end CalculationSign

namespace Calculation

/-- Whether the part is a sum or a difference. -/
def isSum : Calculation → Bool
  | .pair sign _ _ => sign.isSum
  | _ => false

/-- Whether the part has an operator. -/
def isPair : Calculation → Bool
  | .pair _ _ _ => true
  | _ => false

/-- A text in parentheses where they are needed. -/
def guarded (needed : Bool) (text : String) : String :=
  if needed then "(" ++ text ++ ")" else text

/-- The text of a calculation. -/
def write? : Calculation → Option String
  | .amount number => number.write?
  | .words content => some content
  | .pair sign left right => do
      let first ← left.write?
      let second ← right.write?
      let first := guarded (!sign.isSum && left.isSum) first
      let second := guarded
        (match sign with
        | .plus => false
        | .minus => right.isSum
        | .times => right.isSum
        | .divide => right.isPair)
        second
      return first ++ sign.write ++ second

/-- Work out two parts with an operator between them, as far as it goes. -/
def join (sign : CalculationSign) (left right : Calculation) : Calculation :=
  match left, right with
  | .amount first, .amount second =>
      match sign with
      | .plus | .minus =>
          match second.valueIn? first with
          | some value =>
              let result := if sign = .plus then first.value + value else first.value - value
              .amount { first with value := result, spelling := none }
          | none =>
              if second.value < 0 then
                .pair (if sign = .plus then .minus else .plus) left
                  (.amount { second with value := -second.value, spelling := none })
              else .pair sign left right
      | .times => .amount (first.times second)
      | .divide =>
          if second.value = 0 then .pair sign left right else .amount (first.over second)
  | _, _ => .pair sign left right

/-- The value of a whole calculation. -/
def value? (calculation : Calculation) : Option Value :=
  match calculation with
  | .amount number => some (.number number)
  | _ => calculation.write?.map fun text => .word ("calc(" ++ text ++ ")")

/-- A value as a part of a calculation. -/
def ofValue? (value : Value) : Option Calculation :=
  match value with
  | .number number => some (.amount number.computed)
  | .text content false =>
      match Text.dropStart? "calc(".toList content.toList with
      | some rest => some (.words (String.ofList ('(' :: rest)))
      | none => some (.words content)
  | _ => none

end Calculation

end Scss
end MailPress
