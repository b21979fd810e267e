import MailPress.Scss.Expression
import MailPress.Scss.Value.Writer

/-!
# Operators on values

Sums and differences need units that measure the same, and their result has the
units of the first operand. Products and quotients combine the units. A sum with
a text joins the two.

An operator that has no result for its operands gives none.
-/

namespace MailPress
namespace Scss

/-- Combine two numbers of the same kind, in the units of the first that has some. -/
def combine? (operation : Rat → Rat → Rat) (first second : Number) : Option Number :=
  if first.isPlain then
    some { second with value := operation first.value second.value, spelling := none }
  else if second.isPlain then
    some { first with value := operation first.value second.value, spelling := none }
  else
    (second.valueIn? first).map fun value =>
      { first with value := operation first.value value, spelling := none }

/-- Compare two numbers of the same kind. -/
def compare? (holds : Rat → Rat → Bool) (first second : Number) : Option Bool :=
  if first.isPlain || second.isPlain then some (holds first.value second.value)
  else (second.valueIn? first).map fun value => holds first.value value

/-- The remainder with the sign of the divisor. -/
def remainder (value divisor : Rat) : Rat :=
  value - divisor * (value / divisor).floor

/-- Two values with a sign between them. -/
def joinWith? (sign : String) (first second : Value) : Option Value :=
  first.css?.bind fun left => second.css?.map fun right => .word (left ++ sign ++ right)

/-- Whether a value takes part in no sums of texts. -/
def isColour : Value → Bool
  | .colour _ => true
  | _ => false

/-- The sum of two values. -/
def plus? (first second : Value) : Option Value :=
  match first, second with
  | .number first, .number second => (combine? (· + ·) first second).map Value.number
  | .text left quoted, .text right _ => some (.text (left ++ right) quoted)
  | .text left quoted, other => other.css?.map fun right => .text (left ++ right) quoted
  | other, .text right quoted => other.css?.map fun left => .text (left ++ right) quoted
  | first, second =>
      if isColour first && (isColour second || second matches .number _) then none
      else joinWith? "" first second

/-- The difference of two values. -/
def minus? (first second : Value) : Option Value :=
  match first, second with
  | .number first, .number second => (combine? (· - ·) first second).map Value.number
  | first, second =>
      if isColour first && (isColour second || second matches .number _) then none
      else joinWith? "-" first second

/-- The quotient of two values. -/
def divide? (first second : Value) : Option Value :=
  match first, second with
  | .number first, .number second =>
      if second.value = 0 then none else some (.number (first.over second))
  | first, second =>
      if isColour first && (isColour second || second matches .number _) then none
      else joinWith? "/" first second

/-- Apply an operator to two values. -/
def applyOperator? (operator : BinaryOperator) (first second : Value) : Option Value :=
  match operator with
  | .assign => joinWith? "=" first second
  | .either => some (if first.isTrue then first else second)
  | .both => some (if first.isTrue then second else first)
  | .equal => some (.truth (first.same second))
  | .unequal => some (.truth !(first.same second))
  | .plus => plus? first second
  | .minus => minus? first second
  | .divide => divide? first second
  | _ =>
      match first, second with
      | .number first, .number second =>
          match operator with
          | .times => some (.number (first.times second))
          | .modulo =>
              if second.value = 0 then none
              else (combine? remainder first second).map Value.number
          | .less => (compare? (fun a b => a < b) first second).map Value.truth
          | .lessEqual => (compare? (fun a b => a ≤ b) first second).map Value.truth
          | .greater => (compare? (fun a b => b < a) first second).map Value.truth
          | _ => (compare? (fun a b => b ≤ a) first second).map Value.truth
      | _, _ => none

/-- Apply an operator in front of a value. -/
def applyUnary? (operator : UnaryOperator) (operand : Value) : Option Value :=
  match operator, operand with
  | .negation, value => some (.truth !value.isTrue)
  | .plus, .number number => some (.number number.computed)
  | .minus, .number number =>
      some (.number { number with value := -number.value, spelling := none })
  | .plus, value => value.css?.map fun text => .word ("+" ++ text)
  | .minus, value => value.css?.map fun text => .word ("-" ++ text)
  | .divide, value => value.css?.map fun text => .word ("/" ++ text)

end Scss
end MailPress
