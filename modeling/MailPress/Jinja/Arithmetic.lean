import MailPress.Jinja.Value
import MailPress.Text.Search

/-!
# Operators in templates

Integers are kept within 127 bits and a sign. A quotient always has a fraction,
and the quotient and remainder without one are those whose remainder is not
negative. Texts and lists can be joined and repeated.

An operator that has no result for its operands gives none.
-/

namespace MailPress
namespace Jinja

/-- An integer as a value, unless it is too large. -/
def ofInteger? (value : Int) : Option Value :=
  let bound := 0x80000000000000000000000000000000
  if -bound ≤ value ∧ value < bound then some (.integer value) else none

/-- Whether a value is a number with a fraction. -/
def isReal : Value → Bool
  | .real _ => true
  | _ => false

/-- Two numbers: as integers when both are. -/
inductive Numbers
  /-- Two integers. -/
  | integers (first second : Int)
  /-- Two floats. -/
  | floats (first second : Float)

/-- Two values as numbers of one kind. -/
def numbers? (first second : Value) : Option Numbers :=
  if isReal first || isReal second then
    match first.float?, second.float? with
    | some first, some second => some (.floats first second)
    | _, _ => none
  else
    match first.integer?, second.integer? with
    | some first, some second => some (.integers first second)
    | _, _ => none

/-- A float without its fraction. -/
def truncate (value : Float) : Float :=
  if value < 0 then value.ceil else value.floor

/-- The remainder with the sign of the dividend. -/
def floatRemainder (first second : Float) : Float :=
  first - second * truncate (first / second)

/-- The quotient without a fraction whose remainder is not negative. -/
def floatQuotient (first second : Float) : Float :=
  let quotient := truncate (first / second)
  if floatRemainder first second < 0 then
    if 0 < second then quotient - 1 else quotient + 1
  else quotient

/-- A text or a list so many times in a row. -/
def repeat? (value : Value) (count : Int) : Option Value :=
  if count < 0 then none
  else
    match value with
    | .text content _ => some (.plain (String.join (List.replicate count.toNat content)))
    | .list elements => some (.list (List.replicate count.toNat elements).flatten)
    | _ => none

/-- The sum of two values. -/
def plus? (first second : Value) : Option Value :=
  match first, second with
  | .list first, .list second => some (.list (first ++ second))
  | .text first _, .text second _ => some (.plain (first ++ second))
  | _, _ =>
      (numbers? first second).bind fun numbers =>
        match numbers with
        | .integers first second => ofInteger? (first + second)
        | .floats first second => some (.real (first + second))

/-- The difference of two values. -/
def minus? (first second : Value) : Option Value :=
  (numbers? first second).bind fun numbers =>
    match numbers with
    | .integers first second => ofInteger? (first - second)
    | .floats first second => some (.real (first - second))

/-- The product of two values. -/
def times? (first second : Value) : Option Value :=
  match first, second with
  | .text _ _, count | .list _, count => count.integer?.bind (repeat? first)
  | count, .text _ _ | count, .list _ => count.integer?.bind (repeat? second)
  | _, _ =>
      (numbers? first second).bind fun numbers =>
        match numbers with
        | .integers first second => ofInteger? (first * second)
        | .floats first second => some (.real (first * second))

/-- The quotient of two values. -/
def divide? (first second : Value) : Option Value :=
  match first.float?, second.float? with
  | some first, some second => some (.real (first / second))
  | _, _ => none

/-- The quotient of two values without a fraction. -/
def divideWhole? (first second : Value) : Option Value :=
  (numbers? first second).bind fun numbers =>
    match numbers with
    | .integers first second => if second = 0 then none else ofInteger? (first / second)
    | .floats first second => some (.real (floatQuotient first second))

/-- The remainder of two values. -/
def modulo? (first second : Value) : Option Value :=
  (numbers? first second).bind fun numbers =>
    match numbers with
    | .integers first second => if second = 0 then none else ofInteger? (first % second)
    | .floats first second => some (.real (floatRemainder first second))

/-- The power of two values. -/
def power? (first second : Value) : Option Value :=
  (numbers? first second).bind fun numbers =>
    match numbers with
    | .integers first second =>
        if second < 0 ∨ 1000 < second then none else ofInteger? (Int.pow first second.toNat)
    | .floats first second => some (.real (first ^ second))

/-- The opposite of a number. -/
def negative? (value : Value) : Option Value :=
  match value with
  | .integer value => ofInteger? (-value)
  | .real value => some (.real (-value))
  | _ => none

/-- Whether a value holds another one: a text a stretch, a list an element, a map a key. -/
def holds? (container value : Value) : Option Bool :=
  match container with
  | .undefined => some false
  | .text content _ => some (Text.holds value.display content)
  | .list elements => some (elements.any value.same)
  | .map entries => some (Value.lookupKey? value entries).isSome
  | _ => none

/-- Apply an operator to two values. -/
def applyOperator? (operator : Operator) (first second : Value) : Option Value :=
  let ordered := fun (accepts : Ordering → Bool) =>
    some (Value.truth (accepts (first.compare second)))
  match operator with
  | .either => some (if first.isTrue then first else second)
  | .both => some (if first.isTrue then second else first)
  | .equal => some (.truth (first.same second))
  | .unequal => some (.truth !(first.same second))
  | .less => ordered (· == .lt)
  | .lessEqual => ordered (· != .gt)
  | .greater => ordered (· == .gt)
  | .greaterEqual => ordered (· != .lt)
  | .within => (holds? second first).map Value.truth
  | .plus => plus? first second
  | .minus => minus? first second
  | .join => some (.plain (first.display ++ second.display))
  | .times => times? first second
  | .divide => divide? first second
  | .divideWhole => divideWhole? first second
  | .modulo => modulo? first second
  | .power => power? first second

/-- A member of a value, by its name. -/
def memberOf? (owner : Value) (name : String) : Option Value :=
  match owner with
  | .undefined => none
  | .map entries => some ((Value.lookupKey? (.plain name) entries).getD .undefined)
  | .loop _ state _ => some ((state.lookup name).getD .undefined)
  | _ => some .undefined

/-- The place that an index names; from the back when it is negative. -/
def placeOf? (length : Nat) (index : Int) : Option Nat :=
  if 0 ≤ index then some index.toNat
  else if index.natAbs ≤ length then some (length - index.natAbs)
  else none

/-- An element of a value. -/
def itemOf? (owner key : Value) : Option Value :=
  let element := fun (elements : List Value) =>
    ((key.integer?.bind (placeOf? elements.length)).bind fun place =>
      elements[place]?).getD .undefined
  match owner with
  | .undefined => none
  | .map entries => some ((Value.lookupKey? key entries).getD .undefined)
  | .list elements => some (element elements)
  | .text content _ =>
      some (element (content.toList.map fun c => .plain (String.singleton c)))
  | .loop _ _ _ => memberOf? owner key.display
  | _ => some .undefined

/-- Every so manieth element, from the first one on. -/
def everyNth (step : Nat) : (skip : Nat) → List Value → List Value
  | _, [] => []
  | skip + 1, _ :: rest => everyNth step skip rest
  | 0, element :: rest => element :: everyNth step (step - 1) rest

/-- A bound of a slice, brought into the length. -/
def sliceBound (length : Nat) (bound : Int) : Nat :=
  if bound < 0 then length - bound.natAbs else min length bound.toNat

/-- The elements between two bounds, in steps. -/
def sliceElements (elements : List Value) (start stop : Option Int) (step : Int) : List Value :=
  let length := elements.length
  if 0 < step then
    let first := sliceBound length (start.getD 0)
    let last := sliceBound length (stop.getD length)
    everyNth step.toNat 0 ((elements.take last).drop first)
  else
    let first := match start with
      | some start => if start < 0 then length - start.natAbs + 1 else min length (start.toNat + 1)
      | none => length
    let last := match stop with
      | some stop => if stop < 0 then length - stop.natAbs + 1 else min length (stop.toNat + 1)
      | none => 0
    everyNth step.natAbs 0 ((elements.take first).drop last).reverse

/-- A stretch of a value. -/
def sliceOf? (owner : Value) (start stop step : Value) : Option Value := do
  let bound := fun (value : Value) =>
    match value with
    | .undefined | .none => some none
    | value => value.integer?.map some
  let start ← bound start
  let stop ← bound stop
  let step := (← bound step).getD 1
  if step = 0 then none
  else
    match owner with
    | .undefined | .none => some (.list [])
    | .list elements => some (.list (sliceElements elements start stop step))
    | .text content _ =>
        let characters := content.toList.map fun c => Value.plain (String.singleton c)
        some (.plain (String.join ((sliceElements characters start stop step).map Value.display)))
    | _ => none

end Jinja
end MailPress
