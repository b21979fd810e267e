import MailPress.Text.Blank
import MailPress.Text.Search

/-!
# Arithmetic positions

The argument of a positional pseudo-class is a formula `an+b`, which stands for
the positions reached from `b` in steps of `a`. It is read without regard to
blanks and letter case.

Both numbers are 32-bit integers. A text with a larger one is not a formula. The
distance of a position from the offset is a 32-bit integer, too, and wraps around
where it does not fit. Dividing the least such integer by -1 has no result: it ends
the program.
-/

namespace MailPress
namespace Css

/-- A formula `an+b`. -/
structure Nth where
  /-- The step from one position to the next. -/
  step : Int
  /-- The position at which counting starts. -/
  offset : Int
  deriving DecidableEq, Repr, Inhabited

namespace Nth

/-- An integer that fits 32 bits, with an optional sign in front. -/
def readInteger (text : List Char) : Option Int :=
  let (sign, digits) :=
    match text with
    | '+' :: digits => ((1 : Int), digits)
    | '-' :: digits => (-1, digits)
    | digits => (1, digits)
  if digits.isEmpty || !digits.all Text.isAsciiDigit then none
  else
    let value := sign * (Text.decimalValue digits : Int)
    if -0x80000000 ≤ value && value < 0x80000000 then some value else none

/-- The step in front of the letter `n`. -/
def readStep (text : List Char) : Option Int :=
  if text = [] || text = ['+'] then some 1
  else if text = ['-'] then some (-1)
  else readInteger text

/-- The offset behind the letter `n`, which needs a sign. -/
def readOffset (text : List Char) : Option Int :=
  match text with
  | [] => some 0
  | c :: _ => if c = '+' || c = '-' then readInteger text else none

/-- Read a formula. -/
def read (argument : List Char) : Option Nth :=
  let text := (argument.filter (!Text.isBlank ·)).map Text.lowerChar
  if text = "odd".toList then some ⟨2, 1⟩
  else if text = "even".toList then some ⟨2, 0⟩
  else
    match Text.splitOnce ['n'] text with
    | none => (readInteger text).map fun offset => ⟨0, offset⟩
    | some (before, after) =>
        match readStep before, readOffset after with
        | some step, some offset => some ⟨step, offset⟩
        | _, _ => none

/-- The 32-bit integer that a number wraps around to. -/
def wrap (value : Int) : Int :=
  value.bmod 0x100000000

/-- How far a position, counted from 1, is ahead of the offset. -/
def distance (nth : Nth) (position : Nat) : Int :=
  wrap (wrap position - nth.offset)

/-- Whether a position is reached from the offset in whole steps forward. -/
def holds (nth : Nth) (position : Nat) : Bool :=
  if nth.step = 0 then wrap position == nth.offset
  else
    (nth.distance position).tmod nth.step == 0 && 0 ≤ (nth.distance position).tdiv nth.step

/-- Whether deciding on a position ends the program. -/
def stops (nth : Nth) (position : Nat) : Bool :=
  nth.step == -1 && nth.distance position == -0x80000000

end Nth

end Css
end MailPress
