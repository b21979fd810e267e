/-!
# Shortest decimals

A binary floating-point number is written with the fewest decimal digits that
read back as the same number. The number is taken apart into an integer times a
power of two, and the decimals of one, two, and up to seventeen digits are tried
against the interval of reals that round to it.

How the digits are laid out is a separate choice, made by a `Layout`: where
positional digits end and an exponent begins.
-/

namespace MailPress
namespace Decimal

/-- A finite binary number: `mantissa * 2 ^ exponent`, with its sign. -/
structure Binary where
  /-- Whether the sign bit is set. -/
  negative : Bool
  /-- The integer that is scaled. -/
  mantissa : Nat
  /-- The power of two that scales it. -/
  exponent : Int
  deriving DecidableEq, Repr

/-- A power of two. -/
def twoTo (exponent : Nat) : Nat :=
  Nat.pow 2 exponent

/-- A power of ten. -/
def tenTo (exponent : Nat) : Nat :=
  Nat.pow 10 exponent

/-- Take a 64-bit float apart; infinities and the undefined value have no parts. -/
def Binary.ofBits? (bits : UInt64) : Option Binary :=
  let word := bits.toNat
  let negative := word / twoTo 63 == 1
  let biased : Nat := word / twoTo 52 % 2048
  let fraction : Nat := word % twoTo 52
  if biased = 2047 then none
  else if biased = 0 then some ⟨negative, fraction, -1074⟩
  else some ⟨negative, fraction + twoTo 52, (biased : Int) - 1075⟩

/-- A decimal: `digits * 10 ^ exponent`. -/
structure Scaled where
  /-- The integer that is scaled. -/
  digits : Nat
  /-- The power of ten that scales it. -/
  exponent : Int
  deriving DecidableEq, Repr

/-- The numbers that round to one float: its own value and the two ends, over one denominator. -/
structure Interval where
  /-- Numerator of the lower end. -/
  low : Nat
  /-- Numerator of the value. -/
  value : Nat
  /-- Numerator of the upper end. -/
  high : Nat
  /-- The common denominator. -/
  denominator : Nat
  /-- Whether the ends themselves round to the float. -/
  closed : Bool
  deriving DecidableEq, Repr

/-- The interval of a float; below a power of two its lower half is half as long. -/
def Binary.interval (number : Binary) : Interval :=
  let scale := number.exponent - 2
  let factor := twoTo scale.toNat
  let value := 4 * number.mantissa
  let low := if number.mantissa = twoTo 52 ∧ number.exponent ≠ -1074 then value - 1 else value - 2
  ⟨low * factor, value * factor, (value + 2) * factor, twoTo (-scale).toNat,
    number.mantissa % 2 == 0⟩

/-- Whether a decimal lies in the interval. -/
def Interval.contains (interval : Interval) (decimal : Scaled) : Bool :=
  let point := decimal.digits * tenTo decimal.exponent.toNat * interval.denominator
  let unit := tenTo (-decimal.exponent).toNat
  if interval.closed then
    interval.low * unit ≤ point && point ≤ interval.high * unit
  else
    interval.low * unit < point && point < interval.high * unit

/-- The exponent of the leading decimal digit of a positive fraction. -/
def leadingExponent (numerator denominator : Nat) : Int :=
  if denominator ≤ numerator then
    ((Nat.toDigits 10 (numerator / denominator)).length : Int) - 1
  else
    match (List.range 400).find? fun k => denominator ≤ numerator * tenTo k with
    | some k => -(k : Int)
    | none => 0

/-- The decimal with so many digits that is nearest to the value and reads back. -/
def Interval.candidate? (interval : Interval) (leading : Int) (count : Nat) : Option Scaled :=
  let exponent := leading - count + 1
  let numerator := interval.value * tenTo (-exponent).toNat
  let unit := interval.denominator * tenTo exponent.toNat
  let below : Scaled := ⟨numerator / unit, exponent⟩
  let above : Scaled := ⟨numerator / unit + 1, exponent⟩
  let remainder := numerator % unit
  match interval.contains below, interval.contains above with
  | true, true =>
      if 2 * remainder < unit then some below
      else if unit < 2 * remainder then some above
      else if below.digits % 2 = 0 then some below
      else some above
  | true, false => some below
  | false, true => some above
  | false, false => none

/-- Move trailing zeros of the digits into the exponent, at most `limit` of them. -/
def Scaled.strip : Nat → Scaled → Scaled
  | 0, decimal => decimal
  | limit + 1, decimal =>
      if decimal.digits ≠ 0 ∧ decimal.digits % 10 = 0 then
        strip limit ⟨decimal.digits / 10, decimal.exponent + 1⟩
      else decimal

/-- The shortest decimal that reads back as the given number. -/
def shortest (number : Binary) : Scaled :=
  if number.mantissa = 0 then ⟨0, 0⟩
  else
    let interval := number.interval
    let leading := leadingExponent interval.value interval.denominator
    match (List.range 17).findSome? fun count => interval.candidate? leading (count + 1) with
    | some decimal => decimal.strip 20
    | none => ⟨0, 0⟩

/-- How the digits of a decimal are laid out. -/
structure Layout where
  /-- The least exponent of the leading digit that is written positionally. -/
  leastPositional : Int
  /-- The greatest exponent of the leading digit that is written positionally. -/
  greatestPositional : Int
  /-- Whether an integral value ends in `.0`. -/
  keepsPoint : Bool
  /-- Whether a positive exponent carries a plus sign. -/
  signsExponent : Bool
  deriving DecidableEq, Repr

/-- The digits of a positional number. -/
def positional (layout : Layout) (digits : List Char) (exponent : Int) : List Char :=
  let pointAt := (digits.length : Int) + exponent
  if 0 ≤ exponent then
    digits ++ List.replicate exponent.toNat '0' ++ (if layout.keepsPoint then ['.', '0'] else [])
  else if 0 < pointAt then
    digits.take pointAt.toNat ++ '.' :: digits.drop pointAt.toNat
  else
    '0' :: '.' :: List.replicate (-pointAt).toNat '0' ++ digits

/-- The digits of a number with an exponent. -/
def scientific (layout : Layout) (digits : List Char) (leading : Int) : List Char :=
  let mantissa :=
    match digits with
    | first :: second :: more => first :: '.' :: second :: more
    | short => short
  let sign := if leading < 0 then ['-'] else if layout.signsExponent then ['+'] else []
  mantissa ++ 'e' :: sign ++ Nat.toDigits 10 leading.natAbs

/-- The text of a binary number in a layout. -/
def Binary.write (layout : Layout) (number : Binary) : String :=
  let decimal := shortest number
  let digits := Nat.toDigits 10 decimal.digits
  let leading := (digits.length : Int) - 1 + decimal.exponent
  let body :=
    if layout.leastPositional ≤ leading && leading ≤ layout.greatestPositional then
      positional layout digits decimal.exponent
    else
      scientific layout digits leading
  String.ofList (if number.negative then '-' :: body else body)

end Decimal
end MailPress
