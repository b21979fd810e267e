import MailPress.Json.Value
import MailPress.Text.Blank

/-!
# Reading data values

The text is first cut into tokens; the tokens are then read as one value, nested
at most 127 deep. A text that is not exactly one value has none.

A number is an integer when it is written as one and fits 64 bits. Any other
number is rounded in two steps: its first digits, as many as fit 64 bits, make an
integer, which is then scaled by one power of ten.
-/

namespace MailPress
namespace Json

/-- A token of a JSON text. -/
inductive Token
  /-- A bracket, a brace, a comma or a colon. -/
  | mark (c : Char)
  /-- A literal or a number. -/
  | scalar (value : Json)
  /-- A string. -/
  | text (value : String)
  deriving Inhabited

/-- White space between tokens. -/
def isGap (c : Char) : Bool :=
  c == ' ' || c == '\n' || c == '\t' || c == '\r'

/-- The unit that four hexadecimal digits denote. -/
def hexUnit? (a b c d : Char) : Option Nat := do
  let a ← Text.hexValue? a
  let b ← Text.hexValue? b
  let c ← Text.hexValue? c
  let d ← Text.hexValue? d
  return ((a * 16 + b) * 16 + c) * 16 + d

/-- Whether a unit is the first half of a surrogate pair. -/
def isLeadUnit (unit : Nat) : Bool :=
  0xD800 ≤ unit && unit ≤ 0xDBFF

/-- Whether a unit is the second half of a surrogate pair. -/
def isTrailUnit (unit : Nat) : Bool :=
  0xDC00 ≤ unit && unit ≤ 0xDFFF

/-- The character of a surrogate pair. -/
def pairChar (lead trail : Nat) : Char :=
  Char.ofNat (0x10000 + (lead - 0xD800) * 0x400 + (trail - 0xDC00))

/-- The character that a one-letter escape denotes. -/
def simpleEscape? (c : Char) : Option Char :=
  if c = '"' || c = '\\' || c = '/' then some c
  else if c = 'b' then some '\x08'
  else if c = 'f' then some '\x0c'
  else if c = 'n' then some '\n'
  else if c = 'r' then some '\r'
  else if c = 't' then some '\t'
  else none

/-- Read the rest of a string after its opening quote. -/
def readString : List Char → Option (List Char × List Char)
  | [] => none
  | '"' :: rest => some ([], rest)
  | '\\' :: 'u' :: a :: b :: c :: d :: '\\' :: 'u' :: e :: f :: g :: h :: rest =>
      match hexUnit? a b c d with
      | none => none
      | some lead =>
          if isLeadUnit lead then
            match hexUnit? e f g h with
            | none => none
            | some trail =>
                if isTrailUnit trail then
                  (readString rest).map fun found => (pairChar lead trail :: found.1, found.2)
                else none
          else if isTrailUnit lead then none
          else
            (readString ('\\' :: 'u' :: e :: f :: g :: h :: rest)).map fun found =>
              (Char.ofNat lead :: found.1, found.2)
  | '\\' :: 'u' :: a :: b :: c :: d :: rest =>
      match hexUnit? a b c d with
      | none => none
      | some unit =>
          if isLeadUnit unit || isTrailUnit unit then none
          else (readString rest).map fun found => (Char.ofNat unit :: found.1, found.2)
  | '\\' :: c :: rest =>
      match simpleEscape? c with
      | none => none
      | some denoted => (readString rest).map fun found => (denoted :: found.1, found.2)
  | c :: rest =>
      if c.toNat < 32 || c = '\\' then none
      else (readString rest).map fun found => (c :: found.1, found.2)

/-- Ten to the given power, for powers up to 308. -/
def powerOfTen (power : Nat) : Float :=
  Float.ofScientific 1 false power

/-- Scale a number that fits 64 bits by a power of ten; too large a result is none. -/
def scaleFloat : Nat → Float → Int → Option Float
  | 0, value, _ => some value
  | steps + 1, value, exponent =>
      if exponent.natAbs ≤ 308 then
        if 0 ≤ exponent then
          let scaled := value * powerOfTen exponent.natAbs
          if scaled.isInf then none else some scaled
        else some (value / powerOfTen exponent.natAbs)
      else if value == 0.0 then some value
      else if 0 ≤ exponent then none
      else scaleFloat steps (value / powerOfTen 308) (exponent + 308)

/-- The leading digits of a run that fit 64 bits, as an integer, with the number of the
digits taken. -/
def significand : Nat → List Char → Nat × Nat
  | value, [] => (value, 0)
  | value, c :: digits =>
      let next := value * 10 + (c.toNat - 48)
      if next < 0x10000000000000000 then
        let found := significand next digits
        (found.1, found.2 + 1)
      else (value, 0)

/-- The parts of a number: sign, digits before and after the point, and the exponent. -/
structure NumberText where
  /-- Whether a minus sign stands in front. -/
  negative : Bool
  /-- The digits before the point. -/
  whole : List Char
  /-- The digits after the point. -/
  fraction : Option (List Char)
  /-- The exponent, if one is written. -/
  exponent : Option Int

/-- Cut a number into its parts; none when it is not one. -/
def cutNumber (text : List Char) : Option NumberText :=
  let (negative, text) :=
    match text with
    | '-' :: rest => (true, rest)
    | _ => (false, text)
  let whole := text.takeWhile Text.isAsciiDigit
  let text := text.dropWhile Text.isAsciiDigit
  if whole.isEmpty || (whole.head? == some '0' && whole.length != 1) then none
  else
    let fraction? : Option (Option (List Char) × List Char) :=
      match text with
      | '.' :: rest =>
          let digits := rest.takeWhile Text.isAsciiDigit
          if digits.isEmpty then none
          else some (some digits, rest.dropWhile Text.isAsciiDigit)
      | _ => some (none, text)
    match fraction? with
    | none => none
    | some (fraction, []) => some ⟨negative, whole, fraction, none⟩
    | some (fraction, e :: rest) =>
        if e != 'e' && e != 'E' then none
        else
          let (sign, digits) :=
            match rest with
            | '+' :: digits => ((1 : Int), digits)
            | '-' :: digits => (-1, digits)
            | digits => (1, digits)
          if digits.isEmpty || !digits.all Text.isAsciiDigit then none
          else
            some ⟨negative, whole, fraction, some (sign * (Text.decimalValue digits : Int))⟩

/-- The floating-point number of some parts. -/
def floatOfNumber (number : NumberText) : Option Float :=
  let (first, taken) := significand 0 number.whole
  let dropped := number.whole.length - taken
  let fraction := number.fraction.getD []
  let (digits, places) :=
    if dropped = 0 then significand first fraction else (first, 0)
  let exponent := (number.exponent.getD 0) + dropped - places
  (scaleFloat (exponent.natAbs / 308 + 1) (Float.ofNat digits) exponent).map fun value =>
    if number.negative then -value else value

/-- The value of a number. -/
def readNumber (text : List Char) : Option Json :=
  match cutNumber text with
  | none => none
  | some number =>
      if number.fraction.isNone && number.exponent.isNone then
        let size := Text.decimalValue number.whole
        if number.negative then
          if size ≠ 0 ∧ size ≤ 0x8000000000000000 then some (.int (-(size : Int)))
          else (floatOfNumber number).map .float
        else if size < 0x10000000000000000 then some (.int size)
        else (floatOfNumber number).map .float
      else (floatOfNumber number).map .float

/-- A character of a literal or a number. -/
def isScalarChar (c : Char) : Bool :=
  Text.isAsciiAlphanumeric c || c == '-' || c == '+' || c == '.'

/-- The value of a literal or a number. -/
def readScalar (text : List Char) : Option Json :=
  if text = ['n', 'u', 'l', 'l'] then some .null
  else if text = ['t', 'r', 'u', 'e'] then some (.bool true)
  else if text = ['f', 'a', 'l', 's', 'e'] then some (.bool false)
  else readNumber text

theorem length_readString_le
    {text found rest : List Char}
    (reads : readString text = some (found, rest)) :
    rest.length ≤ text.length := by
  fun_induction readString text generalizing found rest <;>
    simp_all [Option.map_eq_some_iff]
  case case5 shorter | case8 shorter | case11 shorter | case13 shorter | case15 shorter =>
    obtain ⟨_, read, _⟩ := reads
    have := shorter read
    omega

/-- Cut a JSON text into tokens. -/
def tokens (text : List Char) : Option (List Token) :=
  match text with
  | [] => some []
  | c :: rest =>
      if isGap c then tokens rest
      else if c = '"' then
        match reads : readString rest with
        | none => none
        | some (value, after) =>
            have := length_readString_le reads
            (tokens after).map fun more => .text (String.ofList value) :: more
      else if isScalarChar c then
        match readScalar (c :: rest.takeWhile isScalarChar) with
        | none => none
        | some value =>
            have := (List.dropWhile_suffix (l := rest) isScalarChar).length_le
            (tokens (rest.dropWhile isScalarChar)).map fun more => .scalar value :: more
      else (tokens rest).map fun more => .mark c :: more
termination_by text.length

/-- The greatest depth of arrays and objects inside one another. -/
def depthLimit : Nat := 127

/-- The first token of a rest, and what follows it. -/
def splitFirst?
    {bound : Nat} :
    { rest : List Token // rest.length < bound } →
      Option (Token × { rest : List Token // rest.length + 1 < bound })
  | ⟨[], _⟩ => none
  | ⟨token :: rest, shorter⟩ => some (token, ⟨rest, shorter⟩)

mutual

/-- Read one value, nested at most `depth` deep. -/
def readValue
    (depth : Nat)
    (input : List Token) :
    Option (Json × { rest : List Token // rest.length < input.length }) :=
  match input with
  | .scalar value :: rest => some (value, ⟨rest, by simp⟩)
  | .text value :: rest => some (.str value, ⟨rest, by simp⟩)
  | .mark '[' :: .mark ']' :: rest =>
      if depth = 0 then none
      else some (.arr [], ⟨rest, by simp only [List.length_cons]; omega⟩)
  | .mark '{' :: .mark '}' :: rest =>
      if depth = 0 then none
      else some (.obj [], ⟨rest, by simp only [List.length_cons]; omega⟩)
  | .mark '[' :: rest =>
      if depth = 0 then none
      else
        match readElements (depth - 1) rest with
        | none => none
        | some (elements, ⟨after, shorter⟩) =>
            some (.arr elements, ⟨after, by simp only [List.length_cons]; omega⟩)
  | .mark '{' :: rest =>
      if depth = 0 then none
      else
        match readMembers (depth - 1) rest with
        | none => none
        | some (members, ⟨after, shorter⟩) =>
            some (.obj members, ⟨after, by simp only [List.length_cons]; omega⟩)
  | _ => none
termination_by (input.length, 0)

/-- Read the elements of an array, at least one, and its closing bracket. -/
def readElements
    (depth : Nat)
    (input : List Token) :
    Option (List Json × { rest : List Token // rest.length < input.length }) :=
  match readValue depth input with
  | none => none
  | some (first, behind) =>
      match splitFirst? behind with
      | some (.mark ',', ⟨rest, shorter⟩) =>
          match readElements depth rest with
          | none => none
          | some (more, ⟨after, later⟩) => some (first :: more, ⟨after, by omega⟩)
      | some (.mark ']', ⟨rest, shorter⟩) => some ([first], ⟨rest, by omega⟩)
      | _ => none
termination_by (input.length, 1)

/-- Read the members of an object, at least one, and its closing brace. -/
def readMembers
    (depth : Nat)
    (input : List Token) :
    Option (List (String × Json) × { rest : List Token // rest.length < input.length }) :=
  match input with
  | .text key :: .mark ':' :: afterKey =>
      match readValue depth afterKey with
      | none => none
      | some (value, behind) =>
          match splitFirst? behind with
          | some (.mark ',', ⟨rest, shorter⟩) =>
              have : rest.length < afterKey.length + 2 := by omega
              match readMembers depth rest with
              | none => none
              | some (more, ⟨after, later⟩) =>
                  some ((key, value) :: more, ⟨after, by simp only [List.length_cons]; omega⟩)
          | some (.mark '}', ⟨rest, shorter⟩) =>
              some ([(key, value)], ⟨rest, by simp only [List.length_cons]; omega⟩)
          | _ => none
  | _ => none
termination_by (input.length, 1)

end

/-- Read a JSON text that holds exactly one value, the members of objects left as written. -/
def readAsWritten? (text : String) : Option Json :=
  match tokens text.toList with
  | none => none
  | some input =>
      match readValue depthLimit input with
      | some (value, ⟨[], _⟩) => some value
      | _ => none

mutual

/-- Sort the members of every object, the last of those with one key standing for all. -/
def sorted : Json → Json
  | .arr elements => .arr (sortedElements elements)
  | .obj members => ofMembers (sortedMembers members)
  | value => value

/-- Sort the members of the objects in a list. -/
def sortedElements : List Json → List Json
  | [] => []
  | element :: elements => element.sorted :: sortedElements elements

/-- Sort the members of the objects in the members of an object. -/
def sortedMembers : List (String × Json) → List (String × Json)
  | [] => []
  | (key, value) :: members => (key, value.sorted) :: sortedMembers members

end

/-- Read a JSON text that holds exactly one value. -/
def read? (text : String) : Option Json :=
  (readAsWritten? text).map sorted

end Json
end MailPress
