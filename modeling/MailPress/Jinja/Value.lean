import MailPress.Jinja.Tree
import MailPress.Json.Value

/-!
# Values in templates

What an expression of a template stands for. The data of a message become values;
templates add macros, namespaces, and the state of a loop. A variable that does
not exist has a value of its own, which prints as nothing.

Maps are sorted by their keys.
-/

namespace MailPress
namespace Jinja

/-- What a loop does for each element of a list. -/
structure LoopBody where
  /-- What the element is assigned to. -/
  target : Target
  /-- The condition that the elements meet. -/
  condition : Option Expression
  /-- The nodes for each element. -/
  body : List Node
  /-- The nodes for when there is no element. -/
  otherwise : List Node
  /-- Whether the loop may call itself. -/
  isRecursive : Bool

/-- A value. -/
inductive Value
  /-- What a variable that does not exist stands for. -/
  | undefined
  /-- No value. -/
  | none
  /-- A truth value. -/
  | truth (holds : Bool)
  /-- An integer. -/
  | integer (value : Int)
  /-- A number with a fraction. -/
  | real (value : Float)
  /-- A text; a safe one is not escaped. -/
  | text (content : String) (isSafe : Bool)
  /-- A list. -/
  | list (elements : List Value)
  /-- A map, sorted by its keys. -/
  | map (entries : List (Value × Value))
  /-- A namespace, by its number. -/
  | space (id : Nat)
  /-- The state of a loop, with its body where it may call itself. -/
  | loop (id : Nat) (state : List (String × Value)) (recursion : Option LoopBody)
  /-- A macro with the variables around it. -/
  | routine (name : String) (parameters : List Parameter) (body : List Node)
      (surroundings : List (String × Value))
  /-- A function, by its name. -/
  | function (name : String)

instance : Inhabited Value := ⟨.undefined⟩

namespace Value

/-- A text that is escaped where texts are. -/
def plain (content : String) : Value :=
  .text content false

/-- The order of the kinds of values. -/
def rank : Value → Nat
  | .undefined => 0
  | .none => 1
  | .truth _ => 2
  | .integer _ | .real _ => 3
  | .text _ _ => 4
  | .list _ => 5
  | .map _ => 6
  | .space _ | .loop _ _ _ | .routine _ _ _ _ | .function _ => 7

/-- A number as a float. -/
def float? : Value → Option Float
  | .integer value => some (Float.ofInt value)
  | .real value => some value
  | .truth holds => some (if holds then 1 else 0)
  | _ => Option.none

/-- An integer, or a truth value as one. -/
def integer? : Value → Option Int
  | .integer value => some value
  | .truth holds => some (if holds then 1 else 0)
  | .real value =>
      if value.floor == value && value.abs < 9.2e18 then
        some (if value < 0 then -((-value).toUInt64.toNat : Int) else value.toUInt64.toNat)
      else Option.none
  | _ => Option.none

/-- Whether a value counts as true. -/
def isTrue : Value → Bool
  | .undefined | .none => false
  | .truth holds => holds
  | .integer value => value != 0
  | .real value => value != 0
  | .text content _ => !content.isEmpty
  | .list elements => !elements.isEmpty
  | .map entries => !entries.isEmpty
  | _ => true

/-- Floats are never written with an exponent. -/
def floatLayout : Decimal.Layout :=
  ⟨-400, 400, true, false⟩

/-- The text of a float. -/
def writeFloat (value : Float) : String :=
  match Decimal.Binary.ofBits? value.toBits with
  | some number => number.write floatLayout
  | Option.none =>
      if value.isNaN then "NaN" else if value < 0 then "-inf" else "inf"

/-- How a character stands in a text inside a list. -/
def quoteChar (quote c : Char) : List Char :=
  if c = quote || c = '\\' then ['\\', c]
  else if c = '\n' then ['\\', 'n']
  else if c = '\r' then ['\\', 'r']
  else if c = '\t' then ['\\', 't']
  else if c.toNat < 32 || c.toNat = 127 then
    ['\\', 'x', Text.hexDigit (c.toNat / 16), Text.hexDigit (c.toNat % 16)]
  else [c]

/-- A text inside a list: in single quotes, or in double ones if only single quotes occur in it. -/
def quote (content : String) : String :=
  let characters := content.toList
  let mark := if characters.contains '\'' && !characters.contains '"' then '"' else '\''
  String.ofList (mark :: characters.flatMap (quoteChar mark) ++ [mark])

mutual

/-- The text of a value inside a list or a map. -/
def inspect : Value → String
  | .undefined => "Undefined"
  | .none => "None"
  | .truth holds => if holds then "True" else "False"
  | .integer value => toString value
  | .real value => writeFloat value
  | .text content _ => quote content
  | .list elements => "[" ++ String.intercalate ", " (inspectAll elements) ++ "]"
  | .map entries => "\x7b" ++ String.intercalate ", " (inspectEntries entries) ++ "\x7d"
  | .space _ => "\x7b\x7d"
  | .loop _ _ _ => "<loop>"
  | .routine name _ _ _ => "<macro " ++ name ++ ">"
  | .function name => "<function " ++ name ++ ">"

/-- The texts of some values inside a list. -/
def inspectAll : List Value → List String
  | [] => []
  | value :: values => value.inspect :: inspectAll values

/-- The texts of some entries inside a map. -/
def inspectEntries : List (Value × Value) → List String
  | [] => []
  | (key, value) :: entries => (key.inspect ++ ": " ++ value.inspect) :: inspectEntries entries

end

/-- The text of a value that is printed. -/
def display : Value → String
  | .undefined => ""
  | .text content _ => content
  | value => value.inspect

/-- Compare two values through an order on things of their kind. -/
def compareFloats (first second : Float) : Ordering :=
  if first < second then .lt else if second < first then .gt else .eq

/-- Compare two texts by their characters. -/
def compareTexts (first second : String) : Ordering :=
  if first < second then .lt else if first = second then .eq else .gt

mutual

/-- Compare two values: by kind, and within a kind by size, by characters, or element by
element. -/
def compare : Value → Value → Ordering
  | .truth first, .truth second =>
      if first = second then .eq else if second then .lt else .gt
  | .integer first, .integer second =>
      if first < second then .lt else if first = second then .eq else .gt
  | .integer first, .real second => compareFloats (Float.ofInt first) second
  | .real first, .integer second => compareFloats first (Float.ofInt second)
  | .real first, .real second => compareFloats first second
  | .text first _, .text second _ => compareTexts first second
  | .list first, .list second => compareAll first second
  | .map first, .map second => compareEntries first second
  | first, second => Ord.compare first.rank second.rank

/-- Compare two lists element by element. -/
def compareAll : List Value → List Value → Ordering
  | [], [] => .eq
  | [], _ :: _ => .lt
  | _ :: _, [] => .gt
  | first :: firsts, second :: seconds => (compare first second).then (compareAll firsts seconds)

/-- Compare two maps entry by entry. -/
def compareEntries : List (Value × Value) → List (Value × Value) → Ordering
  | [], [] => .eq
  | [], _ :: _ => .lt
  | _ :: _, [] => .gt
  | (key, value) :: firsts, (key', value') :: seconds =>
      ((compare key key').then (compare value value')).then (compareEntries firsts seconds)

end

/-- Whether two values are equal. Truth values are equal to the numbers zero and one. -/
def same (first second : Value) : Bool :=
  match first, second with
  | .truth holds, .integer value => value == (if holds then 1 else 0)
  | .integer value, .truth holds => value == (if holds then 1 else 0)
  | .truth holds, .real value => value == (if holds then 1 else 0)
  | .real value, .truth holds => value == (if holds then 1 else 0)
  | .real first, .real second => first == second
  | .space first, .space second => first == second
  | .loop first _ _, .loop second _ _ => first == second
  | .routine first _ _ _, .routine second _ _ _ => first == second
  | .function first, .function second => first == second
  | _, _ => first.rank == second.rank && compare first second == .eq

/-- Insert an entry into sorted entries; an equal key is replaced. -/
def insertEntry (key value : Value) : List (Value × Value) → List (Value × Value)
  | [] => [(key, value)]
  | entry :: rest =>
      match compare key entry.1 with
      | .lt => (key, value) :: entry :: rest
      | .eq => (key, value) :: rest
      | .gt => entry :: insertEntry key value rest

/-- The map of some entries; of two with one key the later one counts. -/
def ofEntries (entries : List (Value × Value)) : Value :=
  .map (entries.foldl (fun sorted entry => insertEntry entry.1 entry.2 sorted) [])

/-- The value that a map holds for a key. -/
def lookupKey? (key : Value) (entries : List (Value × Value)) : Option Value :=
  (entries.find? fun entry => entry.1.same key).map Prod.snd

/-- The elements of a value that can be gone through: of a map its keys, of a text its
characters. -/
def elements? : Value → Option (List Value)
  | .undefined | .none => some []
  | .list elements => some elements
  | .map entries => some (entries.map Prod.fst)
  | .text content _ => some (content.toList.map fun c => plain (String.singleton c))
  | _ => Option.none

/-- How many elements a value has. -/
def length? : Value → Option Nat
  | .list elements => some elements.length
  | .map entries => some entries.length
  | .text content _ => some content.length
  | _ => Option.none

mutual

/-- Data as a value. -/
def ofJson : Json → Value
  | .null => .none
  | .bool holds => .truth holds
  | .int value => .integer value
  | .float value => .real value
  | .str content => plain content
  | .arr elements => .list (ofElements elements)
  | .obj members => .map (ofMembers members)

/-- The elements of an array as values. -/
def ofElements : List Json → List Value
  | [] => []
  | element :: elements => ofJson element :: ofElements elements

/-- The members of an object as entries. -/
def ofMembers : List (String × Json) → List (Value × Value)
  | [] => []
  | (key, value) :: members => (plain key, ofJson value) :: ofMembers members

end

end Value

end Jinja
end MailPress
