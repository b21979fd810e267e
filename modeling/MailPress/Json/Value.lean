import MailPress.Decimal.Shortest
import MailPress.Text.Ascii

/-!
# Data values

The values of a JSON document. Integers are kept apart from floating-point
numbers, and the members of an object are sorted by their keys, each key
occurring once.

The compact written form has no blanks, and escapes only what it must; the other
form has one value on each line, two blanks further in for every bracket.
-/

namespace MailPress

/-- A value of a JSON document. -/
inductive Json
  | null
  | bool (value : Bool)
  | int (value : Int)
  | float (value : Float)
  | str (value : String)
  | arr (elements : List Json)
  | obj (members : List (String × Json))
  deriving Inhabited, Repr

namespace Json

/-- Insert a member into members sorted by key; an equal key is replaced. -/
def insertMember (key : String) (value : Json) : List (String × Json) → List (String × Json)
  | [] => [(key, value)]
  | (other, old) :: rest =>
      if key < other then (key, value) :: (other, old) :: rest
      else if key = other then (key, value) :: rest
      else (other, old) :: insertMember key value rest

/-- The object of some members; of two with one key the later one counts. -/
def ofMembers (members : List (String × Json)) : Json :=
  .obj (members.foldl (fun sorted member => insertMember member.1 member.2 sorted) [])

/-- Floating-point numbers are positional from `1e-5` up to, not including, `1e16`. -/
def floatLayout : Decimal.Layout :=
  ⟨-5, 15, true, true⟩

/-- The text of a floating-point number; one that is not finite is written as null. -/
def writeFloat (value : Float) : String :=
  match Decimal.Binary.ofBits? value.toBits with
  | some number => number.write floatLayout
  | none => "null"

/-- How a character stands inside a written string. -/
def escapeChar (c : Char) : List Char :=
  if c = '"' then ['\\', '"']
  else if c = '\\' then ['\\', '\\']
  else if c = '\n' then ['\\', 'n']
  else if c = '\r' then ['\\', 'r']
  else if c = '\t' then ['\\', 't']
  else if c = '\x08' then ['\\', 'b']
  else if c = '\x0c' then ['\\', 'f']
  else if c.toNat < 32 then
    ['\\', 'u', '0', '0', Text.hexDigit (c.toNat / 16), Text.hexDigit (c.toNat % 16)]
  else [c]

/-- A written string, quotes included. -/
def writeString (text : String) : String :=
  String.ofList ('"' :: text.toList.flatMap escapeChar ++ ['"'])

mutual

/-- The compact written form of a value. -/
def write : Json → String
  | .null => "null"
  | .bool true => "true"
  | .bool false => "false"
  | .int value => toString value
  | .float value => writeFloat value
  | .str value => writeString value
  | .arr elements => "[" ++ String.intercalate "," (writeElements elements) ++ "]"
  | .obj members => "\x7b" ++ String.intercalate "," (writeMembers members) ++ "\x7d"

/-- The written forms of the elements of an array. -/
def writeElements : List Json → List String
  | [] => []
  | element :: elements => element.write :: writeElements elements

/-- The written forms of the members of an object. -/
def writeMembers : List (String × Json) → List String
  | [] => []
  | (key, value) :: members => (writeString key ++ ":" ++ value.write) :: writeMembers members

end

/-- The line break and the indentation inside so many brackets. -/
def lineBreak (depth : Nat) : String :=
  String.ofList ('\n' :: List.replicate (2 * depth) ' ')

mutual

/-- The written form of a value over several lines, inside so many brackets. -/
def writeLines (depth : Nat) : Json → String
  | .arr [] => "[]"
  | .obj [] => "\x7b\x7d"
  | .arr elements =>
      "[" ++ String.intercalate "," (elementLines (depth + 1) elements) ++ lineBreak depth ++ "]"
  | .obj members =>
      "\x7b" ++ String.intercalate "," (memberLines (depth + 1) members) ++ lineBreak depth ++
        "\x7d"
  | value => value.write

/-- The elements of an array, each on lines of its own. -/
def elementLines (depth : Nat) : List Json → List String
  | [] => []
  | element :: elements =>
      (lineBreak depth ++ element.writeLines depth) :: elementLines depth elements

/-- The members of an object, each on lines of its own. -/
def memberLines (depth : Nat) : List (String × Json) → List String
  | [] => []
  | (key, value) :: members =>
      (lineBreak depth ++ writeString key ++ ": " ++ value.writeLines depth) ::
        memberLines depth members

end

end Json
end MailPress
