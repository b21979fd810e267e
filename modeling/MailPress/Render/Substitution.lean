import MailPress.Error
import MailPress.Json.Value
import MailPress.Render.Partials
import MailPress.Text.Word

/-!
# Substitution

The simple way to render: a tag with a dotted path is replaced by the value found
there, and a tag with the name of a partial by the source of that partial. There
is no control flow and no escaping, and what was put in is not read again for
values.

Partials are expanded first, all at once and again for as long as some are left.
Sources that need sixteen such rounds or more are refused.
-/

namespace MailPress
namespace Render

/-- A character of the name of a partial. -/
def isPartialNameChar (c : Char) : Bool :=
  Text.isWordChar c || c == '.' || c == '/' || c == '-'

/-- A character of a dotted path. -/
def isPathChar (c : Char) : Bool :=
  Text.isWordChar c || c == '.' || c == '-'

/-- Take a non-empty name with blanks around it; the result has the name and what is left. -/
def takeNamePart (isNamePart : Char → Bool) (text : List Char) : Option (List Char × List Char) :=
  let start := text.dropWhile Text.isBlank
  let name := start.takeWhile isNamePart
  if name.isEmpty then none
  else some (name, (start.dropWhile isNamePart).dropWhile Text.isBlank)

/-- The partial tag at the start of a text: the name, and what follows the tag. -/
def partialTag? (text : List Char) : Option (List Char × List Char) :=
  match text with
  | '{' :: '{' :: '>' :: inner =>
      match takeNamePart isPartialNameChar inner with
      | some (name, '}' :: '}' :: rest) => some (name, rest)
      | _ => none
  | _ => none

/-- The value tag at the start of a text: the path, and what follows the tag. A third brace
may stand at either end. -/
def valueTag? (text : List Char) : Option (List Char × List Char) :=
  match text with
  | '{' :: '{' :: inner =>
      let inner := match inner with
        | '{' :: more => more
        | more => more
      match takeNamePart isPathChar inner with
      | some (path, '}' :: '}' :: '}' :: rest) => some (path, rest)
      | some (path, '}' :: '}' :: rest) => some (path, rest)
      | _ => none
  | _ => none

/-- Replace tags by what `replacement` gives for their names, after skipping the given number
of characters. -/
def replaceTagsFrom
    (tag? : List Char → Option (List Char × List Char))
    (replacement : List Char → List Char) :
    Nat → List Char → List Char
  | _, [] => []
  | skip + 1, _ :: rest => replaceTagsFrom tag? replacement skip rest
  | 0, c :: rest =>
      match tag? (c :: rest) with
      | some (name, after) =>
          replacement name ++
            replaceTagsFrom tag? replacement (rest.length - after.length) rest
      | none => c :: replaceTagsFrom tag? replacement 0 rest

/-- Whether a tag occurs in the text. -/
def hasTag (tag? : List Char → Option (List Char × List Char)) : List Char → Bool
  | [] => false
  | c :: rest => (tag? (c :: rest)).isSome || hasTag tag? rest

/-- The source of a partial; empty for an unknown one. -/
def partialSource (partials : Partials) (name : List Char) : List Char :=
  ((partials.get? (String.ofList name)).getD "").toList

/-- Expand partials until none is left; none when that takes more than the given rounds. -/
def expandPartials (partials : Partials) : (rounds : Nat) → List Char → Option (List Char)
  | 0, _ => none
  | rounds + 1, text =>
      if hasTag partialTag? text then
        expandPartials partials rounds
          (replaceTagsFrom partialTag? (partialSource partials) 0 text)
      else some text

/-- The index that a path component names. -/
def arrayIndex? (key : String) : Option Nat :=
  let digits := key.toList
  if digits.isEmpty || !digits.all Text.isAsciiDigit then none
  else
    let index := Text.decimalValue digits
    if index < 0x10000000000000000 then some index else none

/-- The value that a path component leads to. -/
def member? (value : Json) (key : String) : Option Json :=
  match value with
  | .obj members => members.lookup key
  | .arr elements => (arrayIndex? key).bind fun index => elements[index]?
  | _ => none

/-- The value at a dotted path. -/
def lookupPath (context : Json) (path : List Char) : Option Json :=
  ((Text.splitAtEach (· == '.') path).map String.ofList).foldlM member? context

/-- How a value is put into a page: text as it is, nothing for null, and data as data. -/
def printValue : Json → String
  | .null => ""
  | .str text => text
  | value => value.write

/-- What a value tag is replaced by. -/
def valueText (context : Json) (path : List Char) : List Char :=
  ((lookupPath context path).elim "" printValue).toList

/-- Render a source by substitution. -/
def substitute
    (partials : Partials)
    (name source : String)
    (context : Json) :
    Except BuildError String :=
  match expandPartials partials partialDepth source.toList with
  | none => .error (.render name .nestedTooDeep)
  | some text =>
      .ok (String.ofList (replaceTagsFrom valueTag? (valueText context) 0 text))

end Render
end MailPress
