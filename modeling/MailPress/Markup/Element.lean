import MailPress.Markup.Reference
import MailPress.Text.Blank

/-!
# Elements

An element has a lowercase name and a list of attributes in source order.
Attribute values are kept raw, as they stand between the quotes, so that reading
and writing a document never changes how its author wrote them.

When an attribute occurs twice, the first occurrence is the one that counts.
-/

namespace MailPress
namespace Markup

/-- An attribute with its raw value. -/
structure Attribute where
  /-- Name of the attribute. -/
  name : String
  /-- Value as it stands between the quotes. -/
  value : String
  deriving DecidableEq, Repr, Inhabited

/-- An element without its content. -/
structure Element where
  /-- Lowercase name. -/
  name : String
  /-- Attributes in source order. -/
  attributes : List Attribute
  /-- Whether the tag was written with a slash at its end. -/
  selfClosing : Bool
  deriving DecidableEq, Repr, Inhabited

/-- The elements that never have an end tag. -/
def voidNames : List String :=
  ["area", "base", "br", "col", "embed", "hr", "img", "input", "link", "meta", "param",
    "source", "track", "wbr"]

/-- Whether elements of this name never have an end tag. -/
def isVoid (name : String) : Bool :=
  voidNames.contains name

/-- Replace the value of the first attribute of this name, or append the attribute. -/
def setAttribute (name value : String) : List Attribute → List Attribute
  | [] => [⟨name, value⟩]
  | first :: rest =>
      if first.name = name then ⟨first.name, value⟩ :: rest
      else first :: setAttribute name value rest

namespace Element

/-- Raw value of an attribute. -/
def attr? (element : Element) (name : String) : Option String :=
  (element.attributes.find? (·.name == name)).map Attribute.value

/-- Value of an attribute, references decoded. -/
def decodedAttr? (element : Element) (name : String) : Option String :=
  (element.attr? name).map decode

/-- Whether the element has an attribute of this name. -/
def hasAttr (element : Element) (name : String) : Bool :=
  element.attributes.any (·.name == name)

/-- Set the raw value of an attribute. -/
def setAttr (element : Element) (name value : String) : Element :=
  { element with attributes := setAttribute name value element.attributes }

/-- Set the raw value of an attribute that the element does not have yet. -/
def setAttrIfMissing (element : Element) (name value : String) : Element :=
  if element.hasAttr name then element else element.setAttr name value

/-- An element with the given plain attribute values. -/
def make (name : String) (attributes : List (String × String)) : Element :=
  attributes.foldl
    (fun element pair => element.setAttr pair.1 (escapeAttribute pair.2))
    ⟨Text.lower name, [], false⟩

/-- The raw identifier of the element. -/
def id? (element : Element) : Option String :=
  element.attr? "id"

/-- The classes of the element. -/
def classes (element : Element) : List String :=
  Text.asciiWords ((element.attr? "class").getD "")

end Element

end Markup
end MailPress
