import MailPress.Markup.Document

/-!
# Defaults for mail clients

Tables and images get the attributes that clients would otherwise fill in with
values of their own, links get a target, and empty cells get a space that does
not collapse.

Nothing that the author wrote is changed.
-/

namespace MailPress
namespace Page

open Markup

/-- The attributes that elements of a name are given when they lack them. -/
def defaultAttributes (name : String) : List (String × String) :=
  match name with
  | "table" => [("cellpadding", "0"), ("cellspacing", "0"), ("border", "0")]
  | "img" => [("border", "0")]
  | _ => []

/-- The element with the defaults that it lacks. -/
def withDefaults (target : Option String) (element : Element) : Element :=
  let filled := (defaultAttributes element.name).foldl
    (fun filled pair => filled.setAttrIfMissing pair.1 pair.2) element
  match target with
  | some target =>
      if element.name = "a" ∧ filled.hasAttr "href" then
        filled.setAttrIfMissing "target" (escapeAttribute target)
      else filled
  | none => filled

/-- Give every element the defaults that it lacks. -/
def applyDefaults (document : Document) (target : Option String) : Document :=
  document.elements.foldl
    (fun filled id => filled.modifyElement id (withDefaults target)) document

/-- Whether a node leaves the cell it stands in without visible content. -/
def isInvisible (document : Document) (id : Nat) : Bool :=
  match document.content id with
  | .text raw => raw.toList.all Text.isBlank
  | .comment _ => true
  | _ => false

/-- Whether a node is a table cell without visible content. -/
def isEmptyCell (document : Document) (id : Nat) : Bool :=
  (document.isNamed "td" id || document.isNamed "th" id) &&
    (document.children id).all (isInvisible document)

/-- Give every empty cell a space that does not collapse. -/
def fillEmptyCells (document : Document) : Document :=
  (document.elements.filter (isEmptyCell document)).foldl
    (fun filled id => filled.appendText id "&nbsp;") document

end Page
end MailPress
