import MailPress.Markup.Document

/-!
# Writing documents

A document is written as it was read, with two rules of its own: every attribute
value stands in double quotes, and a void element has no end tag.

An element without content is written with a slash only when it was read so and
is not void.
-/

namespace MailPress
namespace Markup

/-- Write an attribute; a double quote inside the value becomes a reference. -/
def Attribute.write (attr : Attribute) : String :=
  " " ++ attr.name ++ "=\"" ++ Text.substitute "\"" "&quot;" attr.value ++ "\""

/-- Write the attributes of an element, each with a space in front. -/
def writeAttributes (attributes : List Attribute) : String :=
  String.join (attributes.map Attribute.write)

mutual

/-- Write a tree. -/
def Tree.write : Tree → String
  | .node _ content children =>
      match content with
      | .root => writeTrees children
      | .text raw => raw
      | .verbatim raw => raw
      | .comment body => "<!--" ++ body ++ "-->"
      | .element element =>
          let opening := "<" ++ element.name ++ writeAttributes element.attributes
          if children.isEmpty && element.selfClosing && !isVoid element.name then
            opening ++ "/>"
          else if children.isEmpty && isVoid element.name then
            opening ++ ">"
          else
            opening ++ ">" ++ writeTrees children ++ "</" ++ element.name ++ ">"

/-- Write trees one after another. -/
def writeTrees : List Tree → String
  | [] => ""
  | tree :: trees => tree.write ++ writeTrees trees

end

/-- Write a document. -/
def Document.write (document : Document) : String :=
  (document.tree Document.root).write

end Markup
end MailPress
