import MailPress.Json.Value
import MailPress.Text.Blank
import MailPress.Text.Search

/-!
# Formatting content

Every text of a content value is Markdown, except a lone address, which is most
likely the target of a link.
-/

namespace MailPress
namespace Markdown

/-- Whether a text is one web address without blanks. -/
def isLoneAddress (text : String) : Bool :=
  let starts := ["https://", "http://", "//"]
  starts.any fun start =>
    match Text.dropStart? start.toList text.toList with
    | some rest => !rest.isEmpty && rest.all fun c => !Text.isBlank c
    | none => false

/-- Format a text by some writer of Markdown. -/
def formatText (write : String → String) (text : String) : String :=
  let content := Text.trimmed text
  if Text.hasStart "mailto:" content || isLoneAddress content then text else write text

mutual

/-- Format the texts of a value. -/
def format (write : String → String) : Json → Json
  | .str text => .str (formatText write text)
  | .arr elements => .arr (formatElements write elements)
  | .obj members => .obj (formatMembers write members)
  | value => value

/-- Format the texts of values. -/
def formatElements (write : String → String) : List Json → List Json
  | [] => []
  | element :: rest => format write element :: formatElements write rest

/-- Format the texts of members. -/
def formatMembers (write : String → String) : List (String × Json) → List (String × Json)
  | [] => []
  | (key, value) :: rest => (key, format write value) :: formatMembers write rest

end

end Markdown
end MailPress
