import MailPress.Text.Blank
import MailPress.Text.Search

/-!
# The document type declaration

A page starts with the declaration that its settings ask for, on a line of its
own. One that the page starts with already gives way to it, together with the
blanks around it.
-/

namespace MailPress
namespace Page

/-- The page without the declaration that it starts with. -/
def withoutDoctype (page : List Char) : List Char :=
  let start := Text.trimStart page
  let opening := "<!doctype".toList
  if (start.take opening.length).map Text.lowerChar = opening then
    match Text.splitOnce ['>'] (start.drop opening.length) with
    | some (_, rest) => Text.trimStart rest
    | none => page
  else page

/-- The page with the given declaration. -/
def applyDoctype (page doctype : String) : String :=
  doctype ++ "\n" ++ String.ofList (withoutDoctype page.toList)

end Page
end MailPress
