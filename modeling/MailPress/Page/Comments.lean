import MailPress.Markup.Document

/-!
# Comments

Conditional comments carry markup for certain clients and stay in a page. All
other comments are for its authors and are removed.

A comment is conditional by the way its body starts, blanks in front aside.
-/

namespace MailPress
namespace Page

open Markup

/-- Whether the body of a comment makes it conditional. -/
def isConditional (body : String) : Bool :=
  let start := Text.trimStart body.toList
  Text.startsWith "[if".toList start || Text.startsWith "<![endif]".toList start

/-- Whether a node is a comment for authors. -/
def isAuthorComment (document : Document) (id : Nat) : Bool :=
  match document.content id with
  | .comment body => !isConditional body
  | _ => false

/-- Remove the comments that are not conditional. -/
def stripComments (document : Document) : Document :=
  ((document.descendants Document.root).filter (isAuthorComment document)).foldl
    Document.detach document

end Page
end MailPress
