import MailPress.Markup.Document

/-!
# The head of a page

A mail client expects certain elements in the head of a page: its character set,
the viewport, a compatibility mode, and a block of settings in a conditional
comment. What is missing is put in front of what is there.

Head styles are appended to the first style element of the head, and links to
style sheets under development stand between two marker comments.
-/

namespace MailPress
namespace Page

open Markup

/-- The conditional comment that sets the pixel density. -/
def settingsComment : String :=
  "[if mso]><xml><o:OfficeDocumentSettings><o:AllowPNG/>" ++
    "<o:PixelsPerInch>96</o:PixelsPerInch></o:OfficeDocumentSettings></xml><![endif]"

/-- The comment in front of the links under development. -/
def linksBegin : String := " BEGIN DEVELOPMENT STYLESHEET INJECTS "

/-- The comment behind the links under development. -/
def linksEnd : String := " END DEVELOPMENT STYLESHEET INJECTS "

/-- A new element with the given plain attribute values. -/
def newElement (name : String) (attributes : List (String × String)) : Content :=
  .element (Element.make name attributes)

/-- The head of the document; a new one goes to the start of the page. -/
def ensureHead (document : Document) : Document × Nat :=
  match document.findFirst? "head" with
  | some head => (document, head)
  | none =>
      let parent := (document.findFirst? "html").getD Document.root
      (document.insertChild parent 0 (newElement "head" []), document.size)

/-- Whether an attribute has a value, letter case not counting. -/
def hasValue (name value : String) (element : Element) : Bool :=
  (element.attr? name).any (Text.sameIgnoringCase value)

/-- The `meta` elements directly below a node. -/
def metaElements (document : Document) (head : Nat) : List Element :=
  ((document.children head).filterMap document.element?).filter (·.name == "meta")

/-- Whether a node is the comment with the settings. -/
def isSettings (document : Document) (id : Nat) : Bool :=
  match document.content id with
  | .comment body => Text.holds "o:OfficeDocumentSettings" body
  | _ => false

/-- What the head lacks, in the order in which it is put in. -/
def missingMeta (document : Document) (head : Nat) : List Content :=
  let metas := metaElements document head
  let charset :=
    metas.any (hasValue "http-equiv" "Content-Type") || metas.any (·.hasAttr "charset")
  let viewport := metas.any (hasValue "name" "viewport")
  let compatibility := metas.any (hasValue "http-equiv" "X-UA-Compatible")
  let settings := (document.children head).any (isSettings document)
  (if charset then [] else
    [newElement "meta"
      [("http-equiv", "Content-Type"), ("content", "text/html; charset=utf-8")]]) ++
  (if viewport then [] else
    [newElement "meta"
      [("name", "viewport"), ("content", "width=device-width, initial-scale=1.0")]]) ++
  (if compatibility then [] else
    [newElement "meta" [("http-equiv", "X-UA-Compatible"), ("content", "IE=edge")]]) ++
  (if settings then [] else [.comment settingsComment])

/-- Insert contents below a node, the first one at the given index. -/
def insertFrom (parent : Nat) : Nat → List Content → Document → Document
  | _, [], document => document
  | index, content :: contents, document =>
      insertFrom parent (index + 1) contents (document.insertChild parent index content)

/-- Put in front of the head what it lacks. -/
def addMetaTags (document : Document) : Document :=
  let (document, head) := ensureHead document
  insertFrom head 0 (missingMeta document head) document

/-- Append styles to the first style element of the head, or to a new one. -/
def addHeadCss (document : Document) (css : String) : Document :=
  if css.isEmpty then document
  else
    let (document, head) := ensureHead document
    match (document.children head).find? (document.isNamed "style") with
    | some style => document.appendText style css
    | none =>
        let styled := document.appendChild head (newElement "style" [("type", "text/css")])
        styled.appendText document.size css

/-- Append one link to a style sheet, on a line of its own. -/
def addLink (head : Nat) (document : Document) (href : String) : Document :=
  (document.appendText head "\n").appendChild head
    (newElement "link" [("rel", "stylesheet"), ("type", "text/css"), ("href", href)])

/-- Append links to style sheets between marker comments. -/
def addLinks (document : Document) (hrefs : List String) : Document :=
  let (document, head) := ensureHead document
  let opened := (document.appendText head "\n").appendChild head (.comment linksBegin)
  let linked := hrefs.foldl (addLink head) opened
  ((linked.appendText head "\n").appendChild head (.comment linksEnd)).appendText head "\n"

end Page
end MailPress
