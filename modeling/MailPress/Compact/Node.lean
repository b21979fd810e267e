import MailPress.Text.Ascii

/-!
# Markup as a browser sees it

A page as a tree of elements and texts, where elements are closed as a browser
closes them. Template code is kept as it stands, and so are comments and
declarations, which take no part in the layout.
-/

namespace MailPress
namespace Compact

/-- A part of a page. -/
inductive Node
  /-- Text, with its references replaced. -/
  | text (content : List Char)
  /-- Template code. -/
  | template (source : List Char)
  /-- A comment or a declaration. -/
  | aside (source : List Char)
  /-- What a script or a style sheet holds. -/
  | raw (source : List Char)
  /-- An element with its attributes. -/
  | element (name : String) (attributes : List (String × List Char)) (children : List Node)
  deriving Repr, Inhabited

/-- The elements that hold nothing. -/
def voidElements : List String :=
  ["area", "base", "basefont", "bgsound", "br", "col", "command", "embed", "frame", "hr",
    "image", "img", "input", "keygen", "link", "meta", "nextid", "param", "source", "track",
    "wbr"]

/-- The elements whose content is not markup. -/
def rawElements : List String :=
  ["script", "style"]

/-- The elements whose content is text alone. -/
def textElements : List String :=
  ["textarea", "title"]

/-- The elements that end a paragraph where they start. -/
def paragraphEnders : List String :=
  ["address", "article", "aside", "blockquote", "details", "div", "dl", "fieldset",
    "figcaption", "figure", "footer", "form", "h1", "h2", "h3", "h4", "h5", "h6", "header",
    "hgroup", "hr", "main", "menu", "nav", "ol", "p", "pre", "section", "table", "ul"]

/-- The elements that end an open element where they start. -/
def endersOf : String → List String
  | "li" => ["li"]
  | "dt" | "dd" => ["dt", "dd"]
  | "p" => paragraphEnders
  | "rt" | "rp" => ["rt", "rp"]
  | "optgroup" => ["optgroup"]
  | "option" => ["option", "optgroup"]
  | "thead" | "tbody" => ["tbody", "tfoot"]
  | "tr" => ["tr"]
  | "td" | "th" => ["td", "th"]
  | _ => []

/-- The elements that need no end where the element around them ends. -/
def endlessElements : List String :=
  ["html", "head", "body", "li", "dd", "rt", "rp", "optgroup", "option", "tbody", "tfoot", "tr",
    "td", "th"]

/-- The elements in which a paragraph needs an end. -/
def paragraphKeepers : List String :=
  ["a", "audio", "del", "ins", "map", "noscript", "video"]

/-- Whether an element needs no end where the element around it ends. -/
def endsWith (parent name : String) : Bool :=
  endlessElements.contains name || (name = "p" && !paragraphKeepers.contains parent)

end Compact
end MailPress
