import MailPress.Compact.Reader
import MailPress.Compact.Sheet

/-!
# Compact pages

Pages in as few characters as they can be written, with every tag kept. Blanks are
dropped where the layout does not show them, attributes have no needless quotes, and
references stand only where a character alone would be read differently.
-/

namespace MailPress
namespace Compact

/-- How an element treats the blanks in its texts. -/
inductive Spacing
  /-- They are kept. -/
  | kept
  /-- A run of them is one. -/
  | collapsed
  /-- A run of them is one, and none stands at the ends. -/
  | trimmed
  /-- As before, and a text of blanks alone is nothing. -/
  | dropped
  deriving DecidableEq, Repr

/-- The elements that hold blocks of text. -/
def contentElements : List String :=
  ["address", "audio", "button", "canvas", "caption", "figcaption", "h1", "h2", "h3", "h4",
    "h5", "h6", "legend", "meter", "object", "option", "p", "summary", "video", "dd",
    "details", "dt", "iframe", "label", "li", "noscript", "output", "progress", "slot", "td",
    "template", "th", "title"]

/-- The elements that hold other elements. -/
def layoutElements : List String :=
  ["", "blockquote", "body", "colgroup", "datalist", "dialog", "div", "dl", "fieldset",
    "figure", "footer", "form", "head", "header", "hgroup", "html", "main", "map", "menu",
    "nav", "ol", "optgroup", "picture", "section", "select", "svg", "table", "tbody", "tfoot",
    "thead", "tr", "ul"]

/-- The elements in which every blank counts. -/
def preformattedElements : List String :=
  ["code", "pre", "textarea"]

/-- How an element treats the blanks in its texts. -/
def spacingOf (name : String) : Spacing :=
  if preformattedElements.contains name then .kept
  else if contentElements.contains name then .trimmed
  else if layoutElements.contains name then .dropped
  else .collapsed

/-- A text with every run of blanks made one; `afterBlank` tells whether one came last. -/
def collapse : (afterBlank : Bool) → List Char → List Char
  | _, [] => []
  | afterBlank, c :: rest =>
      if isSpace c then if afterBlank then collapse true rest else ' ' :: collapse true rest
      else c :: collapse false rest

/-- The text of a part as its element treats it. -/
def spaceText (spacing : Spacing) (node : Node) : Node :=
  match node, spacing with
  | .text content, .collapsed | .text content, .trimmed => .text (collapse false content)
  | .text content, .dropped =>
      if content.all isSpace then .text [] else .text (collapse false content)
  | node, _ => node

/-- Whether a part is nothing. -/
def isNothing : Node → Bool
  | .text content => content.isEmpty
  | _ => false

/-- Drop blanks at one end of parts; asides are passed over. -/
def trimFirst (trim : List Char → List Char) : List Node → List Node
  | .aside source :: rest => .aside source :: trimFirst trim rest
  | .text content :: rest =>
      if (trim content).isEmpty then trimFirst trim rest else .text (trim content) :: rest
  | nodes => nodes

/-- Parts as their element treats the blanks in them. -/
def spaceNodes (spacing : Spacing) (nodes : List Node) : List Node :=
  let spaced := (nodes.map (spaceText spacing)).filter fun node => !isNothing node
  if spacing = .trimmed || spacing = .dropped then
    let left := trimFirst (Text.trimStartOf isSpace) spaced
    (trimFirst (Text.trimEndOf isSpace) left.reverse).reverse
  else spaced

/-- Write text: an ampersand or an angle bracket is escaped where it would start something. -/
def escapeText : List Char → List Char
  | [] => []
  | c :: rest =>
      let opens := fun (next : Char) =>
        Text.isAsciiLetter next || next == '/' || next == '!' || next == '?'
      if c = '&' && (takeReference? false rest).isSome then "&amp;".toList ++ escapeText rest
      else if c = '<' && rest.head?.any opens then "&lt;".toList ++ escapeText rest
      else c :: escapeText rest

/-- Write an attribute value between quotes. -/
def escapeValue (quote : Char) (reference : String) : List Char → List Char
  | [] => []
  | c :: rest =>
      if c = '&' && (takeReference? true rest).isSome then
        "&amp;".toList ++ escapeValue quote reference rest
      else if c = quote then reference.toList ++ escapeValue quote reference rest
      else c :: escapeValue quote reference rest

/-- Whether a value needs no quotes. -/
def needsNoQuotes (value : List Char) : Bool :=
  value.all fun c => !isSpace c && !"\"'`=<>".toList.contains c

/-- An attribute value, with the quotes that it needs. -/
def writeValue (value : List Char) : List Char :=
  let double := '"' :: escapeValue '"' "&#34;" value ++ ['"']
  let single := '\'' :: escapeValue '\'' "&#39;" value ++ ['\'']
  if needsNoQuotes value then escapeValue '"' "&#34;" value
  else if single.length < double.length then single
  else double

/-- The attributes that say something by being there. -/
def flagAttributes : List String :=
  ["allowfullscreen", "async", "autofocus", "autoplay", "checked", "controls", "default",
    "defer", "disabled", "formnovalidate", "hidden", "ismap", "itemscope", "loop", "multiple",
    "muted", "nomodule", "novalidate", "open", "playsinline", "readonly", "required",
    "reversed", "selected"]

/-- The attributes that say nothing when they are empty. -/
def emptyAttributes : List String :=
  ["class", "dir", "id", "lang", "style", "title"]

/-- The values that attributes of elements have anyway. -/
def defaultValues : List (String × String × String) :=
  [("a", "target", "_self"), ("area", "shape", "rect"), ("button", "type", "submit"),
    ("col", "span", "1"), ("colgroup", "span", "1"),
    ("form", "enctype", "application/x-www-form-urlencoded"), ("form", "method", "get"),
    ("form", "target", "_self"), ("iframe", "frameborder", "1"), ("iframe", "height", "150"),
    ("iframe", "loading", "eager"), ("iframe", "width", "300"), ("img", "align", "bottom"),
    ("img", "decoding", "auto"), ("img", "loading", "eager"), ("input", "type", "text"),
    ("link", "type", "text/css"), ("script", "type", "application/javascript"),
    ("script", "type", "text/javascript"), ("style", "media", "all"),
    ("style", "type", "text/css"), ("table", "rules", "none")]

/-- An attribute in as few characters as it can be written, and whether it has quotes; none if it
says nothing. -/
def writeAttribute (element : String) (isViewport : Bool) (name : String) (value : List Char) :
    Option (List Char × Bool) :=
  let value :=
    if name = "class" then Text.trimStartOf isSpace (Text.trimEndOf isSpace (collapse false value))
    else if name = "style" then (compactStyle (String.ofList value)).toList
    else if isViewport && name = "content" then value.filter fun c => !isSpace c
    else value
  let isDefault := defaultValues.contains (element, name, String.ofList value)
  if isDefault || (value.isEmpty && emptyAttributes.contains name) then none
  else if value.isEmpty || flagAttributes.contains name then some (name.toList, false)
  else some (name.toList ++ '=' :: writeValue value, !needsNoQuotes value)

/-- Whether the attributes are those of a description of the viewport. -/
def describesViewport (attributes : List (String × List Char)) : Bool :=
  (attributes.lookup "name").any fun value =>
    Text.sameIgnoringCase (String.ofList value) "viewport"

/-- The start tag of an element: its attributes come in alphabetical order, those with quotes
first. -/
def writeStart (name : String) (attributes : List (String × List Char)) : List Char :=
  let sorted := attributes.mergeSort fun first second => first.1 ≤ second.1
  let isViewport := name = "meta" && describesViewport attributes
  let written := sorted.filterMap fun entry => writeAttribute name isViewport entry.1 entry.2
  let (quoted, plain) := written.partition Prod.snd
  '<' :: name.toList ++ ((quoted ++ plain).flatMap fun entry => ' ' :: entry.1) ++ ['>']

/-- Write what a script or a style sheet holds. -/
def writeRaw (element : String) (source : List Char) : List Char :=
  let trimmed := Text.trimStartOf isSpace (Text.trimEndOf isSpace source)
  if element = "style" then (compactSheet (String.ofList trimmed)).toList else trimmed

/-- Treat the blanks in a page; `isKept` tells whether every blank counts. -/
def spaceChildren (isKept : Bool) (name : String) (children : List Node) : List Node :=
  if isKept then children else spaceNodes (spacingOf name) children

mutual

/-- Treat the blanks inside of a part. -/
def spaceInside (isKept : Bool) : Node → Node
  | .element name attributes children =>
      let isKept := isKept || preformattedElements.contains name
      .element name attributes (spaceChildren isKept name (spaceInsideAll isKept children))
  | node => node

/-- Treat the blanks inside of parts. -/
def spaceInsideAll (isKept : Bool) : List Node → List Node
  | [] => []
  | node :: rest => spaceInside isKept node :: spaceInsideAll isKept rest

end

mutual

/-- Write a part inside of an element. -/
def writeNode (parent : String) : Node → List Char
  | .text content => escapeText content
  | .template source | .aside source => source
  | .raw source => writeRaw parent source
  | .element name attributes children =>
      if voidElements.contains name then writeStart name attributes
      else
        writeStart name attributes ++ writeNodes name children ++
          '<' :: '/' :: name.toList ++ ['>']

/-- Write parts inside of an element. -/
def writeNodes (parent : String) : List Node → List Char
  | [] => []
  | node :: rest => writeNode parent node ++ writeNodes parent rest

end

/-- A page in as few characters as it can be written. -/
def compactPage (page : String) : String :=
  let nodes := spaceChildren false "" (spaceInsideAll false (readPage page))
  String.ofList (writeNodes "" nodes)

end Compact
end MailPress
