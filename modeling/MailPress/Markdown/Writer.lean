import MailPress.Markdown.Reader

/-!
# Markup of a Markdown text

Blocks and inline text written as markup, for use inside of markup that is there
already: a paragraph is not made an element, paragraphs are separated by line
breaks, and an address that stands for itself stays text.
-/

namespace MailPress
namespace Markdown

/-- A character of text in markup. -/
def escapeTextChar (c : Char) : List Char :=
  if c = '&' then "&amp;".toList
  else if c = '<' then "&lt;".toList
  else if c = '>' then "&gt;".toList
  else [c]

/-- A character of an attribute value. -/
def escapeValueChar (c : Char) : List Char :=
  if c = '"' then "&quot;".toList else escapeTextChar c

/-- Text in markup. -/
def escapeText (text : List Char) : List Char :=
  text.flatMap escapeTextChar

/-- An attribute value. -/
def escapeValue (text : List Char) : List Char :=
  text.flatMap escapeValueChar

/-- Whether a character of an address is written as it is. -/
def isPlainInAddress (c : Char) : Bool :=
  Text.isAsciiAlphanumeric c || "!#$%()*+,-./:;=?@_~".toList.contains c

/-- A byte written with a percent sign. -/
def percentByte (byte : UInt8) : List Char :=
  let digit := fun value => (Text.hexDigit value).toUpper
  ['%', digit (byte.toNat / 16), digit (byte.toNat % 16)]

/-- A character of an address. -/
def escapeAddressChar (c : Char) : List Char :=
  if isPlainInAddress c then [c]
  else if c = '&' then "&amp;".toList
  else if c = '\'' then "&#x27;".toList
  else c.toString.toUTF8.toList.flatMap percentByte

/-- An address. -/
def escapeAddress (address : List Char) : List Char :=
  address.flatMap escapeAddressChar

mutual

/-- The text of inline text, as an attribute value. -/
def plainInline : Inline → List Char
  | .text content | .code content | .markup content | .address content => escapeValue content
  | .softBreak | .hardBreak => [' ']
  | .emphasis children | .strong children | .struck children => plainInlines children
  | .link _ _ children | .image _ _ children => plainInlines children

/-- The text of inline text, as an attribute value. -/
def plainInlines : List Inline → List Char
  | [] => []
  | inline :: rest => plainInline inline ++ plainInlines rest

end

/-- The title attribute, if there is a title. -/
def titleAttribute (title : List Char) : List Char :=
  if title.isEmpty then [] else " title=\"".toList ++ escapeValue title ++ ['"']

mutual

/-- Write inline text. -/
def writeInline : Inline → List Char
  | .text content | .address content => escapeText content
  | .code content => "<code>".toList ++ escapeText content ++ "</code>".toList
  | .markup content => content
  | .softBreak => ['\n']
  | .hardBreak => "<br />\n".toList
  | .emphasis children => "<em>".toList ++ writeInlines children ++ "</em>".toList
  | .strong children => "<strong>".toList ++ writeInlines children ++ "</strong>".toList
  | .struck children => "<del>".toList ++ writeInlines children ++ "</del>".toList
  | .link destination title children =>
      "<a href=\"".toList ++ escapeAddress destination ++ ['"'] ++ titleAttribute title ++
        ['>'] ++ writeInlines children ++ "</a>".toList
  | .image destination title children =>
      "<img src=\"".toList ++ escapeAddress destination ++ "\" alt=\"".toList ++
        plainInlines children ++ ['"'] ++ titleAttribute title ++ " />".toList

/-- Write inline text. -/
def writeInlines : List Inline → List Char
  | [] => []
  | inline :: rest => writeInline inline ++ writeInlines rest

end

/-- What was written so far. -/
structure Written where
  /-- The text. -/
  text : String
  /-- Whether a paragraph was written. -/
  hasParagraph : Bool
  deriving DecidableEq, Repr, Inhabited

/-- Write text. -/
def Written.add (written : Written) (text : String) : Written :=
  { written with text := written.text ++ text }

/-- Write text at the start of a line. -/
def Written.addLine (written : Written) (text : String) : Written :=
  let isAtStart := written.text.isEmpty || Text.hasEnd "\n" written.text
  written.add (if isAtStart then text else "\n" ++ text)

/-- Write inline text. -/
def Written.addInline
    (written : Written)
    (definitions : Definitions)
    (text : List Char) :
    Written :=
  written.add (String.ofList (writeInlines (readInline definitions text)))

/-- The tag that opens a list. -/
def listTag : Option Nat → String
  | none => "<ul>\n"
  | some start => if start = 1 then "<ol>\n" else s!"<ol start=\"{start}\">\n"

mutual

/-- Write a block; a tight paragraph is not separated from what is before it. -/
def writeBlock
    (definitions : Definitions)
    (isTight : Bool)
    (written : Written) :
    Block → Written
  | .paragraph text =>
      if isTight then written.addInline definitions text
      else
        let separated := if written.hasParagraph then written.add "\n" else written
        { separated with hasParagraph := true }.addInline definitions text
  | .heading level text =>
      ((written.addLine s!"<h{level}>").addInline definitions text).add s!"</h{level}>\n"
  | .rule => written.addLine "<hr />\n"
  | .code language content =>
      let languageClass :=
        if language.isEmpty then ""
        else " class=\"language-" ++ String.ofList (escapeValue language) ++ "\""
      (written.addLine ("<pre><code" ++ languageClass ++ ">")).add
        (String.ofList (escapeText content) ++ "</code></pre>\n")
  | .markup content => written.add (String.ofList content)
  | .quote children =>
      (writeBlocks definitions false (written.addLine "<blockquote>\n") children).add
        "</blockquote>\n"
  | .list start isTight items =>
      (writeItems definitions isTight (written.addLine (listTag start)) items).add
        (if start.isSome then "</ol>\n" else "</ul>\n")

/-- Write blocks. -/
def writeBlocks
    (definitions : Definitions)
    (isTight : Bool)
    (written : Written) :
    List Block → Written
  | [] => written
  | block :: rest =>
      writeBlocks definitions isTight (writeBlock definitions isTight written block) rest

/-- Write the items of a list. -/
def writeItems
    (definitions : Definitions)
    (isTight : Bool)
    (written : Written) :
    List (List Block) → Written
  | [] => written
  | item :: rest =>
      writeItems definitions isTight
        ((writeBlocks definitions isTight (written.addLine "<li>") item).add "</li>\n") rest

end

/-- A Markdown text as markup. -/
def write (text : String) : String :=
  let (blocks, definitions) := readBlocks text.toList
  (writeBlocks definitions false ⟨"", false⟩ blocks).text

end Markdown
end MailPress
