import MailPress.Markdown.Inline

/-!
# Lines of a Markdown text

A line is read from left to right by columns, since a tab fills up to the next
multiple of four and may be taken in part. What starts a block is recognized on
what is left of the line after its indentation.
-/

namespace MailPress
namespace Markdown

/-- What is left of a line. -/
structure Line where
  /-- The column where the rest starts. -/
  column : Nat
  /-- The blanks that are left of a tab that was taken in part. -/
  pending : Nat
  /-- The rest. -/
  rest : List Char
  /-- Whether the line is ended by a line break, and not by the end of the text. -/
  isEnded : Bool
  deriving DecidableEq, Repr, Inhabited

/-- A whole line. -/
def Line.whole (content : List Char) (isEnded : Bool) : Line :=
  ⟨0, 0, content, isEnded⟩

/-- The lines of a text, after the given characters of the first one. -/
def linesFrom (begun : List Char) : List Char → List Line
  | [] => if begun.isEmpty then [] else [.whole begun.reverse false]
  | '\r' :: '\n' :: rest => .whole begun.reverse true :: linesFrom [] rest
  | c :: rest =>
      if c = '\n' || c = '\r' then .whole begun.reverse true :: linesFrom [] rest
      else linesFrom (c :: begun) rest

/-- The lines of a text. -/
def linesOf (text : List Char) : List Line :=
  linesFrom [] text

/-- Whether nothing but blanks is left. -/
def Line.isBlank (line : Line) : Bool :=
  line.rest.all isLineBlank

/-- The text that is left. -/
def Line.text (line : Line) : List Char :=
  List.replicate line.pending ' ' ++ line.rest

/-- The text that is left, with its line break. -/
def Line.source (line : Line) : List Char :=
  if line.isEnded then line.text ++ ['\n'] else line.text

/-- Skip characters that are one column wide. -/
def Line.skip (line : Line) (count : Nat) : Line :=
  { line with column := line.column + count, rest := line.rest.drop count }

/-- Take blanks from a line up to the wanted number of columns: how many were taken, and the
line after them. -/
def takeColumns (isEnded : Bool) :
    (wanted column pending : Nat) → List Char → Nat × Line
  | 0, column, pending, rest => (0, ⟨column, pending, rest, isEnded⟩)
  | wanted + 1, column, pending + 1, rest =>
      let (taken, line) := takeColumns isEnded wanted column pending rest
      (taken + 1, line)
  | wanted + 1, column, 0, ' ' :: rest =>
      let (taken, line) := takeColumns isEnded wanted (column + 1) 0 rest
      (taken + 1, line)
  | wanted + 1, column, 0, '\t' :: rest =>
      let width := 4 - column % 4
      let (taken, line) := takeColumns isEnded wanted (column + width) (width - 1) rest
      (taken + 1, line)
  | _ + 1, column, 0, rest => (0, ⟨column, 0, rest, isEnded⟩)

/-- Take blanks from a line up to the wanted number of columns. -/
def Line.takeBlanks (line : Line) (wanted : Nat) : Nat × Line :=
  takeColumns line.isEnded wanted line.column line.pending line.rest

/-- Whether a line is a rule: three or more of one mark. -/
def isRule (text : List Char) : Bool :=
  let marks := text.filter fun c => !isGap c
  3 ≤ marks.length && (['*', '-', '_'].any fun mark => marks.all (· == mark))

/-- The level and the text of a heading. -/
def heading? (text : List Char) : Option (Nat × List Char) :=
  let level := (text.takeWhile (· == '#')).length
  let after := text.drop level
  if level = 0 || 6 < level || !after.head?.all isGap then none
  else
    let content := Text.trimEndOf isGap (Text.trimStartOf isGap after)
    let opened := Text.trimEndOf (· == '#') content
    if opened.getLast?.all isGap then some (level, Text.trimEndOf isGap opened)
    else some (level, content)

/-- The level of the heading that a line makes of the text above it. -/
def underline? (text : List Char) : Option Nat :=
  let marks := Text.trimEndOf isGap text
  if marks.isEmpty then none
  else if marks.all (· == '=') then some 1
  else if marks.all (· == '-') then some 2
  else none

/-- The fence of a block of code. -/
structure Fence where
  /-- The mark. -/
  mark : Char
  /-- How many marks. -/
  count : Nat
  /-- What stands after the marks. -/
  info : List Char
  deriving DecidableEq, Repr, Inhabited

/-- The fence that a line opens. -/
def fence? (text : List Char) : Option Fence :=
  match text with
  | [] => none
  | mark :: _ =>
      let count := (text.takeWhile (· == mark)).length
      let info := Text.trimEndOf isGap (Text.trimStartOf isGap (text.drop count))
      if (mark != '`' && mark != '~') || count < 3 then none
      else if mark = '`' && info.contains '`' then none
      else some ⟨mark, count, info⟩

/-- Whether a line closes a fence. -/
def Fence.isClosedBy (fence : Fence) (text : List Char) : Bool :=
  let marks := Text.trimEndOf isGap text
  fence.count ≤ marks.length && marks.all (· == fence.mark)

/-- The mark of a list item. -/
structure Marker where
  /-- The number of the item in an ordered list. -/
  number : Option Nat
  /-- The mark, or the character after the number. -/
  mark : Char
  /-- How many columns the content is indented from the mark. -/
  width : Nat
  /-- Whether the item is empty. -/
  isEmpty : Bool
  deriving DecidableEq, Repr, Inhabited

/-- Finish reading the mark of an item: its content starts after one blank to four blanks, or
after one blank if it is code. -/
def finishMarker (number : Option Nat) (mark : Char) (width : Nat) (line : Line) :
    Option (Marker × Line) :=
  if line.isBlank then some (⟨number, mark, width + 1, true⟩, line)
  else
    match line.takeBlanks 1 with
    | (0, _) => none
    | (_, line) =>
        let (more, after) := line.takeBlanks 4
        if more < 4 then some (⟨number, mark, width + 1 + more, false⟩, after)
        else some (⟨number, mark, width + 1, false⟩, line)

/-- The mark of the item that a line starts, and what is left of the line. -/
def marker? (line : Line) : Option (Marker × Line) :=
  match line.rest with
  | [] => none
  | c :: _ =>
      if c = '-' || c = '+' || c = '*' then
        if isRule line.rest then none else finishMarker none c 1 (line.skip 1)
      else
        let digits := line.rest.takeWhile Text.isAsciiDigit
        match line.rest.drop digits.length with
        | mark :: _ =>
            if digits.isEmpty || 9 < digits.length || (mark != '.' && mark != ')') then none
            else
              finishMarker (some (Text.decimalValue digits)) mark (digits.length + 1)
                (line.skip (digits.length + 1))
        | [] => none

/-- What ends a block of markup. -/
inductive MarkupEnd
  /-- The line that holds a text. -/
  | through (mark : List Char)
  /-- The line before a blank one. -/
  | beforeBlank
  deriving DecidableEq, Repr, Inhabited

/-- The elements whose content is kept as it is. -/
def rawElements : List String :=
  ["pre", "style", "script", "textarea"]

/-- The elements that make a block of markup. -/
def blockElements : List String :=
  ["address", "article", "aside", "base", "basefont", "blockquote", "body", "caption", "center",
    "col", "colgroup", "dd", "details", "dialog", "dir", "div", "dl", "dt", "fieldset",
    "figcaption", "figure", "footer", "form", "frame", "frameset", "h1", "h2", "h3", "h4", "h5",
    "h6", "head", "header", "hr", "html", "iframe", "legend", "li", "link", "main", "menu",
    "menuitem", "nav", "noframes", "ol", "optgroup", "option", "p", "param", "search", "section",
    "summary", "table", "tbody", "td", "tfoot", "th", "thead", "title", "tr", "track", "ul"]

/-- The name of the tag whose angle bracket was taken, in small letters, and what follows it. -/
def tagName (text : List Char) : String × List Char :=
  let name := text.takeWhile Text.isAsciiAlphanumeric
  (Text.lower (String.ofList name), text.drop name.length)

/-- What ends the block of markup that a line starts, where it may start inside a paragraph. -/
def markupEnd? (text : List Char) : Option MarkupEnd :=
  match text with
  | '<' :: '!' :: '-' :: '-' :: _ => some (.through ['-', '-', '>'])
  | '<' :: '?' :: _ => some (.through ['?', '>'])
  | '<' :: '!' :: '[' :: 'C' :: 'D' :: 'A' :: 'T' :: 'A' :: '[' :: _ =>
      some (.through [']', ']', '>'])
  | '<' :: '!' :: c :: _ => if Text.isAsciiLetter c then some (.through ['>']) else none
  | '<' :: rest =>
      let (name, after) := tagName rest
      if rawElements.contains name && after.head?.all (fun c => isGap c || c == '>') then
        some (.through ("</" ++ name ++ ">").toList)
      else
        let (name, after) := tagName (if rest.head? = some '/' then rest.drop 1 else rest)
        let isClosed := after.head?.all (fun c => isGap c || c == '>') || after.take 2 == ['/', '>']
        if blockElements.contains name && isClosed then some .beforeBlank else none
  | _ => none

/-- Whether a line is one tag and no more. -/
def isLoneTag (text : List Char) : Bool :=
  match text with
  | '<' :: rest => (dropTag? rest).any (·.all isGap)
  | _ => false

/-- Whether what is left of a line starts a block inside a paragraph. A list inside a paragraph
starts with an item that is not empty and has no other number than one, unless the line has left
the block of the paragraph. -/
def interrupts (isInside : Bool) (line : Line) : Bool :=
  isRule line.rest || (heading? line.rest).isSome || (fence? line.rest).isSome ||
    line.rest.head? == some '>' || (markupEnd? line.rest).isSome ||
    (marker? line).any fun (marker, _) =>
      !isInside || (!marker.isEmpty && marker.number.all (· == 1))

end Markdown
end MailPress
