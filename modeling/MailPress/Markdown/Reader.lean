import MailPress.Markdown.Block

/-!
# Reading the blocks of a Markdown text

The text is read line by line. Quotes and list items are open as long as each line
goes on with them; inside them at most one paragraph, block of code or block of
markup is open, and it is offered the line first.

A list is loose if a blank line separates two of its items, or two blocks of one.
-/

namespace MailPress
namespace Markdown

/-- A block that holds blocks and is open. Its blocks are kept from the back. -/
inductive Frame
  /-- A quote. -/
  | quote (children : List Block)
  /-- A list: its items so far, from the back, and the open one with the columns that its
  content is indented by. -/
  | list (start : Option Nat) (mark : Char) (isTight : Bool) (items : List (List Block))
      (item : Option (Nat × List Block))
  deriving Repr, Inhabited

/-- The block of lines that is open. Its lines are kept from the back. -/
inductive Leaf
  /-- None is. -/
  | nothing
  /-- A paragraph. -/
  | paragraph (lines : List (List Char))
  /-- Code in a fence that is indented by so many columns. -/
  | fenced (fence : Fence) (indent : Nat) (lines : List (List Char))
  /-- Code that is indented, and the blank lines at its end. -/
  | indented (lines blanks : List (List Char))
  /-- Markup. -/
  | markup (finish : MarkupEnd) (lines : List (List Char))
  deriving Repr, Inhabited

/-- A text that is being read. -/
structure Reading where
  /-- The finished blocks outside of open ones, from the back. -/
  blocks : List Block
  /-- The open blocks that hold blocks, the innermost first. -/
  frames : List Frame
  /-- The open block of lines. -/
  leaf : Leaf
  /-- Whether the line before was blank. -/
  isAfterBlank : Bool
  /-- Whether the line before started an item and had nothing more. -/
  isAfterMark : Bool
  /-- The labels that are defined. -/
  definitions : Definitions
  deriving Repr, Inhabited

/-- Add a finished block. -/
def Reading.put (reading : Reading) (block : Block) : Reading :=
  match reading.frames with
  | [] => { reading with blocks := block :: reading.blocks }
  | .quote children :: outer => { reading with frames := .quote (block :: children) :: outer }
  | .list start mark isTight items (some (indent, children)) :: outer =>
      { reading with
        frames := .list start mark isTight items (some (indent, block :: children)) :: outer }
  | .list start mark isTight items none :: outer =>
      { reading with frames := .list start mark isTight ([block] :: items) none :: outer }

/-- Close the open item of the innermost list. -/
def Reading.closeItem (reading : Reading) : Reading :=
  match reading.frames with
  | .list start mark isTight items (some (_, children)) :: outer =>
      { reading with
        frames := .list start mark isTight (children.reverse :: items) none :: outer }
  | _ => reading

/-- Close the innermost open block. -/
def Reading.closeFrame (reading : Reading) : Reading :=
  let reading := reading.closeItem
  match reading.frames with
  | .quote children :: outer => { reading with frames := outer }.put (.quote children.reverse)
  | .list start _ isTight items _ :: outer =>
      { reading with frames := outer }.put (.list start isTight items.reverse)
  | [] => reading

/-- Close open blocks, the innermost first. -/
def Reading.closeFrames : Nat → Reading → Reading
  | 0, reading => reading
  | count + 1, reading => closeFrames count reading.closeFrame

/-- The lines of a block in their order. -/
def joinLines (lines : List (List Char)) : List Char :=
  lines.reverse.flatten

/-- The language of code after a fence. -/
def languageOf (info : List Char) : List Char :=
  (unescape info).takeWhile (· != ' ')

/-- The text of a paragraph after its definitions, and all definitions. -/
def Reading.paragraphText (reading : Reading) (lines : List (List Char)) :
    Definitions × List Char :=
  let text := ['\n'].intercalate lines.reverse
  takeDefinitions text.length reading.definitions text

/-- Close the open block of lines. -/
def Reading.closeLeaf (reading : Reading) : Reading :=
  let closed := { reading with leaf := .nothing }
  match reading.leaf with
  | .nothing => reading
  | .paragraph lines =>
      let (definitions, text) := reading.paragraphText lines
      let closed := { closed with definitions := definitions }
      if text.isEmpty then closed else closed.put (.paragraph (Text.trimEndOf isGap text))
  | .fenced fence _ lines => closed.put (.code (languageOf fence.info) (joinLines lines))
  | .indented lines blanks =>
      { closed with isAfterBlank := !blanks.isEmpty }.put (.code [] (joinLines lines))
  | .markup _ lines => closed.put (.markup (joinLines lines))

/-- How far the open blocks go on in a line. -/
structure Extent where
  /-- How many of them do. -/
  count : Nat
  /-- Whether the innermost of these is a list whose item does not. -/
  endsItem : Bool
  /-- What is left of the line. -/
  line : Line
  deriving Repr, Inhabited

/-- The line after the mark of a quote. -/
def takeQuoteMark? (line : Line) : Option Line :=
  let (_, line) := line.takeBlanks 3
  if line.rest.head? = some '>' then some ((line.skip 1).takeBlanks 1).2 else none

/-- How far open blocks, the outermost first, go on in a line. -/
def extentOf (count : Nat) (line : Line) : List Frame → Extent
  | [] => ⟨count, false, line⟩
  | .quote _ :: inner =>
      match takeQuoteMark? line with
      | some line => extentOf (count + 1) line inner
      | none => ⟨count, false, line⟩
  | .list _ _ _ _ none :: inner => extentOf (count + 1) line inner
  | .list _ _ _ _ (some (indent, _)) :: inner =>
      let (taken, after) := line.takeBlanks indent
      if taken = indent || after.isBlank then extentOf (count + 1) after inner
      else ⟨count + 1, true, line⟩

/-- Offer a line to the open block of lines. -/
def Reading.extendLeaf? (reading : Reading) (extent : Extent) : Option Reading :=
  let isInside := extent.count = reading.frames.length && !extent.endsItem
  let (indent, rest) := extent.line.takeBlanks 4
  match reading.leaf with
  | .nothing => none
  | .paragraph lines =>
      let more := { reading with leaf := .paragraph (Text.trimStartOf isGap rest.rest :: lines) }
      if rest.isBlank then none
      else if 4 ≤ indent then some more
      else
        match if isInside then underline? rest.rest else none with
        | some level =>
            let (definitions, text) := reading.paragraphText lines
            if text.isEmpty then some more
            else
              some
                ({ reading with leaf := .nothing, definitions := definitions }.put
                  (.heading level (Text.trimEndOf isGap text)))
        | none => if interrupts isInside rest then none else some more
  | .fenced fence width lines =>
      if !isInside then none
      else if indent < 4 && fence.isClosedBy rest.rest then some reading.closeLeaf
      else
        let line := (extent.line.takeBlanks width).2.source
        some { reading with leaf := .fenced fence width (line :: lines) }
  | .indented lines blanks =>
      if !isInside then none
      else if rest.isBlank then
        some { reading with leaf := .indented lines (rest.source :: blanks) }
      else if 4 ≤ indent then
        some { reading with leaf := .indented (rest.source :: (blanks ++ lines)) [] }
      else none
  | .markup finish lines =>
      let more := { reading with leaf := .markup finish (extent.line.source :: lines) }
      if !isInside then none
      else
        match finish with
        | .beforeBlank => if rest.isBlank then none else some more
        | .through mark =>
            if Text.occursIn mark extent.line.rest then some more.closeLeaf else some more

/-- Make the innermost list loose. -/
def loosen : List Frame → List Frame
  | .list start mark _ items item :: outer => .list start mark false items item :: outer
  | frames => frames

/-- Close the innermost list if it has no open item, since a block that is no item follows it. A
blank line before a block makes the list loose whose item the block is in. -/
def Reading.leaveList (reading : Reading) : Reading :=
  let reading :=
    match reading.frames with
    | .list _ _ _ _ none :: _ => reading.closeFrame
    | _ => reading
  if reading.isAfterBlank then
    { reading with frames := loosen reading.frames, isAfterBlank := false }
  else reading

/-- Start an item: of the innermost list if it has no open item and the mark is the same, or else
of a new list. -/
def Reading.startItem (reading : Reading) (marker : Marker) (indent : Nat) : Reading :=
  let item := some (indent + marker.width, [])
  let started : Option (List Frame) :=
    match reading.frames with
    | .list start mark isTight items none :: outer =>
        if mark = marker.mark then
          some (.list start mark (isTight && !reading.isAfterBlank) items item :: outer)
        else none
    | _ => none
  match started with
  | some frames => { reading with frames := frames, isAfterBlank := false }
  | none =>
      let reading := reading.leaveList
      { reading with
        frames := .list marker.number marker.mark true [] item :: reading.frames }

/-- Open the quotes and items that a line starts, and give what is left of the line; `limit` bounds
their number. -/
def openFrames : (limit : Nat) → Reading → Line → Reading × Line
  | 0, reading, line => (reading, line)
  | limit + 1, reading, line =>
      let (indent, after) := line.takeBlanks 4
      if 4 ≤ indent then (reading, line)
      else
        match marker? after with
        | some (marker, rest) =>
            let started := reading.startItem marker indent
            if marker.isEmpty then ({ started with isAfterMark := true }, rest)
            else openFrames limit started rest
        | none =>
            match takeQuoteMark? line with
            | some rest =>
                let left := reading.leaveList
                openFrames limit { left with frames := .quote [] :: left.frames } rest
            | none => (reading, line)

/-- Read a blank line that no open block took. An item that starts with a blank line has no more
than that. -/
def Reading.readBlank (reading : Reading) (isAfterMark : Bool) : Reading :=
  match reading.frames with
  | .quote _ :: _ => reading
  | _ =>
      let reading := { reading with isAfterBlank := true }
      if isAfterMark then reading.closeItem else reading

/-- Start the block of lines that a line begins. -/
def Reading.startLeaf (reading : Reading) (line : Line) : Reading :=
  let reading := reading.leaveList
  let (indent, rest) := line.takeBlanks 4
  if 4 ≤ indent then { reading with leaf := .indented [rest.source] [] }
  else
    let finish :=
      match markupEnd? rest.rest with
      | some finish => some finish
      | none => if isLoneTag rest.rest then some .beforeBlank else none
    match finish with
    | some (.through mark) =>
        let opened := { reading with leaf := .markup (.through mark) [line.source] }
        if Text.occursIn mark rest.rest then opened.closeLeaf else opened
    | some .beforeBlank => { reading with leaf := .markup .beforeBlank [line.source] }
    | none =>
        if isRule rest.rest then reading.put .rule
        else
          match heading? rest.rest, fence? rest.rest with
          | some (level, text), _ => reading.put (.heading level text)
          | none, some fence => { reading with leaf := .fenced fence indent [] }
          | none, none => { reading with leaf := .paragraph [rest.rest] }

/-- Read a line. -/
def Reading.readLine (reading : Reading) (line : Line) : Reading :=
  let extent := extentOf 0 line reading.frames.reverse
  let isAfterMark := reading.isAfterMark
  let reading := { reading with isAfterMark := false }
  match reading.extendLeaf? extent with
  | some reading => reading
  | none =>
      let reading := reading.closeLeaf
      let reading := reading.closeFrames (reading.frames.length - extent.count)
      let reading := if extent.endsItem then reading.closeItem else reading
      let (reading, rest) := openFrames (line.rest.length + 1) reading extent.line
      if reading.isAfterMark then reading
      else if rest.isBlank then reading.readBlank isAfterMark
      else reading.startLeaf rest

/-- The blocks of a text, and the labels that it defines. -/
def readBlocks (text : List Char) : List Block × Definitions :=
  let reading := (linesOf text).foldl Reading.readLine ⟨[], [], .nothing, false, false, []⟩
  let reading := reading.closeLeaf
  let reading := reading.closeFrames reading.frames.length
  (reading.blocks.reverse, reading.definitions)

end Markdown
end MailPress
