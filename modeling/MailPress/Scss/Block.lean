import MailPress.Text.Blank

/-!
# Blocks

The outline of a style sheet: lines, comments and blocks with a head. The source
is first cut at the semicolons and braces that are outside strings, comments,
parentheses and holes, and the pieces are then nested.

A brace that closes nothing, a block without end, and a string or a parenthesis
without end make a source that has no outline.
-/

namespace MailPress
namespace Scss

/-- A piece of the source. -/
inductive Fragment
  /-- Text up to a semicolon, to a closing brace, or to the end. -/
  | line (text : List Char)
  /-- Text up to an opening brace. -/
  | opening (head : List Char)
  /-- A closing brace. -/
  | closing
  /-- A comment between lines, with the column it starts in. -/
  | comment (text : List Char) (column : Nat)
  deriving DecidableEq, Repr

/-- What a place of the source is inside of. -/
inductive Surrounding
  /-- Plain text. -/
  | plain
  /-- A string, up to its quote. -/
  | quoted (quote : Char)
  /-- A comment up to the end of the line. -/
  | silent
  /-- A comment in the middle of text. -/
  | inner
  /-- A comment between lines, that started in a column. -/
  | loud (column : Nat)
  deriving DecidableEq, Repr

/-- Where a scan of the source stands. -/
structure Place where
  /-- What the place is inside of. -/
  surrounding : Surrounding
  /-- Open parentheses and brackets. -/
  parentheses : Nat
  /-- Open braces of holes. -/
  holes : Nat
  /-- Whether the innermost parenthesis holds an address. -/
  address : Bool
  /-- The characters since the last line feed. -/
  column : Nat
  deriving DecidableEq, Repr

namespace Place

/-- The start of a source. -/
def start : Place :=
  ⟨.plain, 0, 0, false, 0⟩

/-- The place after some characters of one line. -/
def advance (place : Place) (count : Nat) : Place :=
  { place with column := place.column + count }

/-- The place after a character of plain text, given the text before it from the back. -/
def after (place : Place) (before : List Char) (c : Char) : Place :=
  let place := if c = '\n' then { place with column := 0 } else place.advance 1
  if c = '"' || c = '\'' then { place with surrounding := .quoted c }
  else if c = '(' then
    { place with
      parentheses := place.parentheses + 1
      address := (before.take 3).map Char.toLower == ['l', 'r', 'u'] }
  else if c = '[' then { place with parentheses := place.parentheses + 1 }
  else if c = ')' || c = ']' then
    { place with parentheses := place.parentheses - 1, address := false }
  else if c = '{' then { place with holes := place.holes + 1 }
  else if c = '}' then { place with holes := place.holes - 1 }
  else place

/-- Whether lines can end here. -/
def atTop (place : Place) : Bool :=
  place.parentheses = 0 && place.holes = 0

end Place

/-- The line that the characters before a place make up; none when they are blank. -/
def lineOf (before : List Char) : List Fragment :=
  if before.all Text.isBlank then [] else [.line (Text.trim before.reverse)]

/-- Whether the characters before a place, from the back, start the value of a custom property,
in which braces belong to the text. -/
def inCustomValue (before : List Char) : Bool :=
  match before.reverse.dropWhile Text.isBlank with
  | '-' :: '-' :: rest => rest.contains ':'
  | _ => false

/-- Cut a source into fragments, after skipping the given number of characters. `before` holds
the characters of the current line from the back. None when something has no end. -/
def fragmentsFrom :
    (skip : Nat) → Place → (before : List Char) → List Char → Option (List Fragment)
  | _, place, before, [] =>
      match place.surrounding with
      | .plain | .silent => if place.atTop then some (lineOf before) else none
      | _ => none
  | skip + 1, place, before, _ :: rest => fragmentsFrom skip place before rest
  | 0, place, before, c :: rest =>
      match place.surrounding with
      | .quoted quote =>
          match c, rest with
          | '\\', d :: _ => fragmentsFrom 1 (place.advance 2) (d :: c :: before) rest
          | _, _ =>
              if c = '\n' then none
              else
                let next := if c = quote then Surrounding.plain else place.surrounding
                fragmentsFrom 0 { place.advance 1 with surrounding := next } (c :: before) rest
      | .silent =>
          if c = '\n' then
            fragmentsFrom 0 { place with surrounding := .plain, column := 0 } (c :: before) rest
          else fragmentsFrom 0 (place.advance 1) before rest
      | .inner =>
          match c, rest with
          | '*', '/' :: _ =>
              fragmentsFrom 1 { place.advance 2 with surrounding := .plain } (' ' :: before) rest
          | _, _ => fragmentsFrom 0 (place.advance 1) before rest
      | .loud column =>
          match c, rest with
          | '*', '/' :: _ =>
              (fragmentsFrom 1 { place.advance 2 with surrounding := .plain } [] rest).map
                (.comment ('/' :: '*' :: (before.reverse ++ ['*', '/'])) column :: ·)
          | _, _ =>
              fragmentsFrom 0 (if c = '\n' then { place with column := 0 } else place.advance 1)
                (c :: before) rest
      | .plain =>
          match c, rest with
          | '\\', d :: _ => fragmentsFrom 1 (place.advance 2) (d :: c :: before) rest
          | '/', '/' :: _ =>
              if place.address then
                fragmentsFrom 1 (place.advance 2) (c :: c :: before) rest
              else fragmentsFrom 1 { place.advance 2 with surrounding := .silent } before rest
          | '/', '*' :: _ =>
              if place.atTop && before.all Text.isBlank then
                fragmentsFrom 1 { place.advance 2 with surrounding := .loud place.column } [] rest
              else fragmentsFrom 1 { place.advance 2 with surrounding := .inner } before rest
          | '#', '{' :: _ =>
              fragmentsFrom 1 { place.advance 2 with holes := place.holes + 1 }
                ('{' :: '#' :: before) rest
          | _, _ =>
              if place.atTop && c = ';' then
                (fragmentsFrom 0 (place.advance 1) [] rest).map (lineOf before ++ ·)
              else if place.atTop && c = '{' && !inCustomValue before then
                (fragmentsFrom 0 (place.advance 1) [] rest).map
                  (.opening (Text.trim before.reverse) :: ·)
              else if place.atTop && c = '}' then
                (fragmentsFrom 0 (place.advance 1) [] rest).map
                  (lineOf before ++ .closing :: ·)
              else fragmentsFrom 0 (place.after before c) (c :: before) rest

/-- A part of the outline of a style sheet. -/
inductive Outline
  /-- A line. -/
  | line (text : List Char)
  /-- A comment, with the column it starts in. -/
  | comment (text : List Char) (column : Nat)
  /-- A block with its head. -/
  | block (head : List Char) (body : List Outline)
  deriving Repr

/-- A block that is still open: its head, and what stands before it. -/
structure OpenBlock where
  /-- The head of the block. -/
  head : List Char
  /-- The parts before the block, last first. -/
  before : List Outline

/-- Nest fragments below the open blocks, innermost first. `parts` holds what the innermost
block has so far, last first. -/
def nestFragments : List OpenBlock → (parts : List Outline) → List Fragment →
    Option (List Outline)
  | [], parts, [] => some parts.reverse
  | _ :: _, _, [] => none
  | blocks, parts, .line text :: rest => nestFragments blocks (.line text :: parts) rest
  | blocks, parts, .comment text column :: rest =>
      nestFragments blocks (.comment text column :: parts) rest
  | blocks, parts, .opening head :: rest => nestFragments (⟨head, parts⟩ :: blocks) [] rest
  | [], _, .closing :: _ => none
  | block :: blocks, parts, .closing :: rest =>
      nestFragments blocks (.block block.head parts.reverse :: block.before) rest

/-- The outline of a source. -/
def outlineOf (source : List Char) : Option (List Outline) :=
  (fragmentsFrom 0 .start [] source).bind (nestFragments [] [])

end Scss
end MailPress
