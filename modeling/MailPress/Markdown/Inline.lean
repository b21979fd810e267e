import MailPress.Text.Blank
import MailPress.Text.Entity
import MailPress.Text.Punctuation
import MailPress.Text.Search

/-!
# Inline text of Markdown

Text with emphasis, links, images, code, markup and line breaks. It is read in
two steps: from left to right into pieces, where brackets become links as soon as
they are closed, and then runs of marks are paired into emphasis.

Marks that are not paired, and brackets that are no links, are text.
-/

namespace MailPress
namespace Markdown

/-- A part of inline text. -/
inductive Inline
  /-- Text. -/
  | text (content : List Char)
  /-- Code. -/
  | code (content : List Char)
  /-- Markup that is kept as it is. -/
  | markup (content : List Char)
  /-- An address that stands for itself. -/
  | address (content : List Char)
  /-- A line break of the source. -/
  | softBreak
  /-- A line break of the output. -/
  | hardBreak
  /-- Emphasis. -/
  | emphasis (children : List Inline)
  /-- Strong emphasis. -/
  | strong (children : List Inline)
  /-- Text that is struck through. -/
  | struck (children : List Inline)
  /-- A link. -/
  | link (destination title : List Char) (children : List Inline)
  /-- An image. -/
  | image (destination title : List Char) (children : List Inline)
  deriving Repr, Inhabited

/-- The target of a link, with its title. -/
structure Target where
  /-- Where the link leads. -/
  destination : List Char
  /-- Its title. -/
  title : List Char
  deriving DecidableEq, Repr, Inhabited

/-- The targets of a text by their labels. -/
abbrev Definitions :=
  List (List Char × Target)

/-- The blanks that separate words in Markdown. -/
def isGap (c : Char) : Bool :=
  c == ' ' || c == '\t' || c == '\n' || c == '\r'

/-- The character that a numeric reference denotes. -/
def characterOfCode (code : Nat) : Char :=
  if code = 0 || 0x10FFFF < code || (0xD800 ≤ code && code ≤ 0xDFFF) then Char.ofNat 0xFFFD
  else Char.ofNat code

/-- The reference at the start of a text after its ampersand: what it denotes, and what is left. -/
def takeReference? (text : List Char) : Option (List Char × List Char) :=
  let numeric := fun (isDigit : Char → Bool) (value : List Char → Nat) (most : Nat)
      (rest : List Char) =>
    let digits := rest.takeWhile isDigit
    match rest.drop digits.length with
    | ';' :: after =>
        if digits.isEmpty || most < digits.length then none
        else some ([characterOfCode (value digits)], after)
    | _ => none
  match text with
  | '#' :: 'x' :: rest | '#' :: 'X' :: rest =>
      numeric Text.isHexDigit Text.hexadecimalValue 6 rest
  | '#' :: rest => numeric Text.isAsciiDigit Text.decimalValue 7 rest
  | _ =>
      let name := text.takeWhile Text.isAsciiAlphanumeric
      match text.drop name.length with
      | ';' :: after => (Text.namedCharacters? name).map fun characters => (characters, after)
      | _ => none

/-- Replace escapes and references, after skipping the given number of characters. -/
def unescapeFrom : Nat → List Char → List Char
  | _, [] => []
  | skip + 1, _ :: rest => unescapeFrom skip rest
  | 0, '\\' :: c :: rest =>
      if Text.isAsciiPunctuation c then c :: unescapeFrom 1 (c :: rest)
      else '\\' :: unescapeFrom 0 (c :: rest)
  | 0, '&' :: rest =>
      match takeReference? rest with
      | some (characters, after) =>
          characters ++ unescapeFrom (rest.length - after.length) rest
      | none => '&' :: unescapeFrom 0 rest
  | 0, c :: rest => c :: unescapeFrom 0 rest

/-- A text with its escapes and references replaced. -/
def unescape (text : List Char) : List Char :=
  unescapeFrom 0 text

/-- A run of marks. -/
structure Run where
  /-- The mark. -/
  mark : Char
  /-- How many marks are left. -/
  count : Nat
  /-- How many marks there were. -/
  original : Nat
  /-- Whether the run can open emphasis. -/
  opens : Bool
  /-- Whether the run can close emphasis. -/
  closes : Bool
  deriving DecidableEq, Repr, Inhabited

/-- A piece of inline text that is not finished. -/
inductive Piece
  /-- A finished part. -/
  | done (inline : Inline)
  /-- A run of marks. -/
  | run (run : Run)
  /-- An opening bracket: whether it is one of an image, whether it can still become a link, and
  the source after it. -/
  | bracket (isImage isActive : Bool) (after : List Char)
  deriving Repr, Inhabited

/-- A run of marks between two characters: a single `~` and any run of `_` do not work inside a
word, and more than two `~` are text. -/
def runBetween (mark : Char) (count : Nat) (before after : Option Char) : Run :=
  let isBlank := fun (c : Option Char) => c.all Text.isBlank
  let isPunctuation := fun (c : Option Char) => c.any Text.isPunctuation
  let isEdge := fun (c : Option Char) => isBlank c || isPunctuation c
  let isDouble := mark = '~' && count = 2
  let opens :=
    !isBlank after && (isEdge before || isDouble || (mark = '*' && !isPunctuation after))
  let closes :=
    !isBlank before &&
      (isEdge after || ((mark = '*' || isDouble) && !isPunctuation before))
  if mark = '~' && 2 < count then ⟨mark, count, count, false, false⟩
  else ⟨mark, count, count, opens, closes⟩

/-- Whether one run can be closed by another one. -/
def Run.pairs (opener closer : Run) : Bool :=
  opener.mark = closer.mark && opener.opens && 0 < opener.count &&
    (if opener.mark = '~' then opener.count = closer.count
    else
      !((opener.closes || closer.opens) && (opener.original + closer.original) % 3 == 0 &&
        !(opener.original % 3 == 0 && closer.original % 3 == 0)))

/-- The text of a run that is not paired. -/
def Run.text (run : Run) : List Char :=
  List.replicate run.count run.mark

/-- A piece as a finished part: what is not paired is text. -/
def Piece.finish : Piece → List Inline
  | .done inline => [inline]
  | .run marks => if marks.count = 0 then [] else [.text marks.text]
  | .bracket isImage _ _ => [.text (if isImage then ['!', '['] else ['['])]

/-- The pieces behind the nearest run that a closing run pairs with, that run, and the pieces
before it; all from the back. -/
def findOpener (closer : Run) : List Piece → Option (List Piece × Run × List Piece)
  | [] => none
  | .run marks :: rest =>
      if marks.pairs closer then some ([], marks, rest)
      else (findOpener closer rest).map fun found => (.run marks :: found.1, found.2)
  | piece :: rest =>
      (findOpener closer rest).map fun found => (piece :: found.1, found.2)

/-- Pair runs of marks. `before` holds the pieces that were passed, from the back, and `limit`
bounds the steps. -/
def pairRuns : (limit : Nat) → (before : List Piece) → List Piece → List Inline
  | 0, before, rest => (before.reverse ++ rest).flatMap Piece.finish
  | _, before, [] => before.reverse.flatMap Piece.finish
  | limit + 1, before, .run closer :: rest =>
      if closer.closes && 0 < closer.count then
        match findOpener closer before with
        | none => pairRuns limit (.run closer :: before) rest
        | some (inner, opener, outer) =>
            let children := inner.reverse.flatMap Piece.finish
            let used := if closer.mark = '~' then closer.count
              else if 2 ≤ opener.count && 2 ≤ closer.count then 2 else 1
            let inline :=
              if closer.mark = '~' then Inline.struck children
              else if used = 2 then .strong children
              else .emphasis children
            let opener := { opener with count := opener.count - used }
            let closer := { closer with count := closer.count - used }
            let outer := if opener.count = 0 then outer else .run opener :: outer
            pairRuns limit (.done inline :: outer)
              (if closer.count = 0 then rest else .run closer :: rest)
      else pairRuns limit (.run closer :: before) rest
  | limit + 1, before, piece :: rest => pairRuns limit (piece :: before) rest

/-- The number of marks and pieces, which bounds the steps of pairing. -/
def stepsOf (pieces : List Piece) : Nat :=
  pieces.foldr
    (fun piece steps =>
      match piece with
      | .run marks => marks.count + 1 + steps
      | _ => 1 + steps)
    0

/-- Finish pieces given in order. -/
def finishPieces (pieces : List Piece) : List Inline :=
  pairRuns (2 * stepsOf pieces + 1) [] pieces

/-- The characters up to the next run of exactly so many backticks, and what follows it. -/
def takeCode (count : Nat) : (run : Nat) → List Char → Option (List Char × List Char)
  | run, [] => if run = count then some ([], []) else none
  | run, c :: rest =>
      if c = '`' then takeCode count (run + 1) rest
      else if run = count then some ([], c :: rest)
      else
        (takeCode count 0 rest).map fun found =>
          (List.replicate run '`' ++ c :: found.1, found.2)

/-- The content of code between backticks: line breaks are blanks, and one blank at both ends is
dropped. -/
def codeContent (text : List Char) : List Char :=
  let flat := text.map fun c => if c = '\n' then ' ' else c
  match flat with
  | ' ' :: rest =>
      if rest.getLast? = some ' ' && flat.any (· != ' ') then rest.dropLast else flat
  | _ => flat

/-- Drop blanks. -/
def skipGaps (text : List Char) : List Char :=
  text.dropWhile isGap

/-- The destination of a link in angle brackets, after the opening one. -/
def takeAngled : List Char → Option (List Char × List Char)
  | [] => none
  | '>' :: rest => some ([], rest)
  | '\\' :: c :: rest => (takeAngled rest).map fun found => ('\\' :: c :: found.1, found.2)
  | c :: rest =>
      if c = '<' || c = '\n' then none
      else (takeAngled rest).map fun found => (c :: found.1, found.2)

/-- The destination of a link without brackets: its parentheses are balanced. -/
def takeBare : (depth : Nat) → List Char → Option (List Char × List Char)
  | depth, [] => if depth = 0 then some ([], []) else none
  | depth, '\\' :: c :: rest =>
      if Text.isAsciiPunctuation c then
        (takeBare depth rest).map fun found => ('\\' :: c :: found.1, found.2)
      else (takeBare depth (c :: rest)).map fun found => ('\\' :: found.1, found.2)
  | depth, c :: rest =>
      if isGap c || c.toNat < 32 then if depth = 0 then some ([], c :: rest) else none
      else if c = ')' && depth = 0 then some ([], c :: rest)
      else
        let depth := if c = '(' then depth + 1 else if c = ')' then depth - 1 else depth
        (takeBare depth rest).map fun found => (c :: found.1, found.2)

/-- The destination of a link. -/
def takeDestination? (text : List Char) : Option (List Char × List Char) :=
  match text with
  | '<' :: rest => takeAngled rest
  | _ => takeBare 0 text

/-- A title up to its closing mark. -/
def takeTitleUntil (close : Char) : List Char → Option (List Char × List Char)
  | [] => none
  | '\\' :: c :: rest =>
      (takeTitleUntil close rest).map fun found => ('\\' :: c :: found.1, found.2)
  | c :: rest =>
      if c = close then some ([], rest)
      else if c = '(' && close = ')' then none
      else (takeTitleUntil close rest).map fun found => (c :: found.1, found.2)

/-- The title of a link. -/
def takeTitle? (text : List Char) : Option (List Char × List Char) :=
  match text with
  | '"' :: rest => takeTitleUntil '"' rest
  | '\'' :: rest => takeTitleUntil '\'' rest
  | '(' :: rest => takeTitleUntil ')' rest
  | _ => none

/-- The target in parentheses after the text of a link. -/
def takeInlineTarget? (text : List Char) : Option (Target × List Char) :=
  match text with
  | '(' :: rest =>
      match takeDestination? (skipGaps rest) with
      | none => none
      | some (destination, after) =>
          let destination := unescape destination
          match skipGaps after with
          | ')' :: rest => some (⟨destination, []⟩, rest)
          | next =>
              if after.head?.any isGap then
                match takeTitle? next with
                | some (title, after) =>
                    match skipGaps after with
                    | ')' :: rest => some (⟨destination, unescape title⟩, rest)
                    | _ => none
                | none => none
              else none
  | _ => none

/-- A label in brackets, after the opening one. -/
def takeLabel : List Char → Option (List Char × List Char)
  | [] => none
  | ']' :: rest => some ([], rest)
  | '[' :: _ => none
  | '\\' :: c :: rest => (takeLabel rest).map fun found => ('\\' :: c :: found.1, found.2)
  | c :: rest => (takeLabel rest).map fun found => (c :: found.1, found.2)

/-- A label as it is compared: without regard to letter case and to how its words are spaced. -/
def normalLabel (label : List Char) : List Char :=
  ([' '].intercalate (Text.wordsOf isGap label)).map Text.lowerChar

/-- The target that a label names. -/
def lookupLabel? (definitions : Definitions) (label : List Char) : Option Target :=
  if label.all isGap then none else definitions.lookup (normalLabel label)

/-- The target of a link after its closing bracket, given the source of its text. -/
def takeTarget? (definitions : Definitions) (text rest : List Char) :
    Option (Target × List Char) :=
  match takeInlineTarget? rest with
  | some found => some found
  | none =>
      match rest with
      | '[' :: inside =>
          match takeLabel inside with
          | some (label, after) =>
              let name := if label.isEmpty then text else label
              (lookupLabel? definitions name).map fun target => (target, after)
          | none => (lookupLabel? definitions text).map fun target => (target, rest)
      | _ => (lookupLabel? definitions text).map fun target => (target, rest)

/-- A character of a scheme or a tag name after the first one. -/
def isSchemePart (c : Char) : Bool :=
  Text.isAsciiAlphanumeric c || c == '+' || c == '.' || c == '-'

/-- The address in angle brackets after the opening one, if it is one. -/
def takeAutolink? (text : List Char) : Option (List Char × List Char) :=
  let inside := text.takeWhile (· != '>')
  match text.drop inside.length with
  | '>' :: rest =>
      let scheme := inside.takeWhile isSchemePart
      let isAddress :=
        2 ≤ scheme.length && scheme.length ≤ 32 && scheme.head?.any Text.isAsciiLetter &&
          (inside.drop scheme.length).head? == some ':' &&
          inside.all fun c => 32 < c.toNat && c != '<'
      if isAddress then some (inside, rest) else none
  | _ => none

/-- A character of the name of a mail address. -/
def isMailNameChar (c : Char) : Bool :=
  Text.isAsciiAlphanumeric c || ".!#$%&'*+/=?^_`\x7b|\x7d~-".toList.contains c

/-- Whether a text is a part of a host name. -/
def isHostLabel (label : List Char) : Bool :=
  !label.isEmpty && label.length ≤ 63 &&
    label.all (fun c => Text.isAsciiAlphanumeric c || c == '-') &&
    label.head? != some '-' && label.getLast? != some '-'

/-- The mail address in angle brackets after the opening one, if it is one. -/
def takeMailLink? (text : List Char) : Option (List Char × List Char) :=
  let name := text.takeWhile isMailNameChar
  match text.drop name.length with
  | '@' :: rest =>
      let host := rest.takeWhile fun c => Text.isAsciiAlphanumeric c || c == '-' || c == '.'
      match rest.drop host.length with
      | '>' :: after =>
          if !name.isEmpty && (Text.splitAtEach (· == '.') host).all isHostLabel then
            some (name ++ '@' :: host, after)
          else none
      | _ => none
  | _ => none

/-- The name of an attribute at the start of a text. -/
def takeAttributeName? (text : List Char) : Option (List Char) :=
  match text with
  | c :: rest =>
      if Text.isAsciiLetter c || c == '_' || c == ':' then
        some (rest.dropWhile fun d => Text.isAsciiAlphanumeric d || "_.:-".toList.contains d)
      else none
  | [] => none

/-- What is left after the value of an attribute. -/
def dropAttributeValue? (text : List Char) : Option (List Char) :=
  match text with
  | '"' :: rest =>
      match rest.dropWhile (· != '"') with
      | _ :: after => some after
      | [] => none
  | '\'' :: rest =>
      match rest.dropWhile (· != '\'') with
      | _ :: after => some after
      | [] => none
  | _ =>
      let isPart := fun c => !isGap c && !"\"'=<>`".toList.contains c
      if text.head?.any isPart then some (text.dropWhile isPart) else none

/-- What is left after the attributes of a tag; `limit` bounds their number. -/
def dropAttributes : (limit : Nat) → List Char → Option (List Char)
  | 0, text => some text
  | limit + 1, text =>
      let next := skipGaps text
      if next.length = text.length then some text
      else
        match takeAttributeName? next with
        | none => some text
        | some rest =>
            match skipGaps rest with
            | '=' :: value => (dropAttributeValue? (skipGaps value)).bind (dropAttributes limit)
            | _ => dropAttributes limit rest

/-- What is left after a tag whose angle bracket was taken. -/
def dropTag? (text : List Char) : Option (List Char) :=
  let isNamePart := fun c => Text.isAsciiAlphanumeric c || c == '-'
  match text with
  | '/' :: c :: rest =>
      if Text.isAsciiLetter c then
        match skipGaps (rest.dropWhile isNamePart) with
        | '>' :: after => some after
        | _ => none
      else none
  | c :: rest =>
      if Text.isAsciiLetter c then
        match (dropAttributes text.length (rest.dropWhile isNamePart)).map skipGaps with
        | some ('/' :: '>' :: after) => some after
        | some ('>' :: after) => some after
        | _ => none
      else none
  | [] => none

/-- What is left after the first occurrence of a mark. -/
def dropThrough? (mark text : List Char) : Option (List Char) :=
  (Text.splitOnce mark text).map Prod.snd

/-- What is left after markup whose angle bracket was taken. -/
def dropMarkup? (text : List Char) : Option (List Char) :=
  match text with
  | '!' :: '-' :: '-' :: '>' :: rest => some rest
  | '!' :: '-' :: '-' :: '-' :: '>' :: rest => some rest
  | '!' :: '-' :: '-' :: rest => dropThrough? ['-', '-', '>'] rest
  | '?' :: rest => dropThrough? ['?', '>'] rest
  | '!' :: '[' :: 'C' :: 'D' :: 'A' :: 'T' :: 'A' :: '[' :: rest =>
      dropThrough? [']', ']', '>'] rest
  | '!' :: c :: rest =>
      if Text.isAsciiLetter c then dropThrough? ['>'] rest else none
  | _ => dropTag? text

/-- Deactivate the opening brackets of links. -/
def deactivate (pieces : List Piece) : List Piece :=
  pieces.map fun piece =>
    match piece with
    | .bracket false _ after => .bracket false false after
    | other => other

/-- The pieces since the last opening bracket, that bracket, and the pieces before it; all from
the back. -/
def findBracket : List Piece → Option (List Piece × (Bool × Bool × List Char) × List Piece)
  | [] => none
  | .bracket isImage isActive after :: rest => some ([], (isImage, isActive, after), rest)
  | piece :: rest => (findBracket rest).map fun found => (piece :: found.1, found.2)

/-- The pieces with text at their end. -/
def addText (content : List Char) : List Piece → List Piece
  | .done (.text before) :: rest => .done (.text (before ++ content)) :: rest
  | pieces => .done (.text content) :: pieces

/-- Close a bracket: the pieces, from the back, and what is left of the source. -/
def closeBracket (definitions : Definitions) (pieces : List Piece) (rest : List Char) :
    List Piece × List Char :=
  match findBracket pieces with
  | none => (addText [']'] pieces, rest)
  | some (inner, (isImage, isActive, after), outer) =>
      let plain := inner ++ addText (if isImage then ['!', '['] else ['[']) outer
      if !isActive then (addText [']'] plain, rest)
      else
        let text := after.take (after.length - rest.length - 1)
        match takeTarget? definitions text rest with
        | none => (addText [']'] plain, rest)
        | some (target, left) =>
            let children := finishPieces inner.reverse
            if isImage then
              (.done (.image target.destination target.title children) :: outer, left)
            else
              (.done (.link target.destination target.title children) :: deactivate outer, left)

/-- A blank that does not end a line. -/
def isLineBlank (c : Char) : Bool :=
  c == ' ' || c == '\t' || c == '\x0b' || c == '\x0c'

/-- Drop the blanks at the end of the text that was read last. -/
def dropEndBlanks : List Piece → List Piece
  | .done (.text content) :: rest =>
      let kept := Text.trimEndOf isLineBlank content
      if kept.isEmpty then rest else .done (.text kept) :: rest
  | pieces => pieces

/-- How many blanks the text that was read last ends with. -/
def endBlanks : List Piece → Nat
  | .done (.text content) :: _ => (content.reverse.takeWhile isLineBlank).length
  | _ => 0

/-- Cut inline text into pieces. `pieces` holds what was read, from the back, `previous` is the
character before, and `limit` bounds the steps. -/
def readPieces (definitions : Definitions) :
    (limit : Nat) → (pieces : List Piece) → (previous : Option Char) → List Char → List Piece
  | 0, pieces, _, text => (addText text pieces).reverse
  | _, pieces, _, [] => pieces.reverse
  | limit + 1, pieces, previous, c :: rest =>
      let asText := fun (_ : Unit) =>
        readPieces definitions limit (addText [c] pieces) (some c) rest
      match c with
      | '\\' =>
          match rest with
          | '\n' :: after =>
              readPieces definitions limit (.done .hardBreak :: pieces) (some '\n')
                (after.dropWhile (· == ' '))
          | d :: after =>
              if Text.isAsciiPunctuation d then
                readPieces definitions limit (addText [d] pieces) (some d) after
              else asText ()
          | [] => asText ()
      | '\n' =>
          let isHard := 2 ≤ endBlanks pieces
          let pieces := dropEndBlanks pieces
          readPieces definitions limit
            (.done (if isHard then .hardBreak else .softBreak) :: pieces) (some '\n')
            (rest.dropWhile (· == ' '))
      | '`' =>
          let count := 1 + (rest.takeWhile (· == '`')).length
          let after := rest.dropWhile (· == '`')
          match takeCode count 0 after with
          | some (content, left) =>
              readPieces definitions limit (.done (.code (codeContent content)) :: pieces)
                (some '`') left
          | none =>
              readPieces definitions limit (addText (List.replicate count '`') pieces) (some '`')
                after
      | '&' =>
          match takeReference? rest with
          | some (characters, left) =>
              readPieces definitions limit (addText characters pieces) (some ';') left
          | none => asText ()
      | '<' =>
          match takeAutolink? rest with
          | some (address, left) =>
              readPieces definitions limit (.done (.address address) :: pieces) (some '>') left
          | none =>
              match takeMailLink? rest with
              | some (address, left) =>
                  readPieces definitions limit (.done (.address address) :: pieces) (some '>') left
              | none =>
                  match dropMarkup? rest with
                  | some left =>
                      let source := '<' :: rest.take (rest.length - left.length)
                      readPieces definitions limit (.done (.markup source) :: pieces) (some '>')
                        left
                  | none => asText ()
      | '!' =>
          match rest with
          | '[' :: after =>
              readPieces definitions limit (.bracket true true after :: pieces) (some '[') after
          | _ => asText ()
      | '[' => readPieces definitions limit (.bracket false true rest :: pieces) (some '[') rest
      | ']' =>
          let (pieces, left) := closeBracket definitions pieces rest
          readPieces definitions limit pieces (some ']') left
      | _ =>
          if c = '*' || c = '_' || c = '~' then
            let count := 1 + (rest.takeWhile (· == c)).length
            let after := rest.dropWhile (· == c)
            readPieces definitions limit (.run (runBetween c count previous after.head?) :: pieces)
              (some c) after
          else asText ()

/-- Read inline text. -/
def readInline (definitions : Definitions) (text : List Char) : List Inline :=
  finishPieces (readPieces definitions text.length [] none text)

end Markdown
end MailPress
