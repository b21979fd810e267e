import MailPress.Compact.Node
import MailPress.Text.Blank
import MailPress.Text.Entity
import MailPress.Text.Search

/-!
# Reading pages

Pages are read leniently, and reading never fails: what is not a tag is text, an end
without a start is dropped, and what is open at the end is closed there. The open
elements are kept as a list, the innermost first.
-/

namespace MailPress
namespace Compact

/-- An open element, with what it holds so far from the back. -/
structure Open where
  /-- The name. -/
  name : String
  /-- The attributes. -/
  attributes : List (String × List Char)
  /-- What it holds. -/
  children : List Node
  deriving Repr, Inhabited

/-- The names of characters that need no semicolon. -/
def looseNames : List String :=
  ["amp", "lt", "gt", "quot", "nbsp", "copy", "reg"]

/-- The character with a number; what is no character is the replacement character. -/
def characterOf (code : Nat) : Char :=
  if code = 0 || !code.isValidChar then Char.ofNat 0xFFFD else Char.ofNat code

/-- The reference after an ampersand: what it stands for, and how many characters it takes. -/
def takeReference? (inValue : Bool) (text : List Char) : Option (List Char × Nat) :=
  let numeric := fun (mark : Nat) (digits : List Char) (code : Nat) =>
    if digits.isEmpty then none
    else
      let ended := (text.drop (mark + digits.length)).head? = some ';'
      some ([characterOf code], mark + digits.length + (if ended then 1 else 0))
  match text with
  | '#' :: 'x' :: rest | '#' :: 'X' :: rest =>
      let digits := rest.takeWhile Text.isHexDigit
      numeric 2 digits (Text.hexadecimalValue digits)
  | '#' :: rest =>
      let digits := rest.takeWhile Text.isAsciiDigit
      numeric 1 digits (Text.decimalValue digits)
  | _ =>
      let name := text.takeWhile Text.isAsciiAlphanumeric
      let after := (text.drop name.length).head?
      match if after = some ';' then Text.namedCharacters? name else none with
      | some characters => some (characters, name.length + 1)
      | none =>
          let loose := looseNames.find? fun loose => Text.startsWith loose.toList name
          match loose.bind fun loose =>
              (Text.namedCharacters? loose.toList).map fun found => (found, loose.length) with
          | some (characters, length) =>
              let next := (text.drop length).head?
              if inValue && next.any (fun c => c == '=' || Text.isAsciiAlphanumeric c) then none
              else some (characters, length)
          | none => none

/-- Replace references, after skipping the given number of characters. -/
def decodeFrom (inValue : Bool) : Nat → List Char → List Char
  | _, [] => []
  | skip + 1, _ :: rest => decodeFrom inValue skip rest
  | 0, c :: rest =>
      match if c = '&' then takeReference? inValue rest else none with
      | some (characters, length) => characters ++ decodeFrom inValue length rest
      | none => c :: decodeFrom inValue 0 rest

/-- A text with its references replaced. -/
def decode (inValue : Bool) (text : List Char) : List Char :=
  decodeFrom inValue 0 text

/-- A blank of markup. -/
def isSpace (c : Char) : Bool :=
  c == ' ' || c == '\t' || c == '\n' || c == '\r' || c == '\x0c'

/-- The value of an attribute, and what follows it. -/
def takeValue (text : List Char) : List Char × List Char :=
  let quoted := fun (quote : Char) (rest : List Char) =>
    (rest.takeWhile (· != quote), (rest.dropWhile (· != quote)).drop 1)
  match text with
  | '"' :: rest => quoted '"' rest
  | '\'' :: rest => quoted '\'' rest
  | _ =>
      let isPart := fun c => !isSpace c && c != '>'
      (text.takeWhile isPart, text.dropWhile isPart)

/-- The attributes with one more; a later value counts. -/
def putAttribute (attributes : List (String × List Char)) (name : String) (value : List Char) :
    List (String × List Char) :=
  attributes.filter (fun entry => entry.1 != name) ++ [(name, value)]

/-- The attributes of a tag, whether it closes itself, and what follows it; `limit` bounds their
number. -/
def takeAttributes :
    (limit : Nat) → List (String × List Char) → List Char →
      List (String × List Char) × Bool × List Char
  | 0, attributes, text => (attributes, false, text)
  | limit + 1, attributes, text =>
      match text.dropWhile isSpace with
      | [] => (attributes, false, [])
      | '>' :: rest => (attributes, false, rest)
      | '/' :: '>' :: rest => (attributes, true, rest)
      | '/' :: rest => takeAttributes limit attributes rest
      | first :: rest =>
          let isPart := fun c => !isSpace c && c != '>' && c != '/' && c != '='
          let name := Text.lower (String.ofList (first :: rest.takeWhile isPart))
          let after := rest.dropWhile isPart
          match after.dropWhile isSpace with
          | '=' :: value =>
              let (value, left) := takeValue (value.dropWhile isSpace)
              takeAttributes limit (putAttribute attributes name (decode true value)) left
          | _ => takeAttributes limit (putAttribute attributes name []) after

/-- The name of a tag, and what follows it. -/
def takeTagName (text : List Char) : String × List Char :=
  let isPart := fun c => !isSpace c && c != '>' && c != '/'
  (Text.lower (String.ofList (text.takeWhile isPart)), text.dropWhile isPart)

/-- Whether a text starts with the end tag of an element. -/
def startsEnd (name : String) (text : List Char) : Bool :=
  match text with
  | '<' :: '/' :: tag => (takeTagName tag).1 == name
  | _ => false

/-- The text before an end tag of the given name, and what follows the tag. -/
def takeUntilEnd (name : String) : List Char → List Char × List Char
  | [] => ([], [])
  | c :: rest =>
      if startsEnd name (c :: rest) then ([], (rest.dropWhile (· != '>')).drop 1)
      else
        let (content, left) := takeUntilEnd name rest
        (c :: content, left)

/-- Add a part to the innermost open element. -/
def addNode (stack : List Open) (node : Node) : List Open :=
  match stack with
  | [] => []
  | inner :: outer => { inner with children := node :: inner.children } :: outer

/-- Add a character of text to the innermost open element. -/
def addText (stack : List Open) (content : List Char) : List Open :=
  match stack with
  | inner :: outer =>
      match inner.children with
      | .text before :: others =>
          { inner with children := .text (before ++ content) :: others } :: outer
      | _ => addNode stack (.text content)
  | [] => []

/-- Close the innermost open element. -/
def closeInner : List Open → List Open
  | inner :: outer :: rest =>
      addNode (outer :: rest) (.element inner.name inner.attributes inner.children.reverse)
  | stack => stack

/-- Close the elements that end where an element of the given name starts; `limit` bounds their
number. -/
def closeBefore (name : String) : (limit : Nat) → List Open → List Open
  | 0, stack => stack
  | limit + 1, stack =>
      match stack with
      | inner :: outer :: rest =>
          let ends :=
            (endersOf inner.name).contains name ||
              ((endersOf outer.name).contains name && endsWith outer.name inner.name)
          if ends then closeBefore name limit (closeInner (inner :: outer :: rest)) else stack
      | _ => stack

/-- Close an element of the given name, if it is the innermost one or the one around an element
that needs no end. -/
def closeNamed (name : String) (stack : List Open) : List Open :=
  match stack with
  | inner :: outer :: _ =>
      if inner.name = name then closeInner stack
      else if outer.name = name && endsWith outer.name inner.name then
        closeInner (closeInner stack)
      else stack
  | _ => stack

/-- Close every open element. -/
def closeAll : (limit : Nat) → List Open → List Node
  | _, [] => []
  | 0, inner :: _ => inner.children.reverse
  | limit + 1, stack =>
      match stack with
      | [outermost] => outermost.children.reverse
      | _ => closeAll limit (closeInner stack)

/-- What stands before a mark, the mark included, and what follows it. -/
def takeThrough (mark text : List Char) : List Char × List Char :=
  match Text.splitOnce mark text with
  | some (before, after) => (before ++ mark, after)
  | none => (text, [])

/-- The mark that ends template code which starts so. -/
def templateEnd? (text : List Char) : Option (List Char) :=
  match text with
  | '{' :: '{' :: _ => some ['}', '}']
  | '{' :: '%' :: _ => some ['%', '}']
  | '{' :: '#' :: _ => some ['#', '}']
  | _ => none

/-- Read a start tag after its angle bracket. -/
def readStart (stack : List Open) (text : List Char) : List Open × List Char :=
  let (name, rest) := takeTagName text
  let stack := closeBefore name stack.length stack
  let (attributes, closesItself, rest) := takeAttributes rest.length [] rest
  let isForeign := stack.any fun element => element.name = "svg"
  if voidElements.contains name || (closesItself && isForeign) then
    (addNode stack (.element name attributes []), rest)
  else if rawElements.contains name then
    let (content, rest) := takeUntilEnd name rest
    (addNode stack (.element name attributes [.raw content]), rest)
  else if textElements.contains name then
    let (content, rest) := takeUntilEnd name rest
    (addNode stack (.element name attributes [.text (decode false content)]), rest)
  else (⟨name, attributes, []⟩ :: stack, rest)

/-- Read a page; `limit` bounds the steps. -/
def readFrom : (limit : Nat) → List Open → List Char → List Open
  | 0, stack, _ => stack
  | _, stack, [] => stack
  | limit + 1, stack, c :: rest =>
      match templateEnd? (c :: rest) with
      | some mark =>
          let (code, left) := takeThrough mark (rest.drop 1)
          readFrom limit (addNode stack (.template (c :: rest.take 1 ++ code))) left
      | none =>
          match c, rest with
          | '<', '!' :: '-' :: '-' :: inside =>
              let (comment, left) := takeThrough ['-', '-', '>'] inside
              readFrom limit (addNode stack (.aside ("<!--".toList ++ comment))) left
          | '<', '!' :: inside =>
              let (declaration, left) := takeThrough ['>'] inside
              let name := (declaration.take 7).map Text.lowerChar
              let source :=
                if name = "doctype".toList then
                  let kind := (declaration.drop 7).dropWhile isSpace
                  let kind :=
                    if (kind.take 4).map Text.lowerChar = "html".toList then
                      (kind.drop 4).dropWhile isSpace
                    else kind
                  "<!doctype html".toList ++ (if kind = ['>'] then kind else ' ' :: kind)
                else '<' :: '!' :: declaration
              readFrom limit (addNode stack (.aside source)) left
          | '<', '?' :: inside => readFrom limit stack (takeThrough ['?', '>'] inside).2
          | '<', '/' :: inside =>
              let (name, left) := takeTagName inside
              readFrom limit (closeNamed name stack) ((left.dropWhile (· != '>')).drop 1)
          | '<', first :: _ =>
              if Text.isAsciiLetter first then
                let (stack, left) := readStart stack rest
                readFrom limit stack left
              else readFrom limit (addText stack ['<']) rest
          | '&', _ =>
              match takeReference? false rest with
              | some (characters, length) =>
                  readFrom limit (addText stack characters) (rest.drop length)
              | none => readFrom limit (addText stack ['&']) rest
          | _, _ =>
              let isPlain := fun d => d != '<' && d != '&' && d != '{'
              let more := rest.takeWhile isPlain
              readFrom limit (addText stack (c :: more)) (rest.drop more.length)

/-- The parts of a page. -/
def readPage (page : String) : List Node :=
  let text := page.toList
  let stack := readFrom text.length [⟨"", [], []⟩] text
  closeAll stack.length stack

end Compact
end MailPress
