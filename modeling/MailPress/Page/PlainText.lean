import MailPress.Markup.Reader
import MailPress.Text.Typography

/-!
# Plain text of a page

The text variant of a mail can be derived from its page. Blocks stand on lines
of their own with a blank line between them, links show their address, and
images their alternative text.

Text is collected with its last character first, because whether a blank is
written depends on what was written before.
-/

namespace MailPress
namespace Page

open Markup

/-- The elements whose content is not shown. -/
def hiddenNames : List String := ["head", "style", "script", "title"]

/-- The elements that stand on lines of their own. -/
def blockNames : List String :=
  ["p", "div", "table", "tr", "h1", "h2", "h3", "h4", "h5", "h6", "ul", "ol", "li",
    "blockquote", "center", "section", "header", "footer", "hr"]

/-- The space that does not collapse. -/
def hardSpace : Char := '\u00a0'

/-- Write a word behind what is written; a hard space becomes a space. -/
def writeWord (written word : List Char) : List Char :=
  word.foldl (fun written c => (if c = hardSpace then ' ' else c) :: written) written

/-- Write one space, unless a blank was written last. -/
def writeSpace (written : List Char) : List Char :=
  match written.head? with
  | some ' ' => written
  | some '\n' => written
  | _ => ' ' :: written

/-- Write a text with its blanks collapsed; hard spaces count as letters. -/
def writeCollapsed (written : List Char) (text : String) : List Char :=
  match Text.splitAtEach (fun c => Text.isBlank c && c != hardSpace) text.toList with
  | [] => written
  | first :: words =>
      words.foldl (fun written word => writeWord (writeSpace written) word)
        (writeWord written first)

/-- An address without the scheme of mail addresses in front, however often it stands there. -/
def withoutMailto (address : List Char) : List Char :=
  match h : Text.dropStart? "mailto:".toList address with
  | some rest =>
      have : rest.length < address.length := by
        have := Text.length_add_of_dropStart? h
        simp only [String.reduceToList, List.length_cons] at this
        omega
      withoutMailto rest
  | none => address
termination_by address.length

/-- The address that is shown behind the label of a link. -/
def shownAddress (element : Element) (label : List Char) : List Char :=
  match element.decodedAttr? "href" with
  | some href =>
      let address := href.toList
      if address.isEmpty || address.head? == some '#' || withoutMailto address == label then []
      else ' ' :: '(' :: address ++ [')']
  | none => []

mutual

/-- Write the text of a tree behind what is written. -/
def writeTree : Tree → List Char → List Char
  | .node _ content children, written =>
      match content with
      | .text raw => writeCollapsed written (decode raw)
      | .comment _ => written
      | .verbatim _ => written
      | .root => writeForest children written
      | .element element =>
          if hiddenNames.contains element.name then written
          else if element.name = "br" then '\n' :: written
          else if element.name = "img" then
            match element.decodedAttr? "alt" with
            | some alt =>
                if alt.toList.all Text.isBlank then written else writeCollapsed written alt
            | none => written
          else if element.name = "a" then
            let label := Text.trim (writeForest children []).reverse
            (label ++ shownAddress element label).reverse ++ written
          else if blockNames.contains element.name then
            '\n' :: '\n' :: writeForest children ('\n' :: '\n' :: written)
          else writeForest children written

/-- Write the texts of several trees one after another. -/
def writeForest : List Tree → List Char → List Char
  | [], written => written
  | tree :: trees, written => writeForest trees (writeTree tree written)

end

/-- Drop the blank lines that follow a blank line; `afterBlank` tells whether one came last. -/
def singleBlanks : (afterBlank : Bool) → List (List Char) → List (List Char)
  | _, [] => []
  | afterBlank, line :: lines =>
      if line.isEmpty then
        if afterBlank then singleBlanks true lines else line :: singleBlanks true lines
      else line :: singleBlanks false lines

/-- The lines of a text, tidied: trimmed, no blank line first or last, and never two in a row. -/
def tidyLines (text : List Char) : List (List Char) :=
  let lines := (Text.splitAtEach (· == '\n') text).map Text.trim
  ((singleBlanks true lines).reverse.dropWhile List.isEmpty).reverse

/-- The plain text of a document. -/
def textOf (document : Document) : String :=
  let raw := (writeTree (document.tree Document.root) []).reverse
  Text.normalize (String.ofList (['\n'].intercalate (tidyLines raw))) ++ "\n"

/-- The plain text of a page. -/
def plainText (page : String) : Except ReadError String :=
  (Document.read page).map textOf

end Page
end MailPress
