import MailPress.Css.Reader

/-!
# Writing style sheets

The written form holds no blank that can be left out. Texts are tightened by one
scan that keeps quoted strings as they are, and rules and groups without content
are left out.

Which punctuation loses the blanks around it depends on the kind of text:
combinators and commas in selectors, commas in values, commas and colons in the
preludes of at-rules.
-/

namespace MailPress
namespace Css

/-- What the tightening scan remembers. -/
structure TightenState where
  /-- The quote that ends the string the scan is in. -/
  quote : Option Char
  /-- The last character written. -/
  previous : Option Char
  /-- Whether blanks were read since then. -/
  pending : Bool
  deriving DecidableEq, Repr

/-- Tighten a text: a run of blanks outside strings becomes one space, or nothing beside a
character that `isTight`. -/
def tightenFrom (isTight : Char → Bool) : TightenState → List Char → List Char
  | _, [] => []
  | ⟨some quote, _, _⟩, c :: rest =>
      c :: tightenFrom isTight ⟨if c = quote then none else some quote, some c, false⟩ rest
  | ⟨none, previous, pending⟩, c :: rest =>
      if Text.isBlank c then
        tightenFrom isTight ⟨none, previous, true⟩ rest
      else
        let quote := if isQuote c then some c else none
        let tail := c :: tightenFrom isTight ⟨quote, some c, false⟩ rest
        if pending && !isTight c && !previous.any isTight then ' ' :: tail else tail

/-- Tighten a whole text, blanks at its ends removed. -/
def tighten (isTight : Char → Bool) (text : List Char) : List Char :=
  tightenFrom isTight ⟨none, none, false⟩ (Text.trim text)

/-- The combinators and the comma stand without blanks in a selector. -/
def isTightInSelector (c : Char) : Bool :=
  c == '>' || c == '+' || c == '~' || c == ','

/-- The comma stands without blanks in a value. -/
def isTightInValue (c : Char) : Bool :=
  c == ','

/-- Comma and colon stand without blanks in the prelude of an at-rule. -/
def isTightInPrelude (c : Char) : Bool :=
  c == ',' || c == ':'

/-- The written form of a selector. -/
def minifySelector (selector : String) : String :=
  String.ofList (tighten isTightInSelector selector.toList)

/-- The written form of a value. -/
def minifyValue (value : String) : String :=
  String.ofList (tighten isTightInValue value.toList)

/-- The written form of a prelude, which also has no blank inside parentheses. -/
def minifyPrelude (prelude : String) : String :=
  let tightened := tighten isTightInPrelude prelude.toList
  String.ofList
    (Text.replaceAll [' ', ')'] [')'] (Text.replaceAll ['(', ' '] ['('] tightened))

/-- The written form of a declaration. -/
def Declaration.write (declaration : Declaration) : String :=
  declaration.property ++ ":" ++ minifyValue declaration.value ++
    (if declaration.important then "!important" else "")

/-- A block of declarations, braces included. -/
def writeBlock (declarations : List Declaration) : String :=
  "\x7b" ++ String.intercalate ";" (declarations.map Declaration.write) ++ "\x7d"

/-- The written form of a rule; empty when it has no selector or no declaration. -/
def Rule.write (rule : Rule) : String :=
  if rule.declarations.isEmpty || rule.selectors.isEmpty then ""
  else String.intercalate "," (rule.selectors.map minifySelector) ++ writeBlock rule.declarations

/-- The name and the prelude of an at-rule. -/
def writeAtHead (name prelude : String) : String :=
  "@" ++ name ++ (if prelude.isEmpty then "" else " " ++ minifyPrelude prelude)

mutual

/-- The written form of an item. -/
def Item.write : Item → String
  | .rule rule => rule.write
  | .statement name prelude => writeAtHead name prelude ++ ";"
  | .group name prelude items =>
      let inner := writeItems items
      if inner.isEmpty then "" else writeAtHead name prelude ++ "\x7b" ++ inner ++ "\x7d"
  | .descriptors name prelude declarations =>
      writeAtHead name prelude ++ writeBlock declarations

/-- The written forms of the items, one after another. -/
def writeItems : List Item → String
  | [] => ""
  | item :: items => item.write ++ writeItems items

end

/-- The written form of a style sheet. -/
def Sheet.write (sheet : Sheet) : String :=
  writeItems sheet.items

/-- Read a style sheet and write it again. -/
def minify (css : String) : String :=
  (Sheet.read css).write

end Css
end MailPress
