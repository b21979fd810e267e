import MailPress.Text.Blank

/-!
# Style sheets

A style sheet is a list of rules and at-rules. An at-rule is a statement, a
block of further items, or a block of declarations; which of the last two it is
depends on its name alone.

Selectors, preludes and values are kept as the texts the author wrote. Only
names of properties and at-rules are lowercased.
-/

namespace MailPress
namespace Css

/-- One declaration of a block or of a `style` attribute. -/
structure Declaration where
  /-- Lowercased name of the property. -/
  property : String
  /-- Value as written, without the importance mark. -/
  value : String
  /-- Whether the value was marked `!important`. -/
  important : Bool
  deriving DecidableEq, Repr, Inhabited

/-- A style rule: a list of selectors and the declarations they share. -/
structure Rule where
  /-- The selectors, trimmed, without the commas between them. -/
  selectors : List String
  /-- The declarations, in source order. -/
  declarations : List Declaration
  deriving DecidableEq, Repr, Inhabited

/-- An item of a style sheet. Names of at-rules are lowercase and without the `@`. -/
inductive Item
  /-- A style rule. -/
  | rule (rule : Rule)
  /-- An at-rule without a block, such as an import. -/
  | statement (name prelude : String)
  /-- An at-rule around further items, such as a media query. -/
  | group (name prelude : String) (items : List Item)
  /-- An at-rule around declarations, such as a font face. -/
  | descriptors (name prelude : String) (declarations : List Declaration)
  deriving Repr, Inhabited

/-- A style sheet. -/
structure Sheet where
  /-- The items at top level, in source order. -/
  items : List Item
  deriving Repr, Inhabited

/-- The at-rules whose block holds items. -/
def groupingNames : List String :=
  ["media", "supports", "document", "-moz-document", "container", "layer",
    "keyframes", "-webkit-keyframes", "-moz-keyframes"]

/-- Whether the block of an at-rule of this name holds items. -/
def isGrouping (name : String) : Bool :=
  groupingNames.contains name

/-- The at-rules inside which an importance mark is meaningless or invalid. -/
def unmarkedNames : List String :=
  ["font-face", "keyframes", "-webkit-keyframes", "-moz-keyframes"]

/-- The same declaration, marked `!important`. -/
def Declaration.forceImportant (declaration : Declaration) : Declaration :=
  { declaration with important := true }

mutual

/-- Mark the declarations of an item, except where the mark has no place. -/
def Item.forceImportant : Item → Item
  | .rule r => .rule { r with declarations := r.declarations.map Declaration.forceImportant }
  | .statement name prelude => .statement name prelude
  | .group name prelude items =>
      if unmarkedNames.contains name then .group name prelude items
      else .group name prelude (forceImportantAll items)
  | .descriptors name prelude declarations =>
      if unmarkedNames.contains name then .descriptors name prelude declarations
      else .descriptors name prelude (declarations.map Declaration.forceImportant)

/-- Mark the declarations of every item of a list. -/
def forceImportantAll : List Item → List Item
  | [] => []
  | item :: items => item.forceImportant :: forceImportantAll items

end

/-- Mark every declaration `!important`, except inside font faces and keyframes. -/
def Sheet.forceImportant (sheet : Sheet) : Sheet :=
  ⟨forceImportantAll sheet.items⟩

end Css
end MailPress
