import MailPress.Css.Matching
import MailPress.Css.Writer

/-!
# Unused styles

Selectors that match nothing in a document are taken out of the style elements
in its head, together with the rules that are left without a selector.

A selector stays when it holds one of the protected fragments, when it is not
understood, or when some element could come to match it.
-/

namespace MailPress
namespace Style

/-- Whether a selector has to stay. -/
def isUsed (document : Markup.Document) (kept : List String) (selector : String) : Bool :=
  kept.any (Text.holds · selector) ||
    match Css.Selector.read selector with
    | some selector => selector.matchesAny .presence document
    | none => true

mutual

/-- The item without unused selectors; none when no selector is left. -/
def usedItem (isUsed : String → Bool) : Css.Item → Option Css.Item
  | .rule rule =>
      let selectors := rule.selectors.filter isUsed
      if selectors.isEmpty then none else some (.rule { rule with selectors })
  | .group name prelude items => some (.group name prelude (usedItems isUsed items))
  | .statement name prelude => some (.statement name prelude)
  | .descriptors name prelude declarations => some (.descriptors name prelude declarations)

/-- The items without unused selectors. -/
def usedItems (isUsed : String → Bool) : List Css.Item → List Css.Item
  | [] => []
  | item :: items => (usedItem isUsed item).toList ++ usedItems isUsed items

end

/-- Rewrite one style element without unused selectors. -/
def rewriteStyle (kept : List String) (document : Markup.Document) (id : Nat) : Markup.Document :=
  let sheet := Css.Sheet.read (document.rawText id)
  document.setText id (Css.Sheet.write ⟨usedItems (isUsed document kept) sheet.items⟩)

/-- Rewrite every style element in the head without unused selectors. -/
def removeUnused (document : Markup.Document) (kept : List String) : Markup.Document :=
  match document.findFirst? "head" with
  | none => document
  | some head =>
      ((document.descendants head).filter (document.isNamed "style")).foldl
        (rewriteStyle kept) document

/-- Whether finding out if a selector has to stay ends the program. -/
def usageStops (document : Markup.Document) (kept : List String) (selector : String) : Bool :=
  !kept.any (Text.holds · selector) &&
    (Css.Selector.read selector).any (·.stopsAny .presence document)

mutual

/-- Whether some selector of the rules in an item passes a test. -/
def anySelector (test : String → Bool) : Css.Item → Bool
  | .rule rule => rule.selectors.any test
  | .group _ _ items => anySelectorOfAll test items
  | .statement _ _ => false
  | .descriptors _ _ _ => false

/-- Whether some selector of the rules in the items passes a test. -/
def anySelectorOfAll (test : String → Bool) : List Css.Item → Bool
  | [] => false
  | item :: items => anySelector test item || anySelectorOfAll test items

end

/-- The document with one style element rewritten; none when that ends the program. -/
def rewriteStyle?
    (kept : List String)
    (document : Markup.Document)
    (id : Nat) :
    Option Markup.Document :=
  if anySelectorOfAll (usageStops document kept) (Css.Sheet.read (document.rawText id)).items then
    none
  else some (rewriteStyle kept document id)

/-- The document with every style element in the head rewritten; none when that ends the
program. -/
def removeUnused? (document : Markup.Document) (kept : List String) : Option Markup.Document :=
  match document.findFirst? "head" with
  | none => some document
  | some head =>
      ((document.descendants head).filter (document.isNamed "style")).foldlM
        (rewriteStyle? kept) document

end Style
end MailPress
