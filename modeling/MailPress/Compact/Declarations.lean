import MailPress.Compact.Value

/-!
# Compact declarations

Declarations that work together are brought together: what is said of one box edge
by edge becomes one declaration, and what is said twice is said once. Groups come
in a fixed order after the declarations that stand for themselves, and important
declarations come last.
-/

namespace MailPress
namespace Compact

open Css (Declaration)

/-- Whether a property has one of some names, or a name that continues one after a hyphen. -/
def isAmong (names : List String) (property : String) : Bool :=
  names.any fun name => property = name || Text.hasStart (name ++ "-") property

/-- The groups of properties, in the order they are written. -/
def propertyGroups : List (List String) :=
  [["background"], ["border"], ["outline"], ["flex", "order"], ["grid"],
    ["align", "justify", "place", "gap", "row-gap", "column-gap"],
    ["width", "height", "min-width", "min-height", "max-width", "max-height"],
    ["margin"], ["padding"], ["font", "line-height"], ["text-decoration", "text-emphasis"],
    ["list-style"], ["transition"], ["animation"], ["display"], ["position"],
    ["top", "bottom", "left", "right", "inset"], ["overflow"], ["transform"], ["box-shadow"]]

/-- The properties that stand for themselves although their names look like those of a group. -/
def lonelyProperties : List String :=
  ["border-collapse", "border-spacing", "transform-origin", "transform-style"]

/-- The place of a property's group, from one; zero if it stands for itself. -/
def groupOf (property : String) : Nat :=
  if lonelyProperties.contains property then 0
  else ((propertyGroups.findIdx? fun names => isAmong names property).map (· + 1)).getD 0

/-- The properties that are written in this order within their groups. -/
def orderedProperties : List String :=
  ["width", "height", "min-width", "min-height", "max-width", "max-height", "font",
    "font-family", "font-size", "font-style", "font-variant", "font-weight", "font-stretch",
    "line-height", "top", "bottom", "left", "right"]

/-- The properties of which the last value counts although they stand for themselves. -/
def replacedProperties : List String :=
  ["color", "text-shadow", "fill", "stroke", "caret-color"]

/-- Put a declaration in the place of one of its property, or at the end. -/
def putDeclaration (declaration : Declaration) : List Declaration → List Declaration
  | [] => [declaration]
  | other :: rest =>
      if other.property = declaration.property then declaration :: rest
      else other :: putDeclaration declaration rest

/-- Add a declaration that stands for itself. -/
def addLonely (kept : List Declaration) (declaration : Declaration) : List Declaration :=
  if replacedProperties.contains declaration.property then putDeclaration declaration kept
  else kept ++ [declaration]

/-- Add a declaration of a group, after what it makes needless is taken away. -/
def addGrouped (kept : List Declaration) (declaration : Declaration) : List Declaration :=
  kept.filter (fun other => other.property != declaration.property) ++ [declaration]

/-- The edges of a box, in the order of values. -/
def edges : List String :=
  ["top", "right", "bottom", "left"]

/-- The edges of a box, in the order they are written one by one. -/
def writtenEdges : List String :=
  ["top", "bottom", "left", "right"]

/-- The values of the four edges that one value to four values give. -/
def fourValues? (values : List String) : Option (List String) :=
  match values with
  | [all] => some [all, all, all, all]
  | [vertical, horizontal] => some [vertical, horizontal, vertical, horizontal]
  | [top, horizontal, bottom] => some [top, horizontal, bottom, horizontal]
  | [top, right, bottom, left] => some [top, right, bottom, left]
  | _ => none

/-- The values of four edges as few as they can be. -/
def fewValues (values : List String) : List String :=
  match values with
  | [top, right, bottom, left] =>
      if right != left then values
      else if top != bottom then [top, right, bottom]
      else if top != right then [top, right]
      else [top]
  | _ => values

/-- The words of a value that is written tightly. -/
def blankSeparated (value : String) : List String :=
  (wordsOfValue value).filterMap fun word =>
    if word = [' '] then none else some (String.ofList word)

/-- What a declaration says of the edges of a box. -/
def edgesOf (box : String) (declaration : Declaration) : List (String × String) :=
  if declaration.property = box then
    edges.zip ((fourValues? (blankSeparated declaration.value)).getD [])
  else
    edges.filterMap fun edge =>
      if declaration.property = box ++ "-" ++ edge then some (edge, declaration.value) else none

/-- Whether a declaration speaks of the edges of a box, and of nothing else. -/
def isOfBox (box : String) (declaration : Declaration) : Bool :=
  !(edgesOf box declaration).isEmpty

/-- The declarations of a box brought together. -/
def joinBox (box : String) (declarations : List Declaration) : List Declaration :=
  let (boxed, others) := declarations.partition (isOfBox box)
  let said := (boxed.flatMap (edgesOf box)).reverse
  let important := boxed.any Declaration.important
  let whole := edges.filterMap fun edge => said.lookup edge
  let joined :=
    if whole.length = 4 then [⟨box, String.intercalate " " (fewValues whole), important⟩]
    else
      writtenEdges.filterMap fun edge =>
        (said.lookup edge).map fun value => (⟨box ++ "-" ++ edge, value, important⟩ : Declaration)
  joined ++ others

/-- The properties whose values are those of four edges, besides the ones that are joined. -/
def edgeProperties : List String :=
  ["border-width", "border-style", "border-color", "border-radius"]

/-- The styles of borders. -/
def borderStyles : List String :=
  ["none", "hidden", "dotted", "dashed", "solid", "double", "groove", "ridge", "inset", "outset"]

/-- Whether a word is the width of a border. -/
def isBorderWidth (word : String) : Bool :=
  (Quantity.read? word.toList).isSome || ["thin", "medium", "thick"].contains word

/-- The value of a border: width, style and colour, each where it says something. -/
def compactBorder (value : String) : String :=
  let words := blankSeparated value
  if 3 < words.length then value
  else
    let width := words.filter fun word => isBorderWidth word && word != "medium"
    let style := words.filter fun word => borderStyles.contains word && word != "none"
    let colour := words.filter fun word =>
      !isBorderWidth word && !borderStyles.contains word && Text.lower word != "currentcolor"
    let kept := width ++ style ++ colour
    if kept.isEmpty then "none" else String.intercalate " " kept

/-- The properties whose values are those of one border. -/
def borderProperties : List String :=
  ["border", "border-top", "border-right", "border-bottom", "border-left", "outline"]

/-- A declaration by itself in as few characters as it can be written. -/
def compactDeclaration (declaration : Declaration) : Declaration :=
  let property := declaration.property
  let value := compactValue property declaration.value
  let value :=
    if edgeProperties.contains property && !value.toList.contains '/' then
      match fourValues? (blankSeparated value) with
      | some values => String.intercalate " " (fewValues values)
      | none => value
    else if borderProperties.contains property then compactBorder value
    else if property = "background" && (value = "none" || value = "#0000") then "0 0"
    else value
  { declaration with value := value }

/-- Declarations of one importance, brought together. -/
def compactGroup (declarations : List Declaration) : List Declaration :=
  let single := declarations.map compactDeclaration
  let (lonely, grouped) := single.partition fun declaration => groupOf declaration.property = 0
  let lonely := lonely.foldl addLonely []
  let grouped := (joinBox "margin" (joinBox "padding" grouped)).foldl addGrouped []
  let place := fun (declaration : Declaration) =>
    (groupOf declaration.property,
      (orderedProperties.findIdx? (· = declaration.property)).getD 0)
  let comesFirst := fun (first second : Declaration) =>
    let (group, within) := place first
    let (group', within') := place second
    group < group' || (group = group' && within ≤ within')
  lonely ++ grouped.mergeSort comesFirst

/-- Declarations in as few characters as they can be written. -/
def compactDeclarations (declarations : List Declaration) : List Declaration :=
  let (important, plain) := declarations.partition Declaration.important
  compactGroup plain ++ compactGroup important

/-- A declaration without a blank around its mark. -/
def writeDeclaration (declaration : Declaration) : String :=
  declaration.property ++ ":" ++ declaration.value ++
    (if declaration.important then "!important" else "")

/-- The declarations of a block or an attribute. -/
def writeDeclarations (declarations : List Declaration) : String :=
  String.intercalate ";" ((compactDeclarations declarations).map writeDeclaration)

/-- The value of a `style` attribute in as few characters as it can be written. -/
def compactStyle (style : String) : String :=
  writeDeclarations (Css.readDeclarations style)

end Compact
end MailPress
