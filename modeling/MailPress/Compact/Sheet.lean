import MailPress.Compact.Declarations

/-!
# Compact style sheets

Style sheets in as few characters as they can be written: rules that say nothing are
left out, neighbours that share their selectors or their declarations are joined,
and bounds in media queries are written as comparisons.
-/

namespace MailPress
namespace Compact

open Css (Rule Item Declaration Sheet)

/-- The elements that may be written with a single colon. -/
def singleColonElements : List String :=
  ["before", "after", "first-line", "first-letter"]

/-- An attribute test without needless quotes. -/
def compactTest (test : List Char) : List Char :=
  match Text.splitOnce ['='] test with
  | none => test
  | some (name, value) =>
      match unquoted? value with
      | some content =>
          name ++ '=' :: (if isPlainName content then content else '"' :: content ++ ['"'])
      | none => test

/-- Shorten the attribute tests of a selector; `test` holds the one that is begun, from the back. -/
def compactTests (test : Option (List Char)) : List Char → List Char
  | [] => (test.map fun begun => '[' :: begun.reverse).getD []
  | c :: rest =>
      match test with
      | some begun =>
          if c = ']' then '[' :: compactTest begun.reverse ++ ']' :: compactTests none rest
          else compactTests (some (c :: begun)) rest
      | none => if c = '[' then compactTests (some []) rest else c :: compactTests none rest

/-- A selector in as few characters as it can be written. -/
def compactSelector (selector : String) : String :=
  let tight := (Css.minifySelector selector).toList
  let shortened := singleColonElements.foldl (fun text name =>
    Text.replaceAll ("::" ++ name).toList (":" ++ name).toList text) tight
  String.ofList (compactTests none shortened)

/-- The words of a query, a condition in parentheses being one of them. -/
def wordsOfQuery (query : String) : List String :=
  ((wordsFrom 0 none [] (Css.tighten (fun _ => false) query.toList)).filter (· != [' '])).map
    String.ofList

/-- A condition of a query: a lower or an upper bound is a comparison. -/
def compactCondition (condition : List Char) : List Char :=
  let inside := (condition.drop 1).dropLast
  match Text.splitOnce [':'] inside with
  | none => '(' :: Text.trim inside ++ [')']
  | some (name, value) =>
      let name := (Text.trim name).map Text.lowerChar
      let value := (compactValue "" (String.ofList value)).toList
      let (vendor, feature) :=
        match Text.dropStart? "-webkit-".toList name with
        | some feature => ("-webkit-".toList, feature)
        | none => ([], name)
      match Text.dropStart? "min-".toList feature, Text.dropStart? "max-".toList feature with
      | some feature, _ => '(' :: vendor ++ feature ++ ['>', '='] ++ value ++ [')']
      | none, some feature => '(' :: vendor ++ feature ++ ['<', '='] ++ value ++ [')']
      | none, none => '(' :: name ++ ':' :: value ++ [')']

/-- A media query in as few characters as it can be written. -/
def compactQuery (query : String) : String :=
  let words := (wordsOfQuery query).map fun word =>
    if Text.hasStart "(" word then String.ofList (compactCondition word.toList)
    else Text.lower word
  let words := match words with
    | "all" :: "and" :: rest => rest
    | _ => words
  String.intercalate " " words

/-- A list of media queries in as few characters as it can be written. -/
def compactQueries (queries : String) : String :=
  let parts := Css.cutAtTopLevel ',' queries.toList
  String.intercalate "," (parts.map fun part => compactQuery (String.ofList (Text.trim part)))

/-- What stands between the name of an at-rule and its block. -/
def compactPrelude (name prelude : String) : String :=
  if name = "media" then compactQueries prelude else Css.minifyPrelude prelude

/-- Join a rule to the one before it, if they share their selectors or their declarations. -/
def joinRules? (first second : Rule) : Option Rule :=
  if first.selectors = second.selectors then
    some { first with
      declarations := compactDeclarations (first.declarations ++ second.declarations) }
  else if first.declarations = second.declarations then
    some { first with selectors := first.selectors ++ second.selectors }
  else none

/-- Whether a rule says all that another one says. -/
def overrides (later earlier : Rule) : Bool :=
  later.selectors = earlier.selectors &&
    later.declarations.map (fun d => (d.property, d.important)) =
      earlier.declarations.map fun d => (d.property, d.important)

/-- Add an item to the ones before it, which are given from the back. -/
def addItem (before : List Item) (item : Item) : List Item :=
  match item, before with
  | .rule rule, .rule last :: others =>
      match joinRules? last rule with
      | some joined => .rule joined :: others
      | none =>
          let kept := others.filter fun other =>
            match other with
            | .rule earlier => !overrides rule earlier
            | _ => true
          if overrides rule last then .rule rule :: kept else .rule rule :: .rule last :: kept
  | .group name prelude items, .group other otherPrelude otherItems :: others =>
      if name = "media" && other = "media" && prelude = otherPrelude then
        .group name prelude (otherItems ++ items) :: others
      else item :: before
  | _, _ => item :: before

/-- The names of the steps of an animation. -/
def compactStep (step : String) : String :=
  if Text.lower step = "from" then "0%" else if step = "100%" then "to" else step

mutual

/-- An item in as few characters as it can be written; none if it says nothing. -/
def compactItem (isAnimation : Bool) : Item → Option Item
  | .rule rule =>
      let declarations := compactDeclarations rule.declarations
      let compactHead := if isAnimation then compactStep else compactSelector
      if declarations.isEmpty then none
      else some (.rule ⟨rule.selectors.map compactHead, declarations⟩)
  | .statement name prelude =>
      if name = "charset" then none else some (.statement name (compactPrelude name prelude))
  | .group name prelude items =>
      let items := compactItems (Text.hasEnd "keyframes" name) [] items
      if items.isEmpty then none else some (.group name (compactPrelude name prelude) items)
  | .descriptors name prelude declarations =>
      some (.descriptors name (compactPrelude name prelude)
        (declarations.map compactDeclaration))

/-- Items in as few characters as they can be written, after the ones given from the back. -/
def compactItems (isAnimation : Bool) (before : List Item) : List Item → List Item
  | [] => before.reverse
  | item :: rest =>
      match compactItem isAnimation item with
      | some compacted => compactItems isAnimation (addItem before compacted) rest
      | none => compactItems isAnimation before rest

end

/-- Write a block of declarations. -/
def writeBlock (declarations : List Declaration) : String :=
  "\x7b" ++ String.intercalate ";" (declarations.map writeDeclaration) ++ "\x7d"

/-- Write the name and the prelude of an at-rule. -/
def writeHead (name prelude : String) : String :=
  if prelude.isEmpty then "@" ++ name else "@" ++ name ++ " " ++ prelude

mutual

/-- Write an item. -/
def writeItem : Item → String
  | .rule rule => String.intercalate "," rule.selectors ++ writeBlock rule.declarations
  | .statement name prelude => writeHead name prelude ++ ";"
  | .group name prelude items => writeHead name prelude ++ "\x7b" ++ writeItems items ++ "\x7d"
  | .descriptors name prelude declarations => writeHead name prelude ++ writeBlock declarations

/-- Write items. -/
def writeItems : List Item → String
  | [] => ""
  | item :: rest => writeItem item ++ writeItems rest

end

/-- A style sheet in as few characters as it can be written. -/
def compactSheet (css : String) : String :=
  writeItems (compactItems false [] (Sheet.read css).items)

end Compact
end MailPress
