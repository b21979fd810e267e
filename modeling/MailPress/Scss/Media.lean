import MailPress.Css.Reader
import MailPress.Text.Blank

/-!
# Media queries

A media rule inside another one holds where both hold, so their queries are
merged pair by pair. Two queries that never hold together have no merger, and
for some pairs the merger cannot be written as one query.
-/

namespace MailPress
namespace Scss

/-- A media query: a kind of medium and conditions. -/
structure MediaQuery where
  /-- The word before the kind. -/
  modifier : Option String
  /-- The kind of medium. -/
  kind : Option String
  /-- The conditions, with their parentheses. -/
  conditions : List String
  deriving DecidableEq, Repr, Inhabited

/-- The text of a query. -/
def MediaQuery.write (query : MediaQuery) : String :=
  let head := (query.modifier.toList ++ query.kind.toList).intersperse " "
  String.intercalate " and "
    ((if head.isEmpty then [] else [String.join head]) ++ query.conditions)

/-- The words of a query; what stands in parentheses is one word. -/
def queryWords : (depth : Nat) → List Char → List (List Char)
  | _, [] => [[]]
  | depth, c :: rest =>
      if depth = 0 && Text.isBlank c then [] :: queryWords 0 rest
      else
        let depth := if c = '(' then depth + 1 else if c = ')' then depth - 1 else depth
        match queryWords depth rest with
        | word :: words => (c :: word) :: words
        | [] => [[c]]

/-- Read the words of a query. -/
def readQueryWords (words : List String) : MediaQuery :=
  let isCondition := fun word => Text.hasStart "(" word
  let conditions := fun (rest : List String) =>
    rest.filter fun word => !Text.sameIgnoringCase word "and"
  match words with
  | modifier :: kind :: rest =>
      if isCondition modifier then ⟨none, none, conditions words⟩
      else if Text.sameIgnoringCase kind "and" then ⟨none, some modifier, conditions rest⟩
      else if isCondition kind then
        ⟨none, none, [String.intercalate " " words]⟩
      else ⟨some modifier, some kind, conditions rest⟩
  | [word] => if isCondition word then ⟨none, none, [word]⟩ else ⟨none, some word, []⟩
  | [] => ⟨none, none, []⟩

/-- Read a query. Conditions joined by `or` are kept as one. -/
def MediaQuery.read (text : List Char) : MediaQuery :=
  let words := ((queryWords 0 text).filter (!·.isEmpty)).map String.ofList
  if words.any (Text.sameIgnoringCase · "or") then ⟨none, none, [String.intercalate " " words]⟩
  else readQueryWords words

/-- Read a list of queries. -/
def readQueries (text : String) : List MediaQuery :=
  ((Css.cutAtTopLevel ',' text.toList).map Text.trim).filterMap fun query =>
    if query.isEmpty then none else some (MediaQuery.read query)

/-- The text of a list of queries. -/
def writeQueries (queries : List MediaQuery) : String :=
  String.intercalate ", " (queries.map MediaQuery.write)

/-- What two queries come to together. -/
inductive Merger
  /-- They never hold together. -/
  | empty
  /-- They hold together where no single query says. -/
  | unwritable
  /-- They hold together where this query holds. -/
  | query (query : MediaQuery)
  deriving DecidableEq, Repr

/-- Whether a query excludes a kind of medium. -/
def MediaQuery.isNegative (query : MediaQuery) : Bool :=
  query.modifier.any (Text.sameIgnoringCase · "not")

/-- Whether a query holds for every kind of medium. -/
def MediaQuery.isForAll (query : MediaQuery) : Bool :=
  query.kind.all (Text.sameIgnoringCase · "all")

/-- Whether every condition of one list is in the other. -/
def areAmong (conditions others : List String) : Bool :=
  conditions.all others.contains

/-- Merge two queries. -/
def MediaQuery.merge (first second : MediaQuery) : Merger :=
  let conditions := first.conditions ++ second.conditions
  let sameKind := first.kind.map Text.lower == second.kind.map Text.lower
  if first.kind.isNone && second.kind.isNone then .query ⟨none, none, conditions⟩
  else if first.isNegative != second.isNegative then
    let negative := if first.isNegative then first else second
    let positive := if first.isNegative then second else first
    if sameKind then
      if areAmong negative.conditions positive.conditions then .empty else .unwritable
    else if first.isForAll || second.isForAll then .unwritable
    else .query positive
  else if first.isNegative then
    if !sameKind then .unwritable
    else
      let longer := if second.conditions.length < first.conditions.length then first else second
      let shorter := if second.conditions.length < first.conditions.length then second else first
      if areAmong shorter.conditions longer.conditions then .query longer else .unwritable
  else if first.isForAll then
    .query ⟨second.modifier,
      if second.isForAll && first.kind.isNone then none else second.kind, conditions⟩
  else if second.isForAll then .query ⟨first.modifier, first.kind, conditions⟩
  else if !sameKind then .empty
  else .query ⟨if first.modifier.isSome then first.modifier else second.modifier,
    first.kind, conditions⟩

/-- Merge two lists of queries pair by pair; none when a merger cannot be written. -/
def mergeQueries? (outer inner : List MediaQuery) : Option (List MediaQuery) :=
  (outer.flatMap fun first => inner.map fun second => first.merge second).foldr
    (fun merger rest =>
      match merger, rest with
      | _, none => none
      | .unwritable, _ => none
      | .empty, rest => rest
      | .query query, some queries => some (query :: queries))
    (some [])

end Scss
end MailPress
