import MailPress.Css.Nth

/-!
# Selectors

A selector is a chain of compounds joined by combinators. A compound is a list
of simple tests that one element must pass; the universal test adds nothing and
is left out.

A pseudo-class is static when it can be decided on a document at rest. Only
selectors whose pseudo-classes are all static can be inlined.
-/

namespace MailPress
namespace Css

/-- How an element stands to the one that the left part of a selector matches. -/
inductive Combinator
  /-- Somewhere below it. -/
  | descendant
  /-- Directly below it. -/
  | child
  /-- Next to it. -/
  | adjacent
  /-- Somewhere behind it, below the same parent. -/
  | sibling
  deriving DecidableEq, Repr, Inhabited

/-- The relation that an attribute test asks for. -/
inductive Relation
  | present
  | equals
  | includes
  | dashMatches
  | startsWith
  | endsWith
  | contains
  deriving DecidableEq, Repr, Inhabited

/-- A test of one attribute. -/
structure AttributeTest where
  /-- Lowercase name of the attribute. -/
  name : String
  /-- The relation asked for. -/
  relation : Relation
  /-- The value that the attribute is compared with. -/
  value : String
  deriving DecidableEq, Repr, Inhabited

mutual

/-- A test of one element. -/
inductive Simple
  /-- The element has this name. -/
  | type (name : String)
  /-- The element has this identifier. -/
  | id (name : String)
  /-- The element has this class. -/
  | className (name : String)
  /-- The element has a certain attribute. -/
  | attr (test : AttributeTest)
  | firstChild
  | lastChild
  | onlyChild
  | firstOfType
  | lastOfType
  | onlyOfType
  | nthChild (nth : Nth)
  | nthLastChild (nth : Nth)
  | nthOfType (nth : Nth)
  | nthLastOfType (nth : Nth)
  /-- The element matches none of these selectors. -/
  | not (selectors : List Selector)
  /-- A pseudo-class that depends on the user. -/
  | dynamic
  /-- A pseudo-element. -/
  | element
  /-- A pseudo-class that is not modelled. -/
  | unknown

/-- A selector without commas. -/
inductive Selector
  /-- One compound. -/
  | compound (tests : List Simple)
  /-- A compound to the right of a selector. -/
  | combined (left : Selector) (combinator : Combinator) (tests : List Simple)

end

instance : Inhabited Simple := ⟨.unknown⟩

instance : Inhabited Selector := ⟨.compound []⟩

/-- The weight of a selector: identifiers, then classes and their like, then names. -/
structure Specificity where
  /-- Number of identifiers. -/
  ids : Nat
  /-- Number of classes, attribute tests and pseudo-classes. -/
  classes : Nat
  /-- Number of element names and pseudo-elements. -/
  types : Nat
  deriving DecidableEq, Repr, Inhabited

namespace Specificity

/-- No weight at all. -/
def zero : Specificity :=
  ⟨0, 0, 0⟩

/-- The weight of two parts together. -/
def add (first second : Specificity) : Specificity :=
  ⟨first.ids + second.ids, first.classes + second.classes, first.types + second.types⟩

/-- Whether one weight is at most another, the first counts deciding first. -/
def le (first second : Specificity) : Bool :=
  if first.ids ≠ second.ids then first.ids < second.ids
  else if first.classes ≠ second.classes then first.classes < second.classes
  else first.types ≤ second.types

/-- The greater of two weights. -/
def max (first second : Specificity) : Specificity :=
  if first.le second then second else first

end Specificity

mutual

/-- The weight of one test; a negation weighs as much as its heaviest argument. -/
def Simple.specificity : Simple → Specificity
  | .type _ => ⟨0, 0, 1⟩
  | .element => ⟨0, 0, 1⟩
  | .id _ => ⟨1, 0, 0⟩
  | .not selectors => greatestSpecificity selectors
  | _ => ⟨0, 1, 0⟩

/-- The weight of the tests of a compound. -/
def totalSpecificity : List Simple → Specificity
  | [] => .zero
  | test :: tests => test.specificity.add (totalSpecificity tests)

/-- The weight of a selector. -/
def Selector.specificity : Selector → Specificity
  | .compound tests => totalSpecificity tests
  | .combined left _ tests => left.specificity.add (totalSpecificity tests)

/-- The greatest weight among some selectors. -/
def greatestSpecificity : List Selector → Specificity
  | [] => .zero
  | selector :: selectors => selector.specificity.max (greatestSpecificity selectors)

end

mutual

/-- Whether a test can be decided on a document at rest. -/
def Simple.isStatic : Simple → Bool
  | .dynamic => false
  | .element => false
  | .unknown => false
  | .not selectors => allStatic selectors
  | _ => true

/-- Whether all tests can be decided on a document at rest. -/
def testsStatic : List Simple → Bool
  | [] => true
  | test :: tests => test.isStatic && testsStatic tests

/-- Whether a selector can be decided on a document at rest. -/
def Selector.isStatic : Selector → Bool
  | .compound tests => testsStatic tests
  | .combined left _ tests => left.isStatic && testsStatic tests

/-- Whether all selectors can be decided on a document at rest. -/
def allStatic : List Selector → Bool
  | [] => true
  | selector :: selectors => selector.isStatic && allStatic selectors

end

/-- The pseudo-classes of user action. -/
def dynamicNames : List String :=
  ["hover", "visited", "active", "focus"]

/-- A character that continues the name of a pseudo-class. -/
def continuesName (c : Char) : Bool :=
  Text.isAsciiAlphanumeric c || c == '-'

/-- Whether a colon and this name stand at the start of the text. -/
def startsPseudo (text : List Char) (name : String) : Bool :=
  match Text.dropStart? (':' :: name.toList) text with
  | some rest => !rest.head?.any continuesName
  | none => false

/-- Whether a pseudo-class of user action occurs in the text. -/
def mentionsDynamic : List Char → Bool
  | [] => false
  | c :: rest => dynamicNames.any (startsPseudo (c :: rest)) || mentionsDynamic rest

/-- Whether a selector, given as text, uses a pseudo-class of user action. -/
def hasDynamicPseudo (selector : String) : Bool :=
  mentionsDynamic (selector.toList.map Text.lowerChar)

end Css
end MailPress
