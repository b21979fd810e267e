import MailPress.Css.Selector.Reader
import MailPress.Markup.Document

/-!
# Matching

A selector matches an element when the element passes the tests of its last
compound, and an element that stands to it as the combinator says is matched by
what is left of it.

There are two modes. For inlining, a test that cannot be decided on a document
at rest fails. To find out whether a selector could ever apply, such a test
passes.

The search goes from right to left and ends with the first success. A position that
cannot be decided ends the program, but only if the search comes to it.
-/

namespace MailPress
namespace Markup
namespace Document

/-- The elements above a node, nearest first. -/
def ancestors (document : Document) (id : Nat) : List Nat :=
  match document.parentElement? id with
  | some parent => if parent < id then parent :: document.ancestors parent else []
  | none => []
termination_by id

end Document
end Markup

namespace Css

/-- How tests are taken that cannot be decided on a document at rest. -/
inductive MatchMode
  /-- They fail. -/
  | static
  /-- They pass. -/
  | presence
  deriving DecidableEq, Repr, Inhabited

/-- Whether an attribute value stands in the relation to the wanted value. -/
def Relation.holds (relation : Relation) (wanted actual : String) : Bool :=
  match relation with
  | .present => true
  | .equals => actual == wanted
  | .includes => (Text.asciiWords actual).contains wanted
  | .dashMatches => actual == wanted || Text.hasStart (wanted ++ "-") actual
  | .startsWith => !wanted.isEmpty && Text.hasStart wanted actual
  | .endsWith => !wanted.isEmpty && Text.hasEnd wanted actual
  | .contains => !wanted.isEmpty && Text.holds wanted actual

/-- Whether an element passes an attribute test. -/
def AttributeTest.holds (test : AttributeTest) (element : Markup.Element) : Bool :=
  (element.decodedAttr? test.name).any (test.relation.holds test.value)

/-- How many of the nodes are elements of the name. -/
def countNamed (document : Markup.Document) (name : String) (ids : List Nat) : Nat :=
  ids.countP (document.isNamed name)

/-- The nodes that stand to a node as a combinator says, nearest first. -/
def Combinator.related
    (combinator : Combinator)
    (document : Markup.Document)
    (id : Nat) :
    List Nat :=
  match combinator with
  | .child => (document.parentElement? id).toList
  | .descendant => document.ancestors id
  | .adjacent => (document.precedingSiblings id).take 1
  | .sibling => document.precedingSiblings id

mutual

/-- Whether an element passes a test. -/
def Simple.holds
    (mode : MatchMode)
    (document : Markup.Document) :
    Simple → Nat → Markup.Element → Bool
  | .type name, _, element => element.name == name
  | .id name, _, element => element.id? == some name
  | .className name, _, element => element.classes.contains name
  | .attr test, _, element => test.holds element
  | .firstChild, id, _ => (document.precedingSiblings id).isEmpty
  | .lastChild, id, _ => (document.followingSiblings id).isEmpty
  | .onlyChild, id, _ =>
      (document.precedingSiblings id).isEmpty && (document.followingSiblings id).isEmpty
  | .firstOfType, id, element =>
      countNamed document element.name (document.precedingSiblings id) == 0
  | .lastOfType, id, element =>
      countNamed document element.name (document.followingSiblings id) == 0
  | .onlyOfType, id, element =>
      countNamed document element.name (document.precedingSiblings id) == 0 &&
        countNamed document element.name (document.followingSiblings id) == 0
  | .nthChild nth, id, _ => nth.holds ((document.precedingSiblings id).length + 1)
  | .nthLastChild nth, id, _ => nth.holds ((document.followingSiblings id).length + 1)
  | .nthOfType nth, id, element =>
      nth.holds (countNamed document element.name (document.precedingSiblings id) + 1)
  | .nthLastOfType nth, id, element =>
      nth.holds (countNamed document element.name (document.followingSiblings id) + 1)
  | .not selectors, id, _ =>
      if mode = .presence && !allStatic selectors then true
      else !anyMatches mode document selectors id
  | .dynamic, _, _ => mode == .presence
  | .element, _, _ => mode == .presence
  | .unknown, _, _ => mode == .presence

/-- Whether an element passes all tests of a compound. -/
def testsHold
    (mode : MatchMode)
    (document : Markup.Document) :
    List Simple → Nat → Markup.Element → Bool
  | [], _, _ => true
  | test :: tests, id, element =>
      test.holds mode document id element && testsHold mode document tests id element

/-- Whether a selector matches a node. -/
def Selector.matches
    (mode : MatchMode)
    (document : Markup.Document) :
    Selector → Nat → Bool
  | .compound tests, id =>
      (document.element? id).any fun element => testsHold mode document tests id element
  | .combined left combinator tests, id =>
      ((document.element? id).any fun element => testsHold mode document tests id element) &&
        (combinator.related document id).any fun other => left.matches mode document other

/-- Whether one of the selectors matches a node. -/
def anyMatches
    (mode : MatchMode)
    (document : Markup.Document) :
    List Selector → Nat → Bool
  | [], _ => false
  | selector :: selectors, id =>
      selector.matches mode document id || anyMatches mode document selectors id

end

/-- Whether a selector matches an element of the document. -/
def Selector.matchesAny
    (selector : Selector)
    (mode : MatchMode)
    (document : Markup.Document) :
    Bool :=
  document.elements.any (selector.matches mode document)

/-! ## The end of the program -/

/-- Whether a search through a list ends the program before it finds anything. -/
def stopsSearch (stops finds : α → Bool) : List α → Bool
  | [] => false
  | item :: items => stops item || (!finds item && stopsSearch stops finds items)

/-- Whether a test is about the name and the attributes of an element. Such tests come first. -/
def Simple.isPlain : Simple → Bool
  | .type _ => true
  | .id _ => true
  | .className _ => true
  | .attr _ => true
  | _ => false

mutual

/-- Whether taking a test ends the program. -/
def Simple.stops
    (mode : MatchMode)
    (document : Markup.Document) :
    Simple → Nat → Markup.Element → Bool
  | .nthChild nth, id, _ => nth.stops ((document.precedingSiblings id).length + 1)
  | .nthLastChild nth, id, _ => nth.stops ((document.followingSiblings id).length + 1)
  | .nthOfType nth, id, element =>
      nth.stops (countNamed document element.name (document.precedingSiblings id) + 1)
  | .nthLastOfType nth, id, element =>
      nth.stops (countNamed document element.name (document.followingSiblings id) + 1)
  | .not selectors, id, _ =>
      !(mode = .presence && !allStatic selectors) && anyStops mode document selectors id
  | _, _, _ => false

/-- Whether taking tests one after another, up to the first that fails, ends the program. -/
def testsStop
    (mode : MatchMode)
    (document : Markup.Document) :
    List Simple → Nat → Markup.Element → Bool
  | [], _, _ => false
  | test :: tests, id, element =>
      test.stops mode document id element ||
        (test.holds mode document id element && testsStop mode document tests id element)

/-- Whether asking if a selector matches a node ends the program. -/
def Selector.stops
    (mode : MatchMode)
    (document : Markup.Document) :
    Selector → Nat → Bool
  | .compound tests, id =>
      (document.element? id).any fun element =>
        testsHold mode document (tests.filter Simple.isPlain) id element &&
          testsStop mode document tests id element
  | .combined left combinator tests, id =>
      (document.element? id).any fun element =>
        testsHold mode document (tests.filter Simple.isPlain) id element &&
          (testsStop mode document tests id element ||
            (testsHold mode document tests id element &&
              stopsSearch (fun other => left.stops mode document other)
                (fun other => left.matches mode document other)
                (combinator.related document id)))

/-- Whether asking if one of the selectors matches a node ends the program. -/
def anyStops
    (mode : MatchMode)
    (document : Markup.Document) :
    List Selector → Nat → Bool
  | [], _ => false
  | selector :: selectors, id =>
      selector.stops mode document id ||
        (!selector.matches mode document id && anyStops mode document selectors id)

end

/-- Whether asking if a selector matches any element ends the program. -/
def Selector.stopsAny
    (selector : Selector)
    (mode : MatchMode)
    (document : Markup.Document) :
    Bool :=
  stopsSearch (selector.stops mode document) (selector.matches mode document) document.elements

/-- The answer to whether a selector matches a node; none when asking ends the program. -/
def Selector.matches?
    (selector : Selector)
    (mode : MatchMode)
    (document : Markup.Document)
    (id : Nat) :
    Option Bool :=
  if selector.stops mode document id then none else some (selector.matches mode document id)

end Css
end MailPress
