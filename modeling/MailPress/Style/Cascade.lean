import MailPress.Css.Reader
import MailPress.Css.Selector

/-!
# The cascade

Of several declarations of one property, the one with the greatest rank counts.
Rank compares importance first, then whether the declaration stands in the
`style` attribute itself, then the weight of the selector, then the position in
the source.

Resolving orders the candidates by rank. A property keeps the place at which it
first comes up, and takes the value of its last candidate.
-/

namespace MailPress
namespace Style

/-- The rank of a declaration in the cascade. -/
structure Rank where
  /-- Whether the declaration is marked important. -/
  important : Bool
  /-- Whether it stands in the `style` attribute. -/
  own : Bool
  /-- The weight of the selector that brings it. -/
  specificity : Css.Specificity
  /-- Its position in the source. -/
  position : Nat
  deriving DecidableEq, Repr, Inhabited

/-- Whether one rank is at most another. -/
def Rank.le (first second : Rank) : Bool :=
  if first.important ≠ second.important then second.important
  else if first.own ≠ second.own then second.own
  else if first.specificity ≠ second.specificity then first.specificity.le second.specificity
  else first.position ≤ second.position

/-- A declaration that competes for an element. -/
structure Candidate where
  /-- Its rank. -/
  rank : Rank
  /-- The property. -/
  property : String
  /-- The value. -/
  value : String
  deriving DecidableEq, Repr, Inhabited

/-- The candidates that some declarations of one origin make, from a position on. -/
def candidatesOf
    (own : Bool)
    (specificity : Css.Specificity)
    (start : Nat)
    (declarations : List Css.Declaration) :
    List Candidate :=
  (declarations.zipIdx start).map fun (declaration, position) =>
    ⟨⟨declaration.important, own, specificity, position⟩, declaration.property,
      declaration.value⟩

/-- Give a property its value, in the place it has or at the end. -/
def assign (property value : String) : List (String × String) → List (String × String)
  | [] => [(property, value)]
  | (other, old) :: rest =>
      if other = property then (other, value) :: rest
      else (other, old) :: assign property value rest

/-- The properties that some candidates resolve to, with their values. -/
def resolve (candidates : List Candidate) : List (String × String) :=
  (candidates.mergeSort fun first second => first.rank.le second.rank).foldl
    (fun resolved candidate => assign candidate.property candidate.value resolved) []

/-- The text of a `style` attribute with these properties. -/
def styleText (resolved : List (String × String)) : String :=
  String.intercalate " " (resolved.map fun (property, value) => property ++ ": " ++ value ++ ";")

end Style
end MailPress
