import Mathlib.Data.List.Forall2
import MailPress.Css.Matching
import MailPress.Proofs.Markup.Links

/-!
# What a selector matches

A selector asks for a chain of elements, one for each compound, each standing to the next one
as the combinator between their compounds says. The search for such a chain starts at the last
element and gives up on an element only after it has tried everything that stands to it, so
that it finds a chain whenever there is one. It may end the program, but only at a formula for
positions that has no answer at some position.

Asking for presence is the same as deleting every test that cannot be decided on a document at
rest, negations of such tests included, and matching what is left. A negation with arguments
that can be decided goes on to be decided: its arguments answer the same in both modes, so that
nothing below a negation has to be deleted.
-/

namespace MailPress

namespace Markup
namespace Document

variable {document : Document}

/-- The element is the parent of the node. -/
def IsParentElement (document : Document) (upper id : Nat) : Prop :=
  document.parent? id = some upper ∧ document.isElement upper = true

/-- The element is reached from the node by going from parent element to parent element. -/
def IsAncestorElement (document : Document) (upper id : Nat) : Prop :=
  Relation.TransGen (fun lower upper => document.IsParentElement upper lower) id upper

theorem parentElement?_eq_some_iff
    {upper id : Nat} :
    document.parentElement? id = some upper ↔ document.IsParentElement upper id := by
  rw [parentElement?, Option.filter_eq_some_iff, IsParentElement]

namespace IsForest

/-- The elements above a node are those that can be reached from it. -/
theorem mem_ancestors_iff
    (forest : document.IsForest)
    {upper id : Nat} :
    upper ∈ document.ancestors id ↔ document.IsAncestorElement upper id := by
  induction id using Nat.strongRecOn with
  | ind id inductionHypothesis =>
      rw [ancestors, IsAncestorElement, Relation.TransGen.head'_iff]
      cases above : document.parentElement? id with
      | none =>
          simp only [List.not_mem_nil, false_iff]
          rintro ⟨parent, step, _⟩
          cases above.symm.trans (parentElement?_eq_some_iff.mpr step)
      | some parent =>
          have step := parentElement?_eq_some_iff.mp above
          have older := forest.parent_lt step.1
          simp only [older, if_true, List.mem_cons, inductionHypothesis parent older]
          constructor
          · intro reached
            exact ⟨parent, step, Relation.reflTransGen_iff_eq_or_transGen.mpr reached⟩
          · rintro ⟨other, otherStep, rest⟩
            obtain rfl := Option.some.inj (otherStep.1.symm.trans step.1)
            exact Relation.reflTransGen_iff_eq_or_transGen.mp rest

/-- In a tree of elements, the elements that can be reached from a node are all elements that
it hangs below. -/
theorem isAncestorElement_iff
    (forest : document.IsForest)
    (tree : document.IsElementTree)
    {upper id : Nat} :
    document.IsAncestorElement upper id ↔
      document.isElement upper = true ∧ document.IsBelow upper id := by
  constructor
  · intro reached
    refine ⟨?_, Relation.TransGen.mono (fun _ _ step => step.1) _ _ reached⟩
    obtain ⟨_, _, step⟩ := Relation.TransGen.tail'_iff.mp reached
    exact step.2
  · rintro ⟨isElement, below⟩
    induction below using Relation.TransGen.head_induction_on with
    | single step => exact .single ⟨step, isElement⟩
    | head step rest reached =>
        -- The root hangs below nothing, so the way up goes through elements only.
        refine .head ⟨step, (tree _ _ step).resolve_left ?_⟩ reached
        rintro rfl
        exact absurd (forest.lt_of_isBelow rest) (Nat.not_lt_zero upper)

/-- Going from parent element to parent element comes to an end. -/
theorem iterate_parentElement?
    (forest : document.IsForest)
    (id : Nat) :
    (fun current : Option Nat => current.bind document.parentElement?)^[id + 1] (some id) =
      none := by
  have none_stays (rounds : Nat) :
      (fun current : Option Nat => current.bind document.parentElement?)^[rounds] none = none :=
    Function.iterate_fixed rfl rounds
  suffices ends : ∀ rounds current, current < rounds →
      (fun current : Option Nat => current.bind document.parentElement?)^[rounds]
        (some current) = none from ends (id + 1) id (Nat.lt_succ_self id)
  intro rounds
  induction rounds with
  | zero => exact fun _ impossible => absurd impossible (Nat.not_lt_zero _)
  | succ rounds inductionHypothesis =>
      intro current bound
      rw [Function.iterate_succ_apply, Option.bind_some]
      cases above : document.parentElement? current with
      | none => exact none_stays rounds
      | some parent =>
          have older := forest.parent_lt (parentElement?_eq_some_iff.mp above).1
          exact inductionHypothesis parent (by omega)

/-- The root is nobody's child. -/
theorem length_children_lt (forest : document.IsForest) (parent : Nat) :
    (document.children parent).length < document.size := by
  have notRoot : root ∉ document.children parent := by
    rw [forest.mem_children_iff, forest.parent?_root]
    rintro ⟨⟩
  have inStore : root :: document.children parent ⊆ List.range document.size := by
    refine List.cons_subset.mpr ⟨List.mem_range.mpr forest.nonempty, fun child listed => ?_⟩
    exact List.mem_range.mpr (lt_size_of_parent? (forest.mem_children_iff.mp listed))
  have bound := (List.subperm_of_subset (.cons notRoot (forest.nodup_children parent))
    inStore).length_le
  rwa [List.length_cons, List.length_range] at bound

theorem length_siblings_lt (forest : document.IsForest) (id : Nat) :
    (document.siblings id).length < document.size := by
  rw [siblings]
  split
  · exact forest.length_children_lt _
  · exact forest.nonempty

theorem length_precedingSiblings_lt (forest : document.IsForest) (id : Nat) :
    (document.precedingSiblings id).length < document.size := by
  rw [precedingSiblings, List.length_reverse]
  exact Nat.lt_of_le_of_lt
    (List.filter_sublist.trans (List.takeWhile_sublist _)).length_le (forest.length_siblings_lt id)

theorem length_followingSiblings_lt (forest : document.IsForest) (id : Nat) :
    (document.followingSiblings id).length < document.size := by
  have part := (List.drop_sublist 1 _).trans
    (List.dropWhile_sublist (· != id) (l := document.siblings id))
  exact Nat.lt_of_le_of_lt (List.filter_sublist.trans part).length_le (forest.length_siblings_lt id)

end IsForest

end Document
end Markup

namespace Css

open Markup.Document (IsForest)

variable {document : Markup.Document}

/-! ## Combinators -/

/-- How one element stands to another by the meaning of a combinator. -/
def Combinator.Stands
    (document : Markup.Document)
    (other id : Nat) :
    Combinator → Prop
  | .child => document.IsParentElement other id
  | .descendant => document.IsAncestorElement other id
  | .adjacent =>
      ∃ parent before between after,
        document.children parent = before ++ other :: (between ++ id :: after) ∧
          document.isElement other = true ∧ ∀ node ∈ between, document.isElement node = false
  | .sibling =>
      ∃ parent before between after,
        document.children parent = before ++ other :: (between ++ id :: after) ∧
          document.isElement other = true

/-- The siblings in front of a node, cut at one of them. -/
theorem precedingSiblings_of_children_eq
    (forest : document.IsForest)
    {parent other id : Nat}
    {before between after : List Nat}
    (listed : document.children parent = before ++ other :: (between ++ id :: after)) :
    document.precedingSiblings id =
      ((before ++ other :: between).filter document.isElement).reverse := by
  have cut : document.children parent = (before ++ other :: between) ++ id :: after := by
    simp [listed]
  have nodup := cut ▸ forest.nodup_children parent
  have notBefore : id ∉ before ++ other :: between := fun again =>
    (List.nodup_append.mp nodup).2.2 id again id List.mem_cons_self rfl
  have below : document.parent? id = some parent := by
    refine forest.mem_children_iff.mp ?_
    simp [cut]
  exact IsForest.precedingSiblings_eq below cut notBefore

/-- Where there are siblings in front of a node, they are children of its parent. -/
theorem exists_children_eq_of_precedingSiblings
    (forest : document.IsForest)
    {other id : Nat}
    (member : other ∈ document.precedingSiblings id) :
    ∃ parent before after, document.children parent = before ++ id :: after ∧
      document.precedingSiblings id = (before.filter document.isElement).reverse := by
  cases above : document.parent? id with
  | none => simp [Markup.Document.precedingSiblings, Markup.Document.siblings, above] at member
  | some parent =>
      obtain ⟨before, after, cut, notBefore⟩ := forest.exists_children_eq above
      exact ⟨parent, before, after, cut, IsForest.precedingSiblings_eq above cut notBefore⟩

theorem mem_precedingSiblings_iff
    (forest : document.IsForest)
    {other id : Nat} :
    other ∈ document.precedingSiblings id ↔
      Combinator.sibling.Stands document other id := by
  constructor
  · intro member
    obtain ⟨parent, front, after, cut, listed⟩ :=
      exists_children_eq_of_precedingSiblings forest member
    rw [listed, List.mem_reverse, List.mem_filter] at member
    obtain ⟨before, between, rfl⟩ := List.append_of_mem member.1
    exact ⟨parent, before, between, after, by simp [cut], member.2⟩
  · rintro ⟨parent, before, between, after, cut, isElement⟩
    rw [precedingSiblings_of_children_eq forest cut]
    simp [isElement]

theorem mem_take_precedingSiblings_iff
    (forest : document.IsForest)
    {other id : Nat} :
    other ∈ (document.precedingSiblings id).take 1 ↔
      Combinator.adjacent.Stands document other id := by
  constructor
  · intro member
    obtain ⟨parent, front, after, cut, listed⟩ :=
      exists_children_eq_of_precedingSiblings forest (List.mem_of_mem_take member)
    have nearest : (document.precedingSiblings id).head? = some other := by
      cases siblings : document.precedingSiblings id with
      | nil => simp [siblings] at member
      | cons first others => simpa [siblings, eq_comm] using member
    rw [listed, ← List.filter_reverse, List.head?_filter] at nearest
    obtain ⟨isElement, between, before, reversed, skipped⟩ :=
      List.find?_eq_some_iff_append.mp nearest
    have front_eq : front = before.reverse ++ other :: between.reverse := by
      rw [← List.reverse_reverse front, reversed]
      simp
    exact ⟨parent, before.reverse, between.reverse, after, by simp [cut, front_eq], isElement,
      by simpa using skipped⟩
  · rintro ⟨parent, before, between, after, cut, isElement, skipped⟩
    have none_between : between.filter document.isElement = [] := by
      simpa using skipped
    rw [precedingSiblings_of_children_eq forest cut, List.filter_append,
      List.filter_cons_of_pos isElement, none_between]
    simp

/-- The nodes that are tried for a combinator are those that stand so. -/
theorem Combinator.mem_related_iff
    (forest : document.IsForest)
    (combinator : Combinator)
    {other id : Nat} :
    other ∈ combinator.related document id ↔ combinator.Stands document other id := by
  cases combinator with
  | child =>
      rw [Combinator.related, Option.mem_toList]
      exact Markup.Document.parentElement?_eq_some_iff
  | descendant => exact forest.mem_ancestors_iff
  | adjacent => exact mem_take_precedingSiblings_iff forest
  | sibling => exact mem_precedingSiblings_iff forest

/-! ## Selectors -/

/-- The compounds of a selector from left to right. -/
def Selector.compounds : Selector → List (List Simple)
  | .compound tests => [tests]
  | .combined left _ tests => left.compounds ++ [tests]

/-- The combinators of a selector from left to right, each behind the compound to its left. -/
def Selector.combinators : Selector → List Combinator
  | .compound _ => []
  | .combined left combinator _ => left.combinators ++ [combinator]

/-- The node is an element that passes all tests of a compound. -/
def Passes
    (mode : MatchMode)
    (document : Markup.Document)
    (tests : List Simple)
    (id : Nat) :
    Prop :=
  ∃ element, document.element? id = some element ∧
    ∀ test ∈ tests, test.holds mode document id element = true

/-- A choice of elements for the compounds of a selector, from left to right. -/
structure Selector.IsMetBy
    (mode : MatchMode)
    (document : Markup.Document)
    (selector : Selector)
    (chosen : List Nat) :
    Prop where
  /-- There is one element for each compound, which passes its tests. -/
  passes : List.Forall₂ (Passes mode document) selector.compounds chosen
  /-- Each element stands to the next one as the combinator in between says. -/
  stands : ∀ index combinator first second, selector.combinators[index]? = some combinator →
    chosen[index]? = some first → chosen[index + 1]? = some second →
    combinator.Stands document first second

theorem testsHold_eq_true_iff
    {mode : MatchMode}
    {tests : List Simple}
    {id : Nat}
    {element : Markup.Element} :
    testsHold mode document tests id element = true ↔
      ∀ test ∈ tests, test.holds mode document id element = true := by
  induction tests with
  | nil => simp [testsHold]
  | cons test tests inductionHypothesis => simp [testsHold, inductionHypothesis]

theorem passes_iff
    {mode : MatchMode}
    {tests : List Simple}
    {id : Nat} :
    ((document.element? id).any fun element => testsHold mode document tests id element) = true ↔
      Passes mode document tests id := by
  simp only [Option.any_eq_true, testsHold_eq_true_iff, Passes]

/-- Induction along the combinators of a selector. -/
theorem Selector.induction
    {motive : Selector → Prop}
    (compound : ∀ tests, motive (.compound tests))
    (combined : ∀ left combinator tests, motive left →
      motive (.combined left combinator tests))
    (selector : Selector) :
    motive selector :=
  match selector with
  | .compound tests => compound tests
  | .combined left combinator tests =>
      combined left combinator tests (left.induction compound combined)

theorem Selector.length_compounds (selector : Selector) :
    selector.compounds.length = selector.combinators.length + 1 := by
  induction selector using Selector.induction with
  | compound tests => rfl
  | combined left combinator tests inductionHypothesis =>
      simp [compounds, combinators, inductionHypothesis]

/-- A selector with one compound is met by one element. -/
theorem Selector.isMetBy_compound_iff
    {mode : MatchMode}
    {tests : List Simple}
    {chosen : List Nat} :
    (Selector.compound tests).IsMetBy mode document chosen ↔
      ∃ id, chosen = [id] ∧ Passes mode document tests id := by
  constructor
  · rintro ⟨passes, _⟩
    cases passes with
    | cons passes rest =>
        cases rest with
        | nil => exact ⟨_, rfl, passes⟩
  · rintro ⟨id, rfl, passes⟩
    exact ⟨.cons passes .nil, by simp [combinators]⟩

/-- A choice for the left part of a selector is continued by an element that passes the last
compound. -/
theorem Selector.IsMetBy.append
    {mode : MatchMode}
    {left : Selector}
    {combinator : Combinator}
    {tests : List Simple}
    {others : List Nat}
    {other id : Nat}
    (met : left.IsMetBy mode document others)
    (last : others.getLast? = some other)
    (related : combinator.Stands document other id)
    (ownPasses : Passes mode document tests id) :
    (Selector.combined left combinator tests).IsMetBy mode document (others ++ [id]) := by
  have position : others.length = left.combinators.length + 1 := by
    rw [← met.passes.length_eq, left.length_compounds]
  refine ⟨List.rel_append met.passes (.cons ownPasses .nil), ?_⟩
  intro index between first second found atFirst atSecond
  rw [combinators] at found
  rcases Nat.lt_or_ge index left.combinators.length with inLeft | atEnd
  · rw [List.getElem?_append_left inLeft] at found
    rw [List.getElem?_append_left (by omega)] at atFirst atSecond
    exact met.stands index between first second found atFirst atSecond
  · have bound := (List.getElem?_eq_some_iff.mp found).1
    simp only [List.length_append, List.length_singleton] at bound
    obtain rfl : index = left.combinators.length := by omega
    rw [List.getElem?_append_left (by omega), ← Nat.add_sub_cancel left.combinators.length 1,
      ← position, ← List.getLast?_eq_getElem?, last] at atFirst
    obtain rfl : combinator = between := by simpa using found
    obtain rfl : id = second := by simpa [← position] using atSecond
    exact Option.some.inj atFirst ▸ related

/-- Without its last element, a choice for a longer selector is a choice for its left part. -/
theorem Selector.IsMetBy.exists_append
    {mode : MatchMode}
    {left : Selector}
    {combinator : Combinator}
    {tests : List Simple}
    {chosen : List Nat}
    (met : (Selector.combined left combinator tests).IsMetBy mode document chosen) :
    ∃ others other id, chosen = others ++ [id] ∧ left.IsMetBy mode document others ∧
      others.getLast? = some other ∧ combinator.Stands document other id ∧
      Passes mode document tests id := by
  obtain ⟨passes, stands⟩ := met
  obtain ⟨others, id, rfl⟩ : ∃ others id, chosen = others ++ [id] := by
    rcases List.eq_nil_or_concat' chosen with rfl | found
    · simpa [compounds] using passes.length_eq
    · exact found
  have sameLength : others.length = left.compounds.length := by
    simpa [compounds] using passes.length_eq.symm
  have position : others.length = left.combinators.length + 1 := by
    rw [sameLength, left.length_compounds]
  have leftPasses := List.forall₂_take_append _ _ _ passes
  have ownPasses := List.forall₂_drop_append _ _ _ passes
  rw [sameLength, compounds, List.take_left] at leftPasses
  rw [sameLength, compounds, List.drop_left] at ownPasses
  obtain ⟨other, last⟩ : ∃ other, others.getLast? = some other := by
    cases others with
    | nil => simp at position
    | cons first others => exact ⟨_, List.getLast?_eq_some_getLast (List.cons_ne_nil _ _)⟩
  refine ⟨others, other, id, rfl, ⟨leftPasses, ?_⟩, last, ?_, ?_⟩
  · intro index between first second found atFirst atSecond
    refine stands index between first second ?_ ?_ ?_
    · rwa [combinators, List.getElem?_append_left (List.getElem?_eq_some_iff.mp found).1]
    · rwa [List.getElem?_append_left (List.getElem?_eq_some_iff.mp atFirst).1]
    · rwa [List.getElem?_append_left (List.getElem?_eq_some_iff.mp atSecond).1]
  · refine stands left.combinators.length combinator other id ?_ ?_ ?_
    · simp [combinators]
    · rw [List.getElem?_append_left (by omega), ← last, List.getLast?_eq_getElem?, position,
        Nat.add_sub_cancel]
    · simp [← position]
  · cases ownPasses with
    | cons passes _ => exact passes

/-- A selector matches a node exactly when elements can be chosen for it, that node last. -/
theorem Selector.matches_iff
    (forest : document.IsForest)
    (mode : MatchMode)
    (selector : Selector)
    (id : Nat) :
    selector.matches mode document id = true ↔
      ∃ chosen, selector.IsMetBy mode document chosen ∧ chosen.getLast? = some id := by
  induction selector using Selector.induction generalizing id with
  | compound tests =>
      rw [Selector.matches, passes_iff]
      constructor
      · exact fun passes => ⟨[id], isMetBy_compound_iff.mpr ⟨id, rfl, passes⟩, rfl⟩
      · rintro ⟨chosen, met, last⟩
        obtain ⟨only, rfl, passes⟩ := isMetBy_compound_iff.mp met
        exact Option.some.inj last ▸ passes
  | combined left combinator tests inductionHypothesis =>
      rw [Selector.matches, Bool.and_eq_true, passes_iff, List.any_eq_true]
      simp only [combinator.mem_related_iff forest, inductionHypothesis]
      constructor
      · rintro ⟨passes, other, related, others, met, last⟩
        exact ⟨others ++ [id], met.append last related passes, by simp⟩
      · rintro ⟨chosen, met, last⟩
        obtain ⟨others, other, only, rfl, leftMet, leftLast, related, passes⟩ :=
          met.exists_append
        obtain rfl : only = id := by simpa using last
        exact ⟨passes, other, related, others, leftMet, leftLast⟩

theorem anyMatches_eq_true_iff
    {mode : MatchMode}
    {selectors : List Selector}
    {id : Nat} :
    anyMatches mode document selectors id = true ↔
      ∃ selector ∈ selectors, selector.matches mode document id = true := by
  induction selectors with
  | nil => simp [anyMatches]
  | cons selector selectors inductionHypothesis => simp [anyMatches, inductionHypothesis]

/-- An element passes a negation when no argument matches it, and in any case when the
arguments cannot be decided and only presence is asked for. -/
theorem holds_not_iff
    {mode : MatchMode}
    {selectors : List Selector}
    {id : Nat}
    {element : Markup.Element} :
    (Simple.not selectors).holds mode document id element = true ↔
      (mode = .presence ∧ allStatic selectors = false) ∨
        ∀ selector ∈ selectors, ¬selector.matches mode document id = true := by
  rw [Simple.holds]
  split
  · next undecided => simp_all
  · next decided =>
      rw [Bool.not_eq_true', Bool.eq_false_iff, Ne, anyMatches_eq_true_iff]
      simp_all

/-! ## The end of the program -/

mutual

/-- The formulas for positions in a test. -/
def Simple.formulas : Simple → List Nth
  | .nthChild nth => [nth]
  | .nthLastChild nth => [nth]
  | .nthOfType nth => [nth]
  | .nthLastOfType nth => [nth]
  | .not selectors => allFormulas selectors
  | _ => []

/-- The formulas for positions in tests. -/
def testsFormulas : List Simple → List Nth
  | [] => []
  | test :: tests => test.formulas ++ testsFormulas tests

/-- The formulas for positions in a selector. -/
def Selector.formulas : Selector → List Nth
  | .compound tests => testsFormulas tests
  | .combined left _ tests => left.formulas ++ testsFormulas tests

/-- The formulas for positions in selectors. -/
def allFormulas : List Selector → List Nth
  | [] => []
  | selector :: selectors => selector.formulas ++ allFormulas selectors

end

/-- One of the formulas has no answer at a position that a document of the size can have. -/
def HasStop (size : Nat) (formulas : List Nth) : Prop :=
  ∃ nth ∈ formulas, ∃ position ≤ size, nth.stops position = true

theorem HasStop.append_left
    {size : Nat}
    {first : List Nth}
    (stop : HasStop size first)
    (second : List Nth) :
    HasStop size (first ++ second) := by
  obtain ⟨nth, member, stop⟩ := stop
  exact ⟨nth, List.mem_append_left second member, stop⟩

theorem HasStop.append_right
    {size : Nat}
    {second : List Nth}
    (first : List Nth)
    (stop : HasStop size second) :
    HasStop size (first ++ second) := by
  obtain ⟨nth, member, stop⟩ := stop
  exact ⟨nth, List.mem_append_right first member, stop⟩

theorem exists_of_stopsSearch
    {stops finds : α → Bool}
    {items : List α}
    (stopped : stopsSearch stops finds items = true) :
    ∃ item ∈ items, stops item = true := by
  induction items with
  | nil => cases stopped
  | cons item items inductionHypothesis =>
      rw [stopsSearch, Bool.or_eq_true, Bool.and_eq_true] at stopped
      rcases stopped with here | ⟨_, later⟩
      · exact ⟨item, List.mem_cons_self, here⟩
      · obtain ⟨other, member, stopped⟩ := inductionHypothesis later
        exact ⟨other, List.mem_cons_of_mem item member, stopped⟩

section Stops

variable {mode : MatchMode}

mutual

/-- Where a test ends the program, one of its formulas does. -/
theorem Simple.hasStop
    (forest : document.IsForest)
    {test : Simple}
    {id : Nat}
    {element : Markup.Element}
    (stopped : test.stops mode document id element = true) :
    HasStop document.size test.formulas := by
  cases test with
  | nthChild nth =>
      have few := forest.length_precedingSiblings_lt id
      exact ⟨nth, List.mem_singleton_self nth, _, few, stopped⟩
  | nthLastChild nth =>
      have few := forest.length_followingSiblings_lt id
      exact ⟨nth, List.mem_singleton_self nth, _, few, stopped⟩
  | nthOfType nth =>
      have few := forest.length_precedingSiblings_lt id
      exact ⟨nth, List.mem_singleton_self nth, _, Nat.lt_of_le_of_lt List.countP_le_length few,
        stopped⟩
  | nthLastOfType nth =>
      have few := forest.length_followingSiblings_lt id
      exact ⟨nth, List.mem_singleton_self nth, _, Nat.lt_of_le_of_lt List.countP_le_length few,
        stopped⟩
  | not selectors =>
      rw [Simple.stops, Bool.and_eq_true] at stopped
      exact hasStop_of_anyStops forest stopped.2
  | _ => cases stopped

theorem hasStop_of_testsStop
    (forest : document.IsForest)
    {tests : List Simple}
    {id : Nat}
    {element : Markup.Element}
    (stopped : testsStop mode document tests id element = true) :
    HasStop document.size (testsFormulas tests) := by
  cases tests with
  | nil => cases stopped
  | cons test tests =>
      rw [testsStop, Bool.or_eq_true, Bool.and_eq_true] at stopped
      rcases stopped with here | ⟨_, later⟩
      · exact (Simple.hasStop forest here).append_left _
      · exact (hasStop_of_testsStop forest later).append_right _

theorem Selector.hasStop
    (forest : document.IsForest)
    {selector : Selector}
    {id : Nat}
    (stopped : selector.stops mode document id = true) :
    HasStop document.size selector.formulas := by
  cases selector with
  | compound tests =>
      rw [Selector.stops, Option.any_eq_true] at stopped
      obtain ⟨element, _, stopped⟩ := stopped
      rw [Bool.and_eq_true] at stopped
      exact hasStop_of_testsStop forest stopped.2
  | combined left combinator tests =>
      rw [Selector.stops, Option.any_eq_true] at stopped
      obtain ⟨element, _, stopped⟩ := stopped
      rw [Bool.and_eq_true, Bool.or_eq_true, Bool.and_eq_true] at stopped
      rcases stopped.2 with here | ⟨_, later⟩
      · exact (hasStop_of_testsStop forest here).append_right _
      · obtain ⟨other, _, stopped⟩ := exists_of_stopsSearch later
        exact (Selector.hasStop forest stopped).append_left _

theorem hasStop_of_anyStops
    (forest : document.IsForest)
    {selectors : List Selector}
    {id : Nat}
    (stopped : anyStops mode document selectors id = true) :
    HasStop document.size (allFormulas selectors) := by
  cases selectors with
  | nil => cases stopped
  | cons selector selectors =>
      rw [anyStops, Bool.or_eq_true, Bool.and_eq_true] at stopped
      rcases stopped with here | ⟨_, later⟩
      · exact (Selector.hasStop forest here).append_left _
      · exact (hasStop_of_anyStops forest later).append_right _

end

end Stops

theorem Selector.matches?_eq_some_iff
    {mode : MatchMode}
    {selector : Selector}
    {id : Nat}
    {answer : Bool} :
    selector.matches? mode document id = some answer ↔
      selector.stops mode document id = false ∧ selector.matches mode document id = answer := by
  rw [Selector.matches?]
  cases selector.stops mode document id <;> simp

theorem Selector.matches?_eq_none_iff
    {mode : MatchMode}
    {selector : Selector}
    {id : Nat} :
    selector.matches? mode document id = none ↔ selector.stops mode document id = true := by
  rw [Selector.matches?]
  cases selector.stops mode document id <;> simp

/-- However a document comes about, when asking if a selector matches a node has an answer, it is
yes exactly when elements can be chosen for the compounds, with that node the last one, so that
each stands to the next one as the combinator in between says; the same holds of the arguments of
a negation. There is an answer unless the selector has a formula that has none at a position in
the document. Going up from parent element to parent element, as the search does, comes to an end,
and in a tree of elements it meets every element above. -/
theorem matches_iff_exists_chain
    (reachable : document.IsReachable)
    (mode : MatchMode) :
    (∀ (selector : Selector) (id : Nat) (answer : Bool),
      selector.matches? mode document id = some answer →
        (answer = true ↔
          ∃ chosen, selector.IsMetBy mode document chosen ∧ chosen.getLast? = some id)) ∧
    (∀ (selector : Selector) (id : Nat), selector.matches? mode document id = none →
      ∃ nth ∈ selector.formulas, ∃ position ≤ document.size, nth.stops position = true) ∧
    (∀ (selectors : List Selector) (id : Nat) (element : Markup.Element),
      (Simple.not selectors).holds mode document id element = true ↔
        (mode = .presence ∧ allStatic selectors = false) ∨
          ∀ selector ∈ selectors,
            ¬∃ chosen, selector.IsMetBy mode document chosen ∧ chosen.getLast? = some id) ∧
    (∀ id, (fun current : Option Nat => current.bind document.parentElement?)^[id + 1] (some id) =
      none) ∧
    (document.IsElementTree → ∀ upper id,
      document.IsAncestorElement upper id ↔
        document.isElement upper = true ∧ document.IsBelow upper id) := by
  have forest := reachable.isForest
  have chain := Selector.matches_iff forest mode
  refine ⟨?_, fun selector id noAnswer => ?_, ?_, forest.iterate_parentElement?, fun tree _ _ => ?_⟩
  · intro selector id answer answered
    obtain ⟨_, rfl⟩ := Selector.matches?_eq_some_iff.mp answered
    exact chain selector id
  · exact Selector.hasStop forest (Selector.matches?_eq_none_iff.mp noAnswer)
  · intro selectors id element
    simp only [holds_not_iff, chain]
  · exact forest.isAncestorElement_iff tree

/-- The theorem at a selector whose nearest candidate leads nowhere: the paragraph above the
bold element stands in another paragraph, and only the outer one in the division. -/
theorem matches_iff_exists_chain_nested :
    ∃ document selector,
      Markup.Document.read "<div><p><p><b></b></p></p></div>" = .ok document ∧
        readSelector "div>p b".toList = some selector ∧ document.IsReachable ∧
        document.IsElementTree ∧ selector.matches? .static document 4 = some true ∧
        (∃ chosen, selector.IsMetBy .static document chosen ∧ chosen.getLast? = some 4) ∧
        document.IsAncestorElement 1 4 := by
  let paragraph : Markup.Element := ⟨"p", [], false⟩
  let document : Markup.Document :=
    ⟨#[⟨.root, none, [1]⟩, ⟨.element ⟨"div", [], false⟩, some 0, [2]⟩,
      ⟨.element paragraph, some 1, [3]⟩, ⟨.element paragraph, some 2, [4]⟩,
      ⟨.element ⟨"b", [], false⟩, some 3, []⟩]⟩
  let selector : Selector :=
    .combined (.combined (.compound [.type "div"]) .child [.type "p"]) .descendant [.type "b"]
  have read : Markup.Document.read "<div><p><p><b></b></p></p></div>" = .ok document := by cbv
  have understood : readSelector "div>p b".toList = some selector := by
    with_unfolding_all rfl
  have reachable : document.IsReachable := .read read
  have tree := Markup.Document.isElementTree_of_read read
  obtain ⟨chain, _, _, _, ancestors⟩ := matches_iff_exists_chain reachable .static
  have found : selector.matches? .static document 4 = some true := by cbv
  have below : document.IsBelow 1 4 := .tail (.tail (.single rfl) rfl) rfl
  exact ⟨document, selector, read, understood, reachable, tree, found,
    (chain selector 4 true found).mp rfl, (ancestors tree 1 4).mpr ⟨rfl, below⟩⟩

/-- The distance of the first position from the offset has more than 32 bits, wraps around to the
least number that has 32, and cannot be divided by the step. -/
theorem matches?_countdown_eq_none :
    ∃ document selector,
      Markup.Document.read "<p></p>" = .ok document ∧
        Selector.read ":nth-child(-n-2147483647)" = some selector ∧
        1 ∈ document.elements ∧ selector.matches? .static document 1 = none ∧
        selector.matches? .presence document 1 = none := by
  let document : Markup.Document :=
    ⟨#[⟨.root, none, [1]⟩, ⟨.element ⟨"p", [], false⟩, some 0, []⟩]⟩
  let selector : Selector := .compound [.nthChild ⟨-1, -2147483647⟩]
  have read : Markup.Document.read "<p></p>" = .ok document := by cbv
  have understood : Selector.read ":nth-child(-n-2147483647)" = some selector := by
    with_unfolding_all rfl
  have elements : document.elements = [1] := by cbv
  exact ⟨document, selector, read, understood, elements ▸ List.mem_singleton_self 1, by decide,
    by decide⟩

/-! ## Deleting tests -/

/-- Whether a test is deleted where only presence is asked for. -/
def Simple.isErasable : Simple → Bool
  | .dynamic => true
  | .element => true
  | .unknown => true
  | .not selectors => !allStatic selectors
  | _ => false

/-- The selector without the tests that cannot be decided on a document at rest. -/
def Selector.erase : Selector → Selector
  | .compound tests => .compound (tests.filter (!·.isErasable))
  | .combined left combinator tests =>
      .combined left.erase combinator (tests.filter (!·.isErasable))

theorem Simple.isErasable_eq_not_isStatic (test : Simple) :
    test.isErasable = !test.isStatic := by
  cases test <;> simp [isErasable, isStatic]

/-- A test that is deleted passes where only presence is asked for. -/
theorem Simple.holds_presence_of_isErasable
    {test : Simple}
    (erasable : test.isErasable = true)
    (id : Nat)
    (element : Markup.Element) :
    test.holds .presence document id element = true := by
  cases test with
  | dynamic | element | unknown => rfl
  | not selectors =>
      rw [isErasable] at erasable
      simp [holds, erasable]
  | _ => cases erasable

/-- Tests about the name and the attributes pass in both modes or in none. -/
theorem testsHold_filter_isPlain
    (tests : List Simple)
    (id : Nat)
    (element : Markup.Element) :
    testsHold .presence document (tests.filter Simple.isPlain) id element =
      testsHold .static document (tests.filter Simple.isPlain) id element := by
  induction tests with
  | nil => rfl
  | cons test tests inductionHypothesis =>
      rw [List.filter_cons]
      split
      · next plain =>
          have same : test.holds .presence document id element =
              test.holds .static document id element := by
            cases test <;> first | rfl | cases plain
          rw [testsHold, testsHold, same, inductionHypothesis]
      · exact inductionHypothesis

/-! ## What can be decided -/

mutual

/-- A test that can be decided gives the same answer in both modes. -/
theorem Simple.holds_presence_of_isStatic
    {test : Simple}
    (decided : test.isStatic = true)
    (id : Nat)
    (element : Markup.Element) :
    test.holds .presence document id element = test.holds .static document id element := by
  cases test with
  | dynamic | element | unknown => cases decided
  | not selectors =>
      rw [Simple.isStatic] at decided
      simp [Simple.holds, decided, anyMatches_presence_of_allStatic decided]
  | _ => rfl

theorem testsHold_presence_of_testsStatic
    {tests : List Simple}
    (decided : testsStatic tests = true)
    (id : Nat)
    (element : Markup.Element) :
    testsHold .presence document tests id element =
      testsHold .static document tests id element := by
  cases tests with
  | nil => rfl
  | cons test tests =>
      rw [testsStatic, Bool.and_eq_true] at decided
      rw [testsHold, testsHold, Simple.holds_presence_of_isStatic decided.1,
        testsHold_presence_of_testsStatic decided.2]

theorem Selector.matches_presence_of_isStatic
    {selector : Selector}
    (decided : selector.isStatic = true)
    (id : Nat) :
    selector.matches .presence document id = selector.matches .static document id := by
  cases selector with
  | compound tests =>
      rw [Selector.isStatic] at decided
      simp only [Selector.matches, testsHold_presence_of_testsStatic decided]
  | combined left combinator tests =>
      rw [Selector.isStatic, Bool.and_eq_true] at decided
      simp only [Selector.matches, testsHold_presence_of_testsStatic decided.2,
        Selector.matches_presence_of_isStatic decided.1]

theorem anyMatches_presence_of_allStatic
    {selectors : List Selector}
    (decided : allStatic selectors = true)
    (id : Nat) :
    anyMatches .presence document selectors id = anyMatches .static document selectors id := by
  cases selectors with
  | nil => rfl
  | cons selector selectors =>
      rw [allStatic, Bool.and_eq_true] at decided
      rw [anyMatches, anyMatches, Selector.matches_presence_of_isStatic decided.1,
        anyMatches_presence_of_allStatic decided.2]

end

mutual

/-- A test that can be decided ends the program in both modes or in none. -/
theorem Simple.stops_presence_of_isStatic
    {test : Simple}
    (decided : test.isStatic = true)
    (id : Nat)
    (element : Markup.Element) :
    test.stops .presence document id element = test.stops .static document id element := by
  cases test with
  | dynamic | element | unknown => cases decided
  | not selectors =>
      rw [Simple.isStatic] at decided
      simp [Simple.stops, decided, anyStops_presence_of_allStatic decided]
  | _ => rfl

theorem testsStop_presence_of_testsStatic
    {tests : List Simple}
    (decided : testsStatic tests = true)
    (id : Nat)
    (element : Markup.Element) :
    testsStop .presence document tests id element =
      testsStop .static document tests id element := by
  cases tests with
  | nil => rfl
  | cons test tests =>
      rw [testsStatic, Bool.and_eq_true] at decided
      rw [testsStop, testsStop, Simple.stops_presence_of_isStatic decided.1,
        Simple.holds_presence_of_isStatic decided.1, testsStop_presence_of_testsStatic decided.2]

theorem Selector.stops_presence_of_isStatic
    {selector : Selector}
    (decided : selector.isStatic = true)
    (id : Nat) :
    selector.stops .presence document id = selector.stops .static document id := by
  cases selector with
  | compound tests =>
      rw [Selector.isStatic] at decided
      simp only [Selector.stops, testsHold_filter_isPlain, testsStop_presence_of_testsStatic decided]
  | combined left combinator tests =>
      rw [Selector.isStatic, Bool.and_eq_true] at decided
      simp only [Selector.stops, testsHold_filter_isPlain,
        testsStop_presence_of_testsStatic decided.2,
        testsHold_presence_of_testsStatic decided.2, Selector.stops_presence_of_isStatic decided.1,
        Selector.matches_presence_of_isStatic decided.1]

theorem anyStops_presence_of_allStatic
    {selectors : List Selector}
    (decided : allStatic selectors = true)
    (id : Nat) :
    anyStops .presence document selectors id = anyStops .static document selectors id := by
  cases selectors with
  | nil => rfl
  | cons selector selectors =>
      rw [allStatic, Bool.and_eq_true] at decided
      rw [anyStops, anyStops, Selector.stops_presence_of_isStatic decided.1,
        Selector.matches_presence_of_isStatic decided.1, anyStops_presence_of_allStatic decided.2]

end

/-- A selector that can be decided has the same answer in both modes, if any. -/
theorem Selector.matches?_presence_of_isStatic
    {selector : Selector}
    (decided : selector.isStatic = true)
    (id : Nat) :
    selector.matches? .presence document id = selector.matches? .static document id := by
  rw [Selector.matches?, Selector.matches?, Selector.stops_presence_of_isStatic decided,
    Selector.matches_presence_of_isStatic decided]

/-! ## Presence -/

/-- Asking for presence is taking the tests that can be decided, and these alone. -/
theorem testsHold_presence
    (tests : List Simple)
    (id : Nat)
    (element : Markup.Element) :
    testsHold .presence document tests id element =
      testsHold .static document (tests.filter (!·.isErasable)) id element := by
  induction tests with
  | nil => rfl
  | cons test tests inductionHypothesis =>
      rw [testsHold, inductionHypothesis]
      cases erasable : test.isErasable with
      | true =>
          rw [Simple.holds_presence_of_isErasable erasable, Bool.true_and,
            List.filter_cons_of_neg (by simp [erasable])]
      | false =>
          have decided : test.isStatic = true := by
            simpa [Simple.isErasable_eq_not_isStatic] using erasable
          rw [Simple.holds_presence_of_isStatic decided,
            List.filter_cons_of_pos (by simp [erasable]), testsHold]

theorem Selector.matches_presence
    (selector : Selector)
    (id : Nat) :
    selector.matches .presence document id = selector.erase.matches .static document id := by
  induction selector using Selector.induction generalizing id with
  | compound tests => simp only [Selector.matches, erase, testsHold_presence]
  | combined left combinator tests inductionHypothesis =>
      simp only [Selector.matches, erase, testsHold_presence, inductionHypothesis]

/-- A test that is deleted does not end the program where only presence is asked for. -/
theorem Simple.stops_presence_of_isErasable
    {test : Simple}
    (erasable : test.isErasable = true)
    (id : Nat)
    (element : Markup.Element) :
    test.stops .presence document id element = false := by
  cases test with
  | dynamic | element | unknown => rfl
  | not selectors =>
      rw [isErasable] at erasable
      simp [stops, erasable]
  | _ => cases erasable

theorem testsStop_presence
    (tests : List Simple)
    (id : Nat)
    (element : Markup.Element) :
    testsStop .presence document tests id element =
      testsStop .static document (tests.filter (!·.isErasable)) id element := by
  induction tests with
  | nil => rfl
  | cons test tests inductionHypothesis =>
      rw [testsStop, inductionHypothesis]
      cases erasable : test.isErasable with
      | true =>
          rw [Simple.stops_presence_of_isErasable erasable,
            Simple.holds_presence_of_isErasable erasable, Bool.false_or, Bool.true_and,
            List.filter_cons_of_neg (by simp [erasable])]
      | false =>
          have decided : test.isStatic = true := by
            simpa [Simple.isErasable_eq_not_isStatic] using erasable
          rw [Simple.stops_presence_of_isStatic decided, Simple.holds_presence_of_isStatic decided,
            List.filter_cons_of_pos (by simp [erasable]), testsStop]

theorem Selector.stops_presence
    (selector : Selector)
    (id : Nat) :
    selector.stops .presence document id = selector.erase.stops .static document id := by
  have plain (tests : List Simple) :
      (tests.filter Simple.isPlain).filter (!·.isErasable) =
        (tests.filter (!·.isErasable)).filter Simple.isPlain :=
    List.filter_comm ..
  induction selector using Selector.induction generalizing id with
  | compound tests =>
      simp only [Selector.stops, erase, testsStop_presence, testsHold_presence, plain]
  | combined left combinator tests inductionHypothesis =>
      simp only [Selector.stops, erase, testsStop_presence, testsHold_presence, plain,
        Selector.matches_presence, inductionHypothesis]

/-- Asking for presence has the same answer as matching what is left, if any. -/
theorem Selector.matches?_presence
    (selector : Selector)
    (id : Nat) :
    selector.matches? .presence document id = selector.erase.matches? .static document id := by
  rw [Selector.matches?, Selector.matches?, selector.stops_presence, selector.matches_presence]

theorem testsHold_filter
    {mode : MatchMode}
    {tests : List Simple}
    {id : Nat}
    {element : Markup.Element}
    (holds : testsHold mode document tests id element = true)
    (keep : Simple → Bool) :
    testsHold mode document (tests.filter keep) id element = true :=
  testsHold_eq_true_iff.mpr fun test member =>
    testsHold_eq_true_iff.mp holds test (List.mem_of_mem_filter member)

/-- With fewer tests, a selector matches at least as much. -/
theorem Selector.matches_erase
    {mode : MatchMode}
    {selector : Selector}
    {id : Nat}
    (matching : selector.matches mode document id = true) :
    selector.erase.matches mode document id = true := by
  induction selector using Selector.induction generalizing id with
  | compound tests =>
      rw [Selector.matches, Option.any_eq_true] at matching
      obtain ⟨element, found, holds⟩ := matching
      rw [erase, Selector.matches, Option.any_eq_true]
      exact ⟨element, found, testsHold_filter holds _⟩
  | combined left combinator tests inductionHypothesis =>
      rw [Selector.matches, Bool.and_eq_true, Option.any_eq_true, List.any_eq_true] at matching
      obtain ⟨⟨element, found, holds⟩, other, related, matching⟩ := matching
      rw [erase, Selector.matches, Bool.and_eq_true, Option.any_eq_true, List.any_eq_true]
      exact ⟨⟨element, found, testsHold_filter holds _⟩, other, related,
        inductionHypothesis matching⟩

/-- What matches on a document at rest is present. -/
theorem Selector.matches_presence_of_matches_static
    {selector : Selector}
    {id : Nat}
    (matching : selector.matches .static document id = true) :
    selector.matches .presence document id = true := by
  rw [matches_presence]
  exact matches_erase matching

theorem Selector.matchesAny_presence_of_matchesAny_static
    {selector : Selector}
    (matching : selector.matchesAny .static document = true) :
    selector.matchesAny .presence document = true := by
  obtain ⟨id, member, matches_id⟩ := List.any_eq_true.mp matching
  exact List.any_eq_true.mpr ⟨id, member, matches_presence_of_matches_static matches_id⟩

end Css
end MailPress
