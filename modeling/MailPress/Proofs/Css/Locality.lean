import MailPress.Proofs.Css.Matching

/-!
# What matching depends on

Whether a selector matches a node depends on the elements that can be reached from the node by
going to parents and to siblings. Two documents that agree on a set of nodes closed under such
steps are matched in the same way at all of these nodes.
-/

namespace MailPress
namespace Css

variable {document changed : Markup.Document}

/-- Two documents agree on a set of nodes that holds the parents and siblings of its nodes. -/
structure Agree (document changed : Markup.Document) (seen : Nat → Prop) : Prop where
  /-- The same elements stand at the nodes. -/
  element? : ∀ id, seen id → changed.element? id = document.element? id
  /-- The nodes have the same parents. -/
  parent? : ∀ id, seen id → changed.parent? id = document.parent? id
  /-- The nodes have the same siblings. -/
  siblings : ∀ id, seen id → changed.siblings id = document.siblings id
  /-- The parents belong to the set. -/
  seen_parent : ∀ id parent, seen id → document.parent? id = some parent → seen parent
  /-- The siblings belong to the set. -/
  seen_sibling : ∀ id sibling, seen id → sibling ∈ document.siblings id → seen sibling

namespace Agree

variable {seen : Nat → Prop}

theorem isElement
    (agree : Agree document changed seen)
    {id : Nat}
    (inside : seen id) :
    changed.isElement id = document.isElement id := by
  rw [Markup.Document.isElement, agree.element? id inside, Markup.Document.isElement]

theorem isNamed
    (agree : Agree document changed seen)
    (name : String)
    {id : Nat}
    (inside : seen id) :
    changed.isNamed name id = document.isNamed name id := by
  rw [Markup.Document.isNamed, agree.element? id inside, Markup.Document.isNamed]

theorem parentElement?
    (agree : Agree document changed seen)
    {id : Nat}
    (inside : seen id) :
    changed.parentElement? id = document.parentElement? id := by
  rw [Markup.Document.parentElement?, agree.parent? id inside, Markup.Document.parentElement?]
  cases above : document.parent? id with
  | none => rfl
  | some parent =>
      have same := agree.isElement (agree.seen_parent id parent inside above)
      rw [Option.filter_some, Option.filter_some, same]

/-- Element siblings of a node, taken in front of it or behind it, are the same. -/
theorem filter_siblings
    (agree : Agree document changed seen)
    {id : Nat}
    (inside : seen id)
    {listed : List Nat}
    (part : listed.Sublist (document.siblings id)) :
    listed.filter changed.isElement = listed.filter document.isElement :=
  List.filter_congr fun sibling member =>
    agree.isElement (agree.seen_sibling id sibling inside (part.subset member))

theorem precedingSiblings
    (agree : Agree document changed seen)
    {id : Nat}
    (inside : seen id) :
    changed.precedingSiblings id = document.precedingSiblings id := by
  rw [Markup.Document.precedingSiblings, agree.siblings id inside,
    agree.filter_siblings inside (List.takeWhile_sublist _), Markup.Document.precedingSiblings]

theorem followingSiblings
    (agree : Agree document changed seen)
    {id : Nat}
    (inside : seen id) :
    changed.followingSiblings id = document.followingSiblings id := by
  have part := (List.drop_sublist 1 _).trans
    (List.dropWhile_sublist (· != id) (l := document.siblings id))
  rw [Markup.Document.followingSiblings, agree.siblings id inside,
    agree.filter_siblings inside part, Markup.Document.followingSiblings]

theorem seen_precedingSiblings
    (agree : Agree document changed seen)
    {id : Nat}
    (inside : seen id)
    {sibling : Nat}
    (member : sibling ∈ document.precedingSiblings id) :
    seen sibling := by
  have listed := List.mem_of_mem_filter (List.mem_reverse.mp member)
  exact agree.seen_sibling id sibling inside ((List.takeWhile_sublist _).subset listed)

theorem seen_followingSiblings
    (agree : Agree document changed seen)
    {id : Nat}
    (inside : seen id)
    {sibling : Nat}
    (member : sibling ∈ document.followingSiblings id) :
    seen sibling := by
  have listed := List.mem_of_mem_drop (List.mem_of_mem_filter member)
  exact agree.seen_sibling id sibling inside ((List.dropWhile_sublist _).subset listed)

theorem countNamed
    (agree : Agree document changed seen)
    (name : String)
    {listed : List Nat}
    (inside : ∀ id ∈ listed, seen id) :
    Css.countNamed changed name listed = Css.countNamed document name listed :=
  List.countP_congr fun id member => by rw [agree.isNamed name (inside id member)]

/-- The elements above a node are the same, and belong to the set. -/
theorem ancestors
    (agree : Agree document changed seen)
    {id : Nat}
    (inside : seen id) :
    changed.ancestors id = document.ancestors id ∧ ∀ upper ∈ document.ancestors id, seen upper := by
  induction id using Nat.strongRecOn with
  | ind id inductionHypothesis =>
      rw [Markup.Document.ancestors, agree.parentElement? inside]
      rw [Markup.Document.ancestors]
      cases above : document.parentElement? id with
      | none => simp
      | some parent =>
          have step := Markup.Document.parentElement?_eq_some_iff.mp above
          have parentInside := agree.seen_parent id parent inside step.1
          dsimp only
          split
          · next older =>
              obtain ⟨same, rest⟩ := inductionHypothesis parent older parentInside
              exact ⟨by rw [same], List.forall_mem_cons.mpr ⟨parentInside, rest⟩⟩
          · simp

/-- The nodes that are tried for a combinator are the same, and belong to the set. -/
theorem related
    (agree : Agree document changed seen)
    (combinator : Combinator)
    {id : Nat}
    (inside : seen id) :
    combinator.related changed id = combinator.related document id ∧
      ∀ other ∈ combinator.related document id, seen other := by
  cases combinator with
  | child =>
      refine ⟨by rw [Combinator.related, agree.parentElement? inside, Combinator.related], ?_⟩
      intro other member
      have above := Markup.Document.parentElement?_eq_some_iff.mp (Option.mem_toList.mp member)
      exact agree.seen_parent id other inside above.1
  | descendant => exact agree.ancestors inside
  | adjacent =>
      refine ⟨by rw [Combinator.related, agree.precedingSiblings inside, Combinator.related], ?_⟩
      exact fun other member =>
        agree.seen_precedingSiblings inside (List.mem_of_mem_take member)
  | sibling =>
      exact ⟨agree.precedingSiblings inside, fun _ => agree.seen_precedingSiblings inside⟩

end Agree

/-! ## Selectors -/

section Selectors

variable {seen : Nat → Prop} {mode : MatchMode}

mutual

/-- A test gives the same answer at a node of the set. -/
theorem Agree.holds
    (agree : Agree document changed seen)
    (test : Simple)
    {id : Nat}
    (inside : seen id)
    (element : Markup.Element) :
    test.holds mode changed id element = test.holds mode document id element := by
  have preceding := agree.precedingSiblings inside
  have following := agree.followingSiblings inside
  have countPreceding := agree.countNamed element.name fun _ => agree.seen_precedingSiblings inside
  have countFollowing := agree.countNamed element.name fun _ => agree.seen_followingSiblings inside
  cases test with
  | not selectors => simp only [Simple.holds, Agree.anyMatches agree selectors inside]
  | _ => simp only [Simple.holds, preceding, following, countPreceding, countFollowing]

theorem Agree.testsHold
    (agree : Agree document changed seen)
    (tests : List Simple)
    {id : Nat}
    (inside : seen id)
    (element : Markup.Element) :
    testsHold mode changed tests id element = testsHold mode document tests id element := by
  cases tests with
  | nil => rfl
  | cons test tests =>
      rw [Css.testsHold, Css.testsHold, Agree.holds agree test inside,
        Agree.testsHold agree tests inside]

/-- A selector matches the same nodes of the set. -/
theorem Agree.matches
    (agree : Agree document changed seen)
    (selector : Selector)
    {id : Nat}
    (inside : seen id) :
    selector.matches mode changed id = selector.matches mode document id := by
  cases selector with
  | compound tests =>
      simp only [Selector.matches, agree.element? id inside, Agree.testsHold agree tests inside]
  | combined left combinator tests =>
      obtain ⟨sameRelated, seenRelated⟩ := agree.related combinator inside
      have others : (combinator.related document id).any
            (fun other => left.matches mode changed other) =
          (combinator.related document id).any (fun other => left.matches mode document other) := by
        rw [Bool.eq_iff_iff, List.any_eq_true, List.any_eq_true]
        refine exists_congr fun other => and_congr_right fun member => ?_
        rw [Agree.matches agree left (seenRelated other member)]
      simp only [Selector.matches, agree.element? id inside, Agree.testsHold agree tests inside,
        sameRelated, others]

theorem Agree.anyMatches
    (agree : Agree document changed seen)
    (selectors : List Selector)
    {id : Nat}
    (inside : seen id) :
    anyMatches mode changed selectors id = anyMatches mode document selectors id := by
  cases selectors with
  | nil => rfl
  | cons selector selectors =>
      rw [Css.anyMatches, Css.anyMatches, Agree.matches agree selector inside,
        Agree.anyMatches agree selectors inside]

end

end Selectors

end Css
end MailPress
