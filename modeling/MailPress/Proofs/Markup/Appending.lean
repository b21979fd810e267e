import Mathlib.Data.List.Chain
import MailPress.Proofs.Markup.DocumentOrder
import MailPress.Proofs.Markup.Growth
import MailPress.Proofs.Markup.RawText

/-!
# The end of a document

Whatever events come, and however their tags are nested, new content goes to the end of the
document: each open element is the last child of the one around it. So the nodes stand in the
order of their creation, and a text that goes on is the newest node.
-/

namespace MailPress
namespace Markup

/-! ## What an event does -/

namespace Event

/-- What the node of an event stands for, when the event has a node of its own. -/
def content? : Event → Option Content
  | .start element => some (.element element)
  | .empty element => some (.element element)
  | .comment body => some (.comment body)
  | .cdata body => some (.verbatim ("<![CDATA[" ++ body ++ "]]>"))
  | .instruction body => some (.verbatim ("<?" ++ body ++ "?>"))
  | _ => none

/-- Whether an event is content: all are but end events and declarations. -/
def isContent (event : Event) : Bool :=
  event.content?.isSome || event.raw?.isSome

/-- Whether what follows an event goes below its node. -/
def opens : Event → Bool
  | .start element => !isVoid element.name
  | _ => false

end Event

namespace Building

open Document

/-- What an event does to what has been built so far. -/
inductive Step (building : Building) (event : Event) : Building → Prop
  /-- A node is added at the end, and is open if what follows goes below it. -/
  | add {content : Content}
      (own : event.content? = some content) :
      Step building event
        ⟨building.document.appendChild building.top content,
          if event.opens then building.document.size :: building.opened else building.opened⟩
  /-- A text is added at the end, where no text is. -/
  | begin {raw : String}
      (adds : event.raw? = some raw)
      (apart : building.EndsApart) :
      Step building event
        ⟨building.document.appendChild building.top (.text raw), building.opened⟩
  /-- The text at the end goes on. -/
  | extend {raw before : String} {last : Nat}
      (adds : event.raw? = some raw)
      (listed : (building.document.children building.top).getLast? = some last)
      (content : building.document.content last = .text before) :
      Step building event
        ⟨building.document.setContent last (.text (before ++ raw)), building.opened⟩
  /-- Some of the innermost elements are closed. -/
  | close {outer : List Nat}
      (noContent : event.isContent = false)
      (around : outer <:+ building.opened) :
      Step building event ⟨building.document, outer⟩

/-- Taking an event is one of these steps. -/
theorem step_take (building : Building) (event : Event) :
    building.Step event (building.take event) := by
  have text {raw : String} (adds : event.raw? = some raw) :
      building.Step event (building.take event) := by
    rw [Builds.take_of_raw? adds]
    rcases appendText_cases building.document building.top raw with
      ⟨last, before, listed, content, eq⟩ | ⟨apart, eq⟩ <;> rw [eq]
    · exact .extend adds listed content
    · exact .begin adds apart
  cases event with
  | start element =>
      have taken : building.take (.start element) =
          ⟨building.document.appendChild building.top (.element element),
            if Event.opens (.start element) then building.document.size :: building.opened
            else building.opened⟩ := by
        by_cases single : isVoid element.name = true <;> simp [take, Event.opens, add, single]
      rw [taken]
      exact .add rfl
  | empty | comment | cdata | instruction => exact .add rfl
  | text | reference => exact text rfl
  | finish name =>
      have closed : building.Step (.finish name) _ :=
        .close rfl (building.finish_opened_suffix name)
      rwa [← building.finish_document name] at closed
  | declaration => exact .close rfl List.suffix_rfl

/-! ## The end of the document -/

/-- New content goes to the end of the document. -/
structure IsAtEnd (building : Building) : Prop where
  /-- What is built is sound. -/
  sound : building.IsSound
  /-- Each open element is the last child of the one around it, the outermost one of the root. -/
  spine : (building.opened ++ [root]).IsChain fun inner outer =>
    (building.document.children outer).getLast? = some inner
  /-- A text at the end is the newest node. -/
  newest : ∀ last raw, (building.document.children building.top).getLast? = some last →
    building.document.content last = .text raw → last + 1 = building.document.size

namespace IsAtEnd

variable {building : Building}

theorem opened_eq_cons_top (building : Building) :
    ∃ outer, building.opened ++ [root] = building.top :: outer := by
  unfold top
  cases building.opened with
  | nil => exact ⟨[], rfl⟩
  | cons id opened => exact ⟨opened ++ [root], rfl⟩

/-- An open element hangs below those around it. -/
theorem pairwise_isBelow (atEnd : building.IsAtEnd) :
    (building.opened ++ [root]).Pairwise fun inner outer =>
      building.document.IsBelow outer inner := by
  have transitive : Trans (fun inner outer => building.document.IsBelow outer inner)
      (fun inner outer => building.document.IsBelow outer inner)
      (fun inner outer => building.document.IsBelow outer inner) :=
    ⟨fun first second => first.trans second⟩
  rw [← List.isChain_iff_pairwise]
  exact atEnd.spine.imp fun inner outer listed =>
    .single (atEnd.sound.rooted.forest.mem_children_iff.mp (List.mem_of_getLast? listed))

/-- Open elements are younger than what is around them. -/
theorem pairwise_gt (atEnd : building.IsAtEnd) :
    (building.opened ++ [root]).Pairwise (· > ·) :=
  atEnd.pairwise_isBelow.imp atEnd.sound.rooted.forest.lt_of_isBelow

theorem start : IsAtEnd ⟨Document.empty, []⟩ where
  sound := .start
  spine := .singleton root
  newest last raw listed := by cases listed

/-- A node that is added is the last child of the top, and what is around the top ends as before. -/
theorem spine_appendChild (atEnd : building.IsAtEnd) (content : Content) :
    (building.document.size :: (building.opened ++ [root])).IsChain fun inner outer =>
      ((building.document.appendChild building.top content).children outer).getLast? =
        some inner := by
  have inside := atEnd.sound.top_lt_size
  have younger := atEnd.pairwise_gt
  have spine := atEnd.spine
  obtain ⟨around, split⟩ := opened_eq_cons_top building
  rw [split] at younger spine ⊢
  rw [appendChild_eq_attach]
  refine List.isChain_cons_cons.mpr
    ⟨?_, spine.imp_of_mem_tail_imp fun inner outer _ member listed => ?_⟩
  · rw [children_attach inside, if_neg (Nat.ne_of_lt inside), if_pos rfl, List.getLast?_concat]
  · have older := (List.pairwise_cons.mp younger).1 outer member
    rw [children_attach inside, if_neg (Nat.ne_of_lt (Nat.lt_trans older inside)),
      if_neg (Nat.ne_of_lt older), listed]

theorem take (atEnd : building.IsAtEnd) (event : Event) : (building.take event).IsAtEnd := by
  have inside := atEnd.sound.top_lt_size
  have sound := atEnd.sound.take event
  have step := building.step_take event
  have leaf (content : Content)
      (sound : IsSound ⟨building.document.appendChild building.top content, building.opened⟩) :
      IsAtEnd ⟨building.document.appendChild building.top content, building.opened⟩ := by
    refine ⟨sound, (List.isChain_cons.mp (atEnd.spine_appendChild content)).2, ?_⟩
    intro last raw (listed : (Document.children _ building.top).getLast? = some last) _
    rw [appendChild_eq_attach, children_attach inside, if_neg (Nat.ne_of_lt inside), if_pos rfl,
      List.getLast?_concat] at listed
    rw [← Option.some.inj listed, appendChild_eq_attach, size_attach]
  generalize building.take event = after at sound step ⊢
  cases step with
  | add own =>
      cases opens : event.opens with
      | false =>
          rw [opens] at sound
          exact leaf _ sound
      | true =>
          rw [opens] at sound
          refine ⟨sound, atEnd.spine_appendChild _, ?_⟩
          intro last raw
            (listed : (Document.children _ building.document.size).getLast? = some last)
          rw [appendChild_eq_attach, children_attach inside, if_pos rfl] at listed
          cases listed
  | begin adds apart => exact leaf _ sound
  | @extend raw before last adds listed content =>
      have spine := atEnd.spine
      have newest := atEnd.newest
      refine ⟨sound, ?_, ?_⟩
      · simpa only [children_setContent] using spine
      · intro other raw (otherListed : (Document.children _ building.top).getLast? = some other) _
        rw [children_setContent, listed] at otherListed
        rw [← Option.some.inj otherListed, size_setContent]
        exact newest last before listed content
  | @close outer noContent around =>
      have spine := atEnd.spine
      obtain ⟨inner, split⟩ := around
      rw [← split, List.append_assoc] at spine
      refine ⟨sound, spine.suffix (List.suffix_append _ _), ?_⟩
      rcases List.eq_nil_or_concat inner with rfl | ⟨front, closed, rfl⟩
      · obtain rfl : outer = building.opened := split
        exact atEnd.newest
      · -- The last child of the new top is the element that was closed last, which is no text.
        intro last raw listed content
        obtain ⟨around, top⟩ := opened_eq_cons_top ⟨building.document, outer⟩
        dsimp only at top
        rw [List.concat_eq_append, List.append_assoc, List.singleton_append, top] at spine
        have closedLast := (List.isChain_append_cons_cons.mp spine).2.1
        obtain rfl := Option.some.inj (closedLast.symm.trans listed)
        have isElement := atEnd.sound.opened closed (split ▸ by simp)
        obtain ⟨element, found⟩ := isElement_eq_true_iff.mp isElement
        rw [found] at content
        cases content

end IsAtEnd

end Building

/-! ## The order of the nodes -/

namespace Document

variable {document : Document}

/-- Last children lead from a node to another one. -/
inductive EndsIn (document : Document) (top : Nat) : Nat → Prop
  /-- The node itself is the end. -/
  | here : EndsIn document top top
  /-- The end lies below the last child. -/
  | last {id child : Nat}
      (listed : (document.children id).getLast? = some child)
      (rest : EndsIn document top child) :
      EndsIn document top id

theorem EndsIn.mem_ids
    {top id : Nat}
    (ends : document.EndsIn top id)
    (forest : document.IsForest) :
    top ∈ (document.tree id).ids := by
  induction ends with
  | here => exact forest.self_mem_ids top
  | last listed _ inductionHypothesis =>
      rw [forest.ids_tree]
      exact List.mem_cons_of_mem _
        (List.mem_flatMap.mpr ⟨_, List.mem_of_getLast? listed, inductionHypothesis⟩)

/-- A tree without the parent of a new node is the same. -/
theorem IsForest.tree_appendChild_of_not_mem
    (forest : document.IsForest)
    {parent id : Nat}
    (inside : parent < document.size)
    (idInside : id < document.size)
    (apart : parent ∉ (document.tree id).ids)
    (content : Content) :
    (document.appendChild parent content).tree id = document.tree id := by
  refine forest.tree_congr (forest.appendChild inside content) fun inner member => ?_
  have old := Nat.ne_of_lt (forest.lt_size_of_mem_ids idInside member)
  have different : inner ≠ parent := fun same => apart (same ▸ member)
  rw [appendChild_eq_attach, content_attach inside, if_neg old, children_attach inside, if_neg old,
    if_neg different]
  exact ⟨rfl, rfl⟩

/-- A node that is added at the end of a tree is its last one. -/
theorem IsForest.ids_appendChild
    (forest : document.IsForest)
    {parent id : Nat}
    (inside : parent < document.size)
    (ends : document.EndsIn parent id)
    (content : Content) :
    ((document.appendChild parent content).tree id).ids =
      (document.tree id).ids ++ [document.size] := by
  have after := forest.appendChild inside content
  induction ends with
  | here =>
      have single : ((document.appendChild parent content).tree document.size).ids =
          [document.size] := by
        rw [after.ids_tree, appendChild_eq_attach, children_attach inside, if_pos rfl]
        rfl
      have children : (document.appendChild parent content).children parent =
          document.children parent ++ [document.size] := by
        rw [appendChild_eq_attach, children_attach inside, if_neg (Nat.ne_of_lt inside), if_pos rfl]
      have same : ((document.children parent).flatMap fun child =>
          ((document.appendChild parent content).tree child).ids) =
            (document.children parent).flatMap fun child => (document.tree child).ids := by
        refine List.flatMap_congr fun child listed => ?_
        have younger := forest.lt_of_mem_children listed
        rw [forest.tree_appendChild_of_not_mem inside younger.2]
        exact fun member => Nat.not_le.mpr younger.1 (forest.le_of_mem_ids member)
      rw [after.ids_tree, forest.ids_tree, children, List.flatMap_append, same,
        List.flatMap_singleton, single, List.cons_append]
  | @last id child listed rest inductionHypothesis =>
      have member := rest.mem_ids forest
      have childListed := List.mem_of_getLast? listed
      have younger := forest.lt_of_mem_children childListed
      have above := Nat.lt_of_lt_of_le younger.1 (forest.le_of_mem_ids member)
      obtain ⟨front, split⟩ := List.getLast?_eq_some_iff.mp listed
      have children : (document.appendChild parent content).children id = front ++ [child] := by
        rw [appendChild_eq_attach, children_attach inside,
          if_neg (Nat.ne_of_lt (Nat.lt_trans above inside)), if_neg (Nat.ne_of_lt above), split]
      have same : (front.flatMap fun other =>
          ((document.appendChild parent content).tree other).ids) =
            front.flatMap fun other => (document.tree other).ids := by
        refine List.flatMap_congr fun other inFront => ?_
        have otherListed : other ∈ document.children id := by
          rw [split]
          exact List.mem_append_left _ inFront
        have different : other ≠ child := by
          rintro rfl
          have once := forest.nodup_children id
          rw [split, List.nodup_append] at once
          exact once.2.2 other inFront other List.mem_cons_self rfl
        rw [forest.tree_appendChild_of_not_mem inside (forest.lt_of_mem_children otherListed).2]
        exact fun inOther => forest.disjoint_ids otherListed childListed different inOther member
      rw [after.ids_tree, forest.ids_tree, children, split, List.flatMap_append, same,
        List.flatMap_append, List.flatMap_singleton, List.flatMap_singleton, inductionHypothesis,
        List.cons_append, List.append_assoc]

/-- Trees with the same links have the same nodes. -/
theorem IsForest.ids_setContent
    (forest : document.IsForest)
    (changed : Nat)
    (content : Content)
    (id : Nat) :
    ((document.setContent changed content).tree id).ids = (document.tree id).ids := by
  induction id using forest.induction with
  | node id inductionHypothesis =>
      rw [(forest.setContent changed content).ids_tree, forest.ids_tree, children_setContent]
      exact congrArg _ (List.flatMap_congr inductionHypothesis)

end Document

namespace Building

open Document

variable {building : Building}

/-- Last children lead from the root and from every open element to the top. -/
theorem IsAtEnd.endsIn
    (atEnd : building.IsAtEnd)
    {id : Nat}
    (member : id ∈ building.opened ++ [root]) :
    building.document.EndsIn building.top id := by
  have onward (ids : List Nat) (inner : Nat)
      (spine : (inner :: ids).IsChain fun inner outer =>
        (building.document.children outer).getLast? = some inner)
      (ends : building.document.EndsIn building.top inner) :
      ∀ id ∈ inner :: ids, building.document.EndsIn building.top id := by
    induction ids generalizing inner with
    | nil => simpa using ends
    | cons outer ids inductionHypothesis =>
        obtain ⟨listed, rest⟩ := List.isChain_cons_cons.mp spine
        exact List.forall_mem_cons.mpr ⟨ends, inductionHypothesis outer rest (.last listed ends)⟩
  have spine := atEnd.spine
  obtain ⟨around, split⟩ := IsAtEnd.opened_eq_cons_top building
  rw [split] at spine member
  exact onward around building.top spine .here id member

/-- The nodes below the root stand in the order of their creation. -/
theorem ids_take
    (atEnd : building.IsAtEnd)
    (inOrder : (building.document.tree root).ids = List.range building.document.size)
    (event : Event) :
    ((building.take event).document.tree root).ids =
      List.range (building.take event).document.size := by
  have forest := atEnd.sound.rooted.forest
  have inside := atEnd.sound.top_lt_size
  have ends := atEnd.endsIn (List.mem_append_right _ (List.mem_singleton_self root))
  have added (content : Content) :
      ((building.document.appendChild building.top content).tree root).ids =
        List.range (building.document.appendChild building.top content).size := by
    rw [forest.ids_appendChild inside ends, inOrder, appendChild_eq_attach, size_attach,
      List.range_succ]
  have step := building.step_take event
  generalize building.take event = after at step ⊢
  cases step with
  | add own => exact added _
  | begin adds apart => exact added _
  | extend adds listed content => rw [forest.ids_setContent, inOrder, size_setContent]
  | close noContent around => exact inOrder

end Building

/-! ## Neighbouring texts -/

namespace Document

variable {document : Document}

/-- No two neighbouring children of a node are texts. -/
def TextsApart (document : Document) : Prop :=
  ∀ id, (document.children id).IsChain fun first second =>
    document.text? first = none ∨ document.text? second = none

theorem text?_eq_none_iff
    {id : Nat} :
    document.text? id = none ↔ ∀ raw, document.content id ≠ .text raw := by
  unfold text?
  cases document.content id <;> simp

theorem IsForest.textsApart_appendChild
    (forest : document.IsForest)
    (apart : document.TextsApart)
    {parent : Nat}
    (inside : parent < document.size)
    {content : Content}
    (free : (∀ raw, content ≠ .text raw) ∨
      ∀ last, (document.children parent).getLast? = some last → document.text? last = none) :
    (document.appendChild parent content).TextsApart := by
  have sameText {id : Nat} (old : id < document.size) :
      (document.appendChild parent content).text? id = none ↔ document.text? id = none := by
    rw [text?_eq_none_iff, text?_eq_none_iff, appendChild_eq_attach, content_attach inside,
      if_neg (Nat.ne_of_lt old)]
  have old (id : Nat) : (document.children id).IsChain fun first second =>
      (document.appendChild parent content).text? first = none ∨
        (document.appendChild parent content).text? second = none := by
    refine (apart id).imp_of_mem_imp fun first second firstListed secondListed other => ?_
    rwa [sameText (forest.lt_of_mem_children firstListed).2,
      sameText (forest.lt_of_mem_children secondListed).2]
  intro id
  rw [appendChild_eq_attach, children_attach inside, ← appendChild_eq_attach]
  split
  · exact .nil
  · split
    · refine List.isChain_append.mpr ⟨old parent, .singleton _, fun last listed new member => ?_⟩
      obtain rfl : document.size = new := Option.some.inj member
      rcases free with noText | lastFree
      · refine .inr (text?_eq_none_iff.mpr fun raw => ?_)
        rw [appendChild_eq_attach, content_attach inside, if_pos rfl]
        exact noText raw
      · have younger := forest.lt_of_mem_children (List.mem_of_getLast? listed)
        exact .inl ((sameText younger.2).mpr (lastFree last listed))
    · exact old id

theorem TextsApart.setContent
    (apart : document.TextsApart)
    {last : Nat}
    {before : String}
    (content : document.content last = .text before)
    (raw : String) :
    (document.setContent last (.text raw)).TextsApart := by
  have inside : last < document.size := by
    refine Nat.lt_of_not_le fun outside => ?_
    rw [content_of_size_le outside] at content
    cases content
  have same (id : Nat) :
      (document.setContent last (.text raw)).text? id = none ↔ document.text? id = none := by
    rw [text?_eq_none_iff, text?_eq_none_iff, content_setContent inside]
    by_cases here : id = last <;> simp [here, content]
  intro id
  rw [children_setContent]
  refine (apart id).imp fun first second other => ?_
  rwa [same, same]

end Document

namespace Building

open Document

variable {building : Building}

theorem textsApart_take
    (sound : building.IsSound)
    (apart : building.document.TextsApart)
    (event : Event) :
    (building.take event).document.TextsApart := by
  have forest := sound.rooted.forest
  have step := building.step_take event
  generalize building.take event = after at step ⊢
  cases step with
  | add own =>
      refine forest.textsApart_appendChild apart sound.top_lt_size (.inl fun raw same => ?_)
      cases event <;> cases own <;> cases same
  | begin adds free =>
      exact forest.textsApart_appendChild apart sound.top_lt_size
        (.inr fun last listed => text?_eq_none_iff.mpr fun raw => free last raw listed)
  | extend adds listed content => exact apart.setContent content _
  | close noContent around => exact apart

end Building

/-!
## The elements of a tree

The elements of a document in document order are those of its tree, whatever the places of its
nodes. While a document is built, an event adds its own element to those that are there, or none.
-/

namespace Tree

mutual

/-- The elements of a tree in document order. -/
def elements : Tree → List Element
  | .node _ content children => content.element?.toList ++ elementsOfAll children

/-- The elements of several trees in document order. -/
def elementsOfAll : List Tree → List Element
  | [] => []
  | tree :: trees => tree.elements ++ elementsOfAll trees

end

theorem elementsOfAll_eq_flatMap (trees : List Tree) :
    elementsOfAll trees = trees.flatMap elements := by
  induction trees with
  | nil => rfl
  | cons tree trees inductionHypothesis => simp [elementsOfAll, inductionHypothesis]

mutual

/-- The elements of a tree do not depend on the places of its nodes. -/
theorem elements_withoutIds : (tree : Tree) → tree.withoutIds.elements = tree.elements
  | .node _ content children => by
      rw [withoutIds, elements, elements, elementsOfAll_withoutIdsOfAll children]

theorem elementsOfAll_withoutIdsOfAll :
    (trees : List Tree) → elementsOfAll (withoutIdsOfAll trees) = elementsOfAll trees
  | [] => rfl
  | tree :: trees => by
      rw [withoutIdsOfAll, elementsOfAll, elementsOfAll, elements_withoutIds tree,
        elementsOfAll_withoutIdsOfAll trees]

end

end Tree

namespace Document

variable {document : Document}

theorem IsForest.elements_tree
    (forest : document.IsForest)
    (top : Nat) :
    (document.tree top).elements = (document.tree top).ids.filterMap document.element? := by
  induction top using forest.induction with
  | node top inductionHypothesis =>
      have inner : ((document.children top).map document.tree).flatMap Tree.elements =
          ((document.children top).flatMap fun child => (document.tree child).ids).filterMap
            document.element? := by
        rw [List.flatMap_map, List.filterMap_flatMap]
        exact List.flatMap_congr inductionHypothesis
      rw [forest.ids_tree, forest.tree_eq, Tree.elements, Tree.elementsOfAll_eq_flatMap, inner,
        List.filterMap_cons, element?_eq]
      cases (document.content top).element? <;> rfl

/-- The elements of a document, place by place. -/
theorem IsForest.map_elements
    (forest : document.IsForest)
    (content_root : document.content root = .root) :
    document.elements.map document.element? = (document.tree root).elements.map some := by
  have noElement : document.element? root = none := by
    rw [element?_eq, content_root]
    rfl
  rw [forest.elements_tree, forest.ids_tree, ← forest.descendants_eq, elements,
    List.filterMap_cons, noElement]
  induction document.descendants root with
  | nil => rfl
  | cons id ids inductionHypothesis =>
      cases found : document.element? id with
      | none => simpa [isElement, found] using inductionHypothesis
      | some element => simpa [isElement, found] using inductionHypothesis

/-- Documents with the same tree have the same elements at the same places. -/
theorem IsForest.exists_element_of_sameTree
    (forest : document.IsForest)
    (content_root : document.content root = .root)
    {other : Document}
    (otherForest : other.IsForest)
    (otherRoot : other.content root = .root)
    (sameTree : (other.tree root).withoutIds = (document.tree root).withoutIds)
    {place id : Nat}
    (placed : document.elements[place]? = some id) :
    ∃ found, other.elements[place]? = some found ∧ other.element? found = document.element? id := by
  have same : other.elements.map other.element? = document.elements.map document.element? := by
    rw [forest.map_elements content_root, otherForest.map_elements otherRoot,
      ← Tree.elements_withoutIds, sameTree, Tree.elements_withoutIds]
  have here := congrArg (fun elements => elements[place]?) same
  simp only [List.getElem?_map, placed, Option.map_some] at here
  obtain ⟨found, otherPlaced, element_eq⟩ := Option.map_eq_some_iff.mp here
  exact ⟨found, otherPlaced, element_eq⟩

end Document

/-! ### The elements of events -/

/-- The element of an event. -/
def Event.element? : Event → Option Element
  | .start tag => some tag
  | .empty tag => some tag
  | _ => none

namespace Building

open Document

variable {building : Building}

/-- What a node of its own stands for has the element of its event. -/
theorem element?_of_content?
    {event : Event}
    {content : Content}
    (own : event.content? = some content) :
    content.element? = event.element? := by
  cases event <;> cases own <;> rfl

/-- An event without a node of its own has no element. -/
theorem element?_of_content?_eq_none
    {event : Event}
    (none : event.content? = none) :
    event.element? = .none := by
  cases event <;> first | rfl | cases none

/-- The elements in the order in which their nodes were made. -/
def stored (document : Document) : List Element :=
  (List.range document.size).filterMap document.element?

theorem stored_appendChild
    {document : Document}
    {parent : Nat}
    (inside : parent < document.size)
    (content : Content) :
    stored (document.appendChild parent content) =
      stored document ++ content.element?.toList := by
  have old : (List.range document.size).filterMap (document.appendChild parent content).element? =
      (List.range document.size).filterMap document.element? := by
    refine List.filterMap_congr fun id member => ?_
    rw [element?_eq, element?_eq, appendChild_eq_attach, content_attach inside,
      if_neg (Nat.ne_of_lt (List.mem_range.mp member))]
  have new : (document.appendChild parent content).element? document.size = content.element? := by
    rw [element?_eq, appendChild_eq_attach, content_attach inside, if_pos rfl]
  rw [stored, stored, appendChild_eq_attach, size_attach, ← appendChild_eq_attach, List.range_succ,
    List.filterMap_append, old]
  cases found : content.element? <;> simp [new, found]

theorem stored_take
    (sound : building.IsSound)
    (event : Event) :
    stored (building.take event).document =
      stored building.document ++ event.element?.toList := by
  have inside := sound.top_lt_size
  have step := building.step_take event
  generalize building.take event = after at step ⊢
  cases step with
  | add own => rw [stored_appendChild inside, element?_of_content? own]
  | begin adds apart =>
      have noElement : event.element? = none := by cases event <;> first | rfl | cases adds
      rw [stored_appendChild inside, noElement]
      rfl
  | @extend raw before last adds listed content =>
      have noElement : event.element? = none := by cases event <;> first | rfl | cases adds
      have younger := (sound.rooted.forest.lt_of_mem_children (List.mem_of_getLast? listed)).2
      rw [noElement, stored, size_setContent, Option.toList_none, List.append_nil]
      refine List.filterMap_congr fun id _ => ?_
      rw [element?_eq, element?_eq, content_setContent younger]
      split
      · next same => rw [same, content]; rfl
      · rfl
  | close noContent around =>
      have noElement : event.element? = none := by
        refine element?_of_content?_eq_none ?_
        refine Option.eq_none_iff_forall_ne_some.mpr fun content own => ?_
        simp [Event.isContent, own] at noContent
      rw [noElement, Option.toList_none, List.append_nil]

end Building

/-!
## Void elements

No end tag closes a void element, so none is ever open while a document is built, and nothing
hangs below one in a document that was read.
-/

open Document

/-- Nothing hangs below the void elements of a document. -/
def Document.KeepsVoidsEmpty (document : Document) : Prop :=
  ∀ id element, document.content id = .element element → isVoid element.name = true →
    document.children id = []

namespace Building

variable {building : Building}

/-- Nothing hangs below void elements, and none of them is open. -/
structure KeepsVoidsShut (building : Building) : Prop where
  /-- What is built is sound. -/
  sound : building.IsSound
  /-- Nothing hangs below a void element. -/
  empty : building.document.KeepsVoidsEmpty
  /-- No void element is open. -/
  opened : ∀ id ∈ building.opened, ∀ element,
    building.document.content id = .element element → isVoid element.name = false

namespace KeepsVoidsShut

theorem start : KeepsVoidsShut ⟨Document.empty, []⟩ := by
  refine ⟨.start, fun id element content => ?_, nofun⟩
  have isElement := isElement_eq_true_iff.mpr ⟨element, content⟩
  obtain rfl := Nat.lt_one_iff.mp (lt_size_of_isElement isElement)
  cases content

theorem isVoid_top
    (shut : building.KeepsVoidsShut)
    {element : Element}
    (content : building.document.content building.top = .element element) :
    isVoid element.name = false := by
  rcases building.top_eq with isRoot | listed
  · rw [isRoot, shut.sound.rooted.content_root] at content
    cases content
  · exact shut.opened _ listed element content

/-- A node that is added does not go below a void element. -/
theorem keepsVoidsEmpty_appendChild
    (shut : building.KeepsVoidsShut)
    (content : Content) :
    (building.document.appendChild building.top content).KeepsVoidsEmpty := by
  intro id element found void
  have inside := shut.sound.top_lt_size
  rw [appendChild_eq_attach, content_attach inside] at found
  rw [appendChild_eq_attach, children_attach inside]
  by_cases new : id = building.document.size
  · rw [if_pos new]
  · rw [if_neg new] at found ⊢
    have notTop : id ≠ building.top := by
      rintro rfl
      rw [shut.isVoid_top found] at void
      cases void
    rw [if_neg notTop]
    exact shut.empty id element found void

/-- Nor does a node that is added change what is open. -/
theorem isVoid_of_mem_opened
    (shut : building.KeepsVoidsShut)
    (content : Content)
    {id : Nat}
    (listed : id ∈ building.opened)
    {element : Element}
    (found : (building.document.appendChild building.top content).content id = .element element) :
    isVoid element.name = false := by
  have old := Nat.ne_of_lt (lt_size_of_isElement (shut.sound.opened id listed))
  rw [appendChild_eq_attach, content_attach shut.sound.top_lt_size, if_neg old] at found
  exact shut.opened id listed element found

theorem take (shut : building.KeepsVoidsShut) (event : Event) :
    (building.take event).KeepsVoidsShut := by
  have inside := shut.sound.top_lt_size
  have sound := shut.sound.take event
  have step := building.step_take event
  generalize building.take event = after at sound step ⊢
  cases step with
  | @add content own =>
      refine ⟨sound, shut.keepsVoidsEmpty_appendChild content, fun id listed element found => ?_⟩
      cases opens : event.opens with
      | false =>
          rw [opens, if_neg Bool.false_ne_true] at listed
          exact shut.isVoid_of_mem_opened content listed found
      | true =>
          rw [opens, if_pos rfl] at listed
          rcases List.mem_cons.mp listed with rfl | outer
          · rw [appendChild_eq_attach, content_attach inside, if_pos rfl] at found
            cases event with
            | start opening =>
                cases own
                cases found
                simpa [Event.opens] using opens
            | _ => cases opens
          · exact shut.isVoid_of_mem_opened content outer found
  | begin adds apart =>
      exact ⟨sound, shut.keepsVoidsEmpty_appendChild _,
        fun id listed element found => shut.isVoid_of_mem_opened _ listed found⟩
  | @extend raw before last adds listed content =>
      have younger := (shut.sound.rooted.forest.lt_of_mem_children (List.mem_of_getLast? listed)).2
      have same {id : Nat} {element : Element}
          (found : (building.document.setContent last (.text (before ++ raw))).content id =
            .element element) :
          building.document.content id = .element element := by
        rw [content_setContent younger] at found
        split at found
        · cases found
        · exact found
      refine ⟨sound, fun id element found void => ?_, fun id opened element found => ?_⟩
      · rw [children_setContent]
        exact shut.empty id element (same found) void
      · exact shut.opened id opened element (same found)
  | close noContent around =>
      exact ⟨sound, shut.empty, fun id listed => shut.opened id (around.subset listed)⟩

theorem foldl (shut : building.KeepsVoidsShut) (events : List Event) :
    (events.foldl Building.take building).KeepsVoidsShut := by
  induction events generalizing building with
  | nil => exact shut
  | cons event events inductionHypothesis => exact inductionHypothesis (shut.take event)

end KeepsVoidsShut

end Building

/-- Nothing hangs below the void elements of a document that was read. -/
theorem Document.keepsVoidsEmpty_of_read
    {source : String}
    {document : Document}
    (reads : Document.read source = .ok document) :
    document.KeepsVoidsEmpty := by
  obtain ⟨events, _, rfl⟩ := read_eq_ok_iff.mp reads
  exact (Building.KeepsVoidsShut.start.foldl events).empty

end Markup
end MailPress
