import Mathlib.Data.List.Flatten
import Mathlib.Data.List.Permutation
import MailPress.Markup.Reader
import MailPress.Proofs.Markup.Building
import MailPress.Proofs.Markup.DocumentOrder
import MailPress.Proofs.Markup.Layout
import MailPress.Proofs.Markup.Retext

/-!
# What the links of a document guarantee

A document is empty or read from a source at first, and is then edited at nodes that exist.
Whatever the edits, the links between its nodes go on to agree. While nodes are only added below
the root and below elements, nothing hangs below a text or a comment.

On a forest every lookup of a document is safe: the walk below the root ends, every node is
found among the children of its parent, and what does not hang below the root is never listed
or written, whatever happens to it.
-/

namespace MailPress
namespace Markup

/-- A change of a document, made at one of its nodes. -/
inductive Edit
  /-- A new last child. -/
  | appendChild (parent : Nat) (content : Content)
  /-- A new child in front of the child with this index. -/
  | insertChild (parent index : Nat) (content : Content)
  /-- Raw text behind the content below the node. -/
  | appendText (parent : Nat) (raw : String)
  /-- The node is taken out of its parent. -/
  | detach (id : Nat)
  /-- One text in the place of all content below the node. -/
  | setText (id : Nat) (raw : String)
  /-- The attributes or the name of an element change. -/
  | changeElement (id : Nat) (change : Element → Element)

/-- The node at which an edit is made. -/
def Edit.place : Edit → Nat
  | .appendChild parent _ => parent
  | .insertChild parent _ _ => parent
  | .appendText parent _ => parent
  | .detach id => id
  | .setText id _ => id
  | .changeElement id _ => id

namespace Document

/-- The document after an edit. -/
def edit (document : Document) : Edit → Document
  | .appendChild parent content => document.appendChild parent content
  | .insertChild parent index content => document.insertChild parent index content
  | .appendText parent raw => document.appendText parent raw
  | .detach id => document.detach id
  | .setText id raw => document.setText id raw
  | .changeElement id change => document.modifyElement id change

/-- A document that comes about by reading and editing. -/
inductive IsReachable : Document → Prop
  /-- The document without content. -/
  | empty : IsReachable empty
  /-- A document that was read. -/
  | read
      {source : String}
      {document : Document}
      (read : Document.read source = .ok document) :
      IsReachable document
  /-- A document that was edited at one of its nodes. -/
  | edit
      {document : Document}
      (reachable : IsReachable document)
      (edit : Edit)
      (inside : edit.place < document.size) :
      IsReachable (document.edit edit)

variable {document : Document}

/-- An edit keeps a forest a forest. -/
theorem IsForest.edit
    (forest : document.IsForest)
    (edit : Edit)
    (inside : edit.place < document.size) :
    (document.edit edit).IsForest := by
  cases edit with
  | appendChild parent content => exact forest.appendChild inside content
  | insertChild parent index content => exact forest.insertChild inside index content
  | appendText parent raw => exact forest.appendText inside raw
  | detach id => exact forest.detach id
  | setText id raw => exact forest.setText inside raw
  | changeElement id change => exact forest.modifyElement id change

/-- What is read is rooted. -/
theorem isRooted_of_read
    {source : String}
    (read : Document.read source = .ok document) :
    document.IsRooted := by
  unfold Document.read at read
  dsimp only at read
  split at read
  · next events _ =>
      obtain rfl := Except.ok.inj read
      exact .ofEvents events
  · cases read

/-- The links of a document that was read and edited agree. -/
theorem IsReachable.isForest (reachable : document.IsReachable) : document.IsForest := by
  induction reachable with
  | empty => exact .empty
  | read read => exact (isRooted_of_read read).forest
  | edit _ edit inside forest => exact forest.edit edit inside

/-! ## Trees of elements -/

/-- What has nodes below it is the root or an element. -/
def IsElementTree (document : Document) : Prop :=
  ∀ child parent, document.parent? child = some parent →
    parent = root ∨ document.isElement parent = true

theorem isElement_setContent_of_text
    {id : Nat}
    {before : String}
    (content : document.content id = .text before)
    (inside : id < document.size)
    (after : String)
    (other : Nat) :
    (document.setContent id (.text after)).isElement other = document.isElement other := by
  rw [isElement, isElement, element?_eq, element?_eq, content_setContent inside]
  split
  · next same => simp [same, content, Content.element?]
  · rfl

namespace IsElementTree

theorem empty : IsElementTree empty := by
  intro child parent below
  have first := Nat.lt_one_iff.mp (lt_size_of_parent? below)
  subst first
  cases below

theorem attach
    (tree : document.IsElementTree)
    {parent : Nat}
    (inside : parent < document.size)
    (fits : parent = root ∨ document.isElement parent = true)
    (content : Content)
    (place : List Nat → List Nat) :
    (document.attach parent content place).IsElementTree := by
  intro child upper below
  have old : upper = root ∨ document.isElement upper = true := by
    rw [parent?_attach inside] at below
    split at below
    · exact Option.some.inj below ▸ fits
    · exact tree child _ below
  exact old.imp_right (isElement_attach inside content place)

theorem appendText
    (tree : document.IsElementTree)
    (forest : document.IsForest)
    {parent : Nat}
    (inside : parent < document.size)
    (fits : parent = root ∨ document.isElement parent = true)
    (raw : String) :
    (document.appendText parent raw).IsElementTree := by
  rcases document.appendText_cases parent raw with ⟨last, before, listed, content, eq⟩ | ⟨_, eq⟩
  · have lastInside := (forest.lt_of_mem_children (List.mem_of_getLast? listed)).2
    intro child upper below
    rw [eq, parent?_setContent] at below
    rw [eq, isElement_setContent_of_text content lastInside]
    exact tree child _ below
  · rw [eq, appendChild_eq_attach]
    exact tree.attach inside fits _ _

end IsElementTree

end Document

open Document in
/-- Taking events adds nodes below the root and below open elements. -/
theorem Building.IsSound.isElementTree_foldl
    {building : Building}
    (sound : building.IsSound)
    (tree : building.document.IsElementTree)
    (events : List Event) :
    (events.foldl Building.take building).document.IsElementTree := by
  induction events generalizing building with
  | nil => exact tree
  | cons event events inductionHypothesis =>
      refine inductionHypothesis (sound.take event) ?_
      have fits := building.top_eq.imp_right (sound.opened building.top)
      rcases building.take_cases event with ⟨content, eq⟩ | ⟨raw, eq⟩ | eq
      · rw [eq, appendChild_eq_attach]
        exact tree.attach sound.top_lt_size fits _ _
      · rw [eq]
        exact tree.appendText sound.rooted.forest sound.top_lt_size fits raw
      · rw [eq]
        exact tree

/-- What is read is a tree of elements. -/
theorem Document.isElementTree_of_read
    {source : String}
    {document : Document}
    (read : Document.read source = .ok document) :
    document.IsElementTree := by
  unfold Document.read at read
  dsimp only at read
  split at read
  · next events _ =>
      obtain rfl := Except.ok.inj read
      exact Building.IsSound.start.isElementTree_foldl .empty events
  · cases read

/-!
## What is written for each node

A written document is made of strokes: every node that is written has one where it starts and
one where it ends, and what hangs below it stands in between. The nodes start in document
order. A text or a comment is written without what hangs below it, so a node is written
exactly when there is no such node between it and the top.
-/

/-- A piece of a written document, and the node that it is written for. -/
structure Stroke where
  /-- The node. -/
  id : Nat
  /-- Whether the node starts here; otherwise it ends here. -/
  starts : Bool
  /-- What is written. -/
  text : String

/-- What is written for a node in front of its children. -/
def Content.opening (childless : Bool) : Content → String
  | .root => ""
  | .text raw => raw
  | .verbatim raw => raw
  | .comment body => "<!--" ++ body ++ "-->"
  | .element tag =>
      let opening := "<" ++ tag.name ++ writeAttributes tag.attributes
      if childless && tag.selfClosing && !isVoid tag.name then opening ++ "/>"
      else opening ++ ">"

/-- What is written for a node behind its children. -/
def Content.closing (childless : Bool) : Content → String
  | .element tag =>
      if childless && (tag.selfClosing || isVoid tag.name) then ""
      else "</" ++ tag.name ++ ">"
  | _ => ""

namespace Tree

mutual

/-- The strokes of a tree. -/
def strokes : Tree → List Stroke
  | .node id content children =>
      ⟨id, true, content.opening children.isEmpty⟩ ::
        ((if content.holdsChildren then strokesOfAll children else []) ++
          [⟨id, false, content.closing children.isEmpty⟩])

/-- The strokes of several trees, one tree after another. -/
def strokesOfAll : List Tree → List Stroke
  | [] => []
  | tree :: trees => tree.strokes ++ strokesOfAll trees

end

/-- The nodes that are written, in the order in which they start. -/
def started (tree : Tree) : List Nat :=
  (tree.strokes.filter (·.starts)).map (·.id)

theorem strokesOfAll_eq_flatMap (trees : List Tree) :
    strokesOfAll trees = trees.flatMap strokes := by
  induction trees with
  | nil => rfl
  | cons tree trees inductionHypothesis => simp [strokesOfAll, inductionHypothesis]

/-- A tree is written as its opening, the trees below it and its closing. -/
theorem write_node
    (id : Nat)
    (content : Content)
    (children : List Tree) :
    (Tree.node id content children).write =
      content.opening children.isEmpty ++
        ((if content.holdsChildren then writeTrees children else "") ++
          content.closing children.isEmpty) := by
  cases content with
  | root => simp [write, Content.opening, Content.closing, Content.holdsChildren]
  | text | comment | verbatim =>
      simp [write, Content.opening, Content.closing, Content.holdsChildren]
  | element element =>
      have nothing (childless : children.isEmpty = true) : writeTrees children = "" := by
        rw [List.isEmpty_iff.mp childless, writeTrees]
      cases childless : children.isEmpty <;> cases slash : element.selfClosing <;>
        cases void : isVoid element.name <;>
        simp_all [write, Content.opening, Content.closing, Content.holdsChildren,
          String.append_assoc]

mutual

/-- The strokes of a tree make up its text. -/
theorem join_strokes (tree : Tree) :
    String.join (tree.strokes.map (·.text)) = tree.write := by
  cases tree with
  | node id content children =>
      have inner := join_strokesOfAll children
      rw [write_node, strokes, List.map_cons, List.map_append, String.join_cons,
        String.join_append]
      cases content.holdsChildren with
      | true => simp [inner]
      | false => simp

/-- The strokes of several trees make up their text. -/
theorem join_strokesOfAll (trees : List Tree) :
    String.join ((strokesOfAll trees).map (·.text)) = writeTrees trees := by
  cases trees with
  | nil => rfl
  | cons tree trees =>
      rw [strokesOfAll, List.map_append, String.join_append, join_strokes tree,
        join_strokesOfAll trees, writeTrees]

end

theorem started_node
    (id : Nat)
    (content : Content)
    (children : List Tree) :
    (Tree.node id content children).started =
      id :: if content.holdsChildren then children.flatMap started else [] := by
  rw [started, strokes, strokesOfAll_eq_flatMap]
  cases content.holdsChildren with
  | true =>
      simp [List.filter_flatMap, List.map_flatMap]
      rfl
  | false => simp

end Tree

namespace Document

variable {document : Document}

/-- The strokes of a document. -/
def strokes (document : Document) : List Stroke :=
  (document.tree root).strokes

/-- The nodes that are written for a document, in the order in which they start. -/
def started (document : Document) : List Nat :=
  (document.tree root).started

/-- The node hangs below the other one, and all that it hangs below on the way there is written
with its children. -/
def IsShownBelow (document : Document) (top id : Nat) : Prop :=
  Relation.TransGen
    (fun child parent => document.parent? child = some parent ∧
      (document.content parent).holdsChildren = true)
    id top

/-- The node is written as part of the document. -/
def IsShown (document : Document) (id : Nat) : Prop :=
  document.IsShownBelow root id

namespace IsForest

/-- Every stroke of a tree is written for one of its nodes. -/
theorem id_mem_ids
    (forest : document.IsForest)
    {top : Nat}
    {stroke : Stroke}
    (member : stroke ∈ (document.tree top).strokes) :
    stroke.id ∈ (document.tree top).ids := by
  induction top using forest.induction with
  | node top inductionHypothesis =>
      rw [forest.tree_eq, Tree.strokes, Tree.strokesOfAll_eq_flatMap, List.flatMap_map] at member
      rw [forest.ids_tree]
      rcases List.mem_cons.mp member with rfl | member
      · exact List.mem_cons_self
      · rcases List.mem_append.mp member with inner | last
        · split at inner
          · obtain ⟨child, listed, inChild⟩ := List.mem_flatMap.mp inner
            exact List.mem_cons_of_mem _
              (List.mem_flatMap.mpr ⟨child, listed, inductionHypothesis child listed inChild⟩)
          · cases inner
        · obtain rfl := List.mem_singleton.mp last
          exact List.mem_cons_self

theorem started_tree
    (forest : document.IsForest)
    (id : Nat) :
    (document.tree id).started =
      id :: if (document.content id).holdsChildren then
        (document.children id).flatMap fun child => (document.tree child).started
      else [] := by
  rw [forest.tree_eq, Tree.started_node, List.flatMap_map]

theorem self_mem_started
    (forest : document.IsForest)
    (id : Nat) :
    id ∈ (document.tree id).started := by
  rw [forest.started_tree]
  exact List.mem_cons_self

/-- A node is written as part of a tree when it is at the top, or shown below the top. -/
theorem mem_started_iff
    (forest : document.IsForest)
    {top id : Nat} :
    id ∈ (document.tree top).started ↔ id = top ∨ document.IsShownBelow top id := by
  have below {child parent : Nat} (step : document.parent? child = some parent)
      (holds : (document.content parent).holdsChildren = true)
      (member : id ∈ (document.tree child).started) :
      id ∈ (document.tree parent).started := by
    rw [forest.started_tree, if_pos holds]
    exact List.mem_cons_of_mem _
      (List.mem_flatMap.mpr ⟨child, forest.mem_children_iff.mpr step, member⟩)
  constructor
  · intro member
    induction top using forest.induction with
    | node top inductionHypothesis =>
        rw [forest.started_tree] at member
        rcases List.mem_cons.mp member with same | inner
        · exact .inl same
        · split at inner
          · next holds =>
              obtain ⟨child, listed, inChild⟩ := List.mem_flatMap.mp inner
              have step := forest.mem_children_iff.mp listed
              rcases inductionHypothesis child listed inChild with rfl | shown
              · exact .inr (.single ⟨step, holds⟩)
              · exact .inr (.tail shown ⟨step, holds⟩)
          · cases inner
  · rintro (rfl | shown)
    · exact forest.self_mem_started id
    · induction shown with
      | single step => exact below step.1 step.2 (forest.self_mem_started id)
      | tail _ step member => exact below step.1 step.2 member

/-- The nodes start in document order. -/
theorem started_sublist_ids
    (forest : document.IsForest)
    (top : Nat) :
    (document.tree top).started.Sublist (document.tree top).ids := by
  induction top using forest.induction with
  | node top inductionHypothesis =>
      rw [forest.started_tree, forest.ids_tree]
      apply List.Sublist.cons_cons
      split
      · exact List.Sublist.flatMap_right _ inductionHypothesis
      · exact List.nil_sublist _

/-- Where only the root and elements have nodes below them, every node is written. -/
theorem started_eq_ids
    (forest : document.IsForest)
    (holds : document.ParentsHold)
    (top : Nat) :
    (document.tree top).started = (document.tree top).ids := by
  induction top using forest.induction with
  | node top inductionHypothesis =>
      rw [forest.started_tree, forest.ids_tree]
      cases listed : document.children top with
      | nil => simp
      | cons child others =>
          rw [listed] at inductionHypothesis
          have step := forest.mem_children_iff.mp (listed ▸ List.mem_cons_self)
          rw [if_pos (holds step), List.flatMap_congr inductionHypothesis]

end IsForest

end Document

namespace Document

variable {document : Document}

/-! ## Siblings -/

/-- A node stands at one place among the children of its parent, and the lists of its siblings
are what stands in front of that place and behind it. -/
structure HasPlace (document : Document) (parent id position : Nat) : Prop where
  /-- The node is found. -/
  found : (document.children parent).findIdx? (· == id) = some position
  /-- There is a list of children behind the node. -/
  inRange : position + 1 ≤ (document.children parent).length
  /-- Siblings in front are listed from the node outwards. -/
  preceding : document.precedingSiblings id =
    (((document.children parent).take position).filter document.isElement).reverse
  /-- Siblings behind are listed from the node outwards. -/
  following : document.followingSiblings id =
    ((document.children parent).drop (position + 1)).filter document.isElement
  /-- With an element in the middle, they are all element children of the parent. -/
  around : document.isElement id = true →
    (document.precedingSiblings id).reverse ++ id :: document.followingSiblings id =
      (document.children parent).filter document.isElement

namespace IsForest

/-- The children of a parent are those in front of a child, the child, and those behind. -/
theorem exists_children_eq
    (forest : document.IsForest)
    {id parent : Nat}
    (below : document.parent? id = some parent) :
    ∃ before after, document.children parent = before ++ id :: after ∧ id ∉ before := by
  obtain ⟨before, after, listed⟩ := List.append_of_mem (forest.mem_children_iff.mpr below)
  refine ⟨before, after, listed, ?_⟩
  have nodup := listed ▸ forest.nodup_children parent
  exact fun again => (List.nodup_append.mp nodup).2.2 id again id List.mem_cons_self rfl

theorem precedingSiblings_eq
    {id parent : Nat}
    {before after : List Nat}
    (below : document.parent? id = some parent)
    (listed : document.children parent = before ++ id :: after)
    (notBefore : id ∉ before) :
    document.precedingSiblings id = (before.filter document.isElement).reverse := by
  have all : document.siblings id = before ++ id :: after := by simp [siblings, below, listed]
  have different : ∀ other ∈ before, (other != id) = true := fun other member =>
    bne_iff_ne.mpr (ne_of_mem_of_not_mem member notBefore)
  rw [precedingSiblings, all, List.takeWhile_append_of_pos different]
  simp

theorem followingSiblings_eq
    {id parent : Nat}
    {before after : List Nat}
    (below : document.parent? id = some parent)
    (listed : document.children parent = before ++ id :: after)
    (notBefore : id ∉ before) :
    document.followingSiblings id = after.filter document.isElement := by
  have all : document.siblings id = before ++ id :: after := by simp [siblings, below, listed]
  have different : ∀ other ∈ before, (other != id) = true := fun other member =>
    bne_iff_ne.mpr (ne_of_mem_of_not_mem member notBefore)
  rw [followingSiblings, all, List.dropWhile_append_of_pos different]
  simp

theorem exists_hasPlace
    (forest : document.IsForest)
    {id parent : Nat}
    (below : document.parent? id = some parent) :
    ∃ position, document.HasPlace parent id position := by
  obtain ⟨before, after, listed, notBefore⟩ := forest.exists_children_eq below
  have preceding := precedingSiblings_eq below listed notBefore
  have following := followingSiblings_eq below listed notBefore
  refine ⟨before.length, ?_, ?_, ?_, ?_, ?_⟩
  · have notFound : before.findIdx? (· == id) = none := by
      refine List.findIdx?_eq_none_iff.mpr fun other member => ?_
      exact beq_false_of_ne (ne_of_mem_of_not_mem member notBefore)
    simp [listed, List.findIdx?_append, notFound, List.findIdx?_cons]
  · simp [listed]
  · rw [preceding, listed, List.take_left]
  · rw [following, listed, ← List.drop_drop, List.drop_left, List.drop_one, List.tail_cons]
  · intro isElement
    rw [preceding, following, listed, List.reverse_reverse, List.filter_append,
      List.filter_cons_of_pos isElement]

/-! ## Edits out of reach -/

theorem isInReach_iff
    (forest : document.IsForest)
    {id parent : Nat}
    (below : document.parent? id = some parent) :
    document.IsInReach id ↔ document.IsInReach parent := by
  constructor
  · rintro (rfl | attached)
    · cases forest.parent?_root.symm.trans below
    · exact attached.of_parent below
  · rintro (rfl | attached)
    · exact .inr (.single below)
    · exact .inr (.head below attached)

theorem lt_size_of_isInReach
    (forest : document.IsForest)
    {id : Nat}
    (reached : document.IsInReach id) :
    id < document.size := by
  rcases reached with rfl | attached
  · exact forest.nonempty
  · obtain ⟨parent, step, _⟩ := attached.exists_parent
    exact lt_size_of_parent? step

/-- A new node below a node out of reach leaves every node within reach as it is. -/
theorem same_attach
    (forest : document.IsForest)
    {parent : Nat}
    (inside : parent < document.size)
    (away : ¬document.IsInReach parent)
    (content : Content)
    (place : List Nat → List Nat)
    {id : Nat}
    (reached : document.IsInReach id) :
    (document.attach parent content place).content id = document.content id ∧
      (document.attach parent content place).children id = document.children id := by
  have old : id ≠ document.size := Nat.ne_of_lt (forest.lt_size_of_isInReach reached)
  have notParent : id ≠ parent := by
    rintro rfl
    exact away reached
  rw [content_attach inside, children_attach inside]
  simp [old, notParent]

/-- An edit at a node out of reach leaves every node within reach as it is. -/
theorem same_edit
    (forest : document.IsForest)
    (edit : Edit)
    (inside : edit.place < document.size)
    (away : ¬document.IsInReach edit.place)
    {id : Nat}
    (reached : document.IsInReach id) :
    (document.edit edit).content id = document.content id ∧
      (document.edit edit).children id = document.children id := by
  have elsewhere {other : Nat} (out : ¬document.IsInReach other) : id ≠ other := by
    rintro rfl
    exact out reached
  cases edit with
  | appendChild parent content =>
      rw [Edit.place] at inside away
      rw [Document.edit, appendChild_eq_attach]
      exact forest.same_attach inside away content _ reached
  | insertChild parent index content =>
      rw [Edit.place] at inside away
      rw [Document.edit, insertChild_eq_attach]
      exact forest.same_attach inside away content _ reached
  | appendText parent raw =>
      rw [Edit.place] at inside away
      rw [Document.edit]
      rcases document.appendText_cases parent raw with ⟨last, before, listed, _, eq⟩ | ⟨_, eq⟩
      · have below := forest.mem_children_iff.mp (List.mem_of_getLast? listed)
        have out := elsewhere fun lastReached => away ((forest.isInReach_iff below).mp lastReached)
        rw [eq, children_setContent, content_setContent (lt_size_of_parent? below), if_neg out]
        exact ⟨rfl, rfl⟩
      · rw [eq, appendChild_eq_attach]
        exact forest.same_attach inside away (.text raw) _ reached
  | detach top =>
      rw [Edit.place] at away
      rw [Document.edit, content_detach, forest.children_detach]
      refine ⟨rfl, List.filter_eq_self.mpr fun child listed => bne_iff_ne.mpr ?_⟩
      rintro rfl
      exact away ((forest.isInReach_iff (forest.mem_children_iff.mp listed)).mpr reached)
  | setText parent raw =>
      rw [Edit.place] at inside away
      have old : id ≠ document.size := Nat.ne_of_lt (forest.lt_size_of_isInReach reached)
      rw [Document.edit, content_setText inside, forest.children_setText inside, if_neg old,
        if_neg old, if_neg (elsewhere away)]
      exact ⟨rfl, rfl⟩
  | changeElement place change =>
      rw [Edit.place] at away
      rw [Document.edit, children_modifyElement, Document.content, node_modifyElement,
        if_neg (elsewhere away)]
      exact ⟨rfl, rfl⟩

end IsForest

/-! ## The guarantees -/

/-- The walk below the root ends, with every attached node visited once. -/
structure ListsAttached (document : Document) : Prop where
  /-- The walk ends with the list of all descendants. -/
  ends : (Walk.next document)^[(document.descendants root).length] (Walk.start document root) =
    ⟨[], document.descendants root⟩
  /-- Nothing is listed twice. -/
  nodup : (document.descendants root).Nodup
  /-- What is listed is what is attached. -/
  mem_iff : ∀ id, id ∈ document.descendants root ↔ document.IsAttached id

/-- Nodes are written in the order in which they are listed. -/
structure WritesInOrder (document : Document) : Prop where
  /-- The strokes make up the written document. -/
  join : String.join (document.strokes.map (·.text)) = document.write
  /-- They start in the order of the list, behind the root. -/
  sublist : document.started.Sublist (root :: document.descendants root)
  /-- No node is left out but those below a node that is written without its children. -/
  mem_iff : ∀ id, id ∈ document.started ↔ id = root ∨ document.IsShown id
  /-- No node is left out where only the root and elements have nodes below them. -/
  complete : document.ParentsHold → document.started = root :: document.descendants root

/-- What is out of reach of the root contributes nothing. -/
structure HidesDetached (document : Document) : Prop where
  /-- Detaching a node takes everything below it out of reach. -/
  detach : ∀ top id, top ≠ root → (id = top ∨ document.IsBelow top id) →
    ¬(document.detach top).IsInReach id
  /-- A node out of reach is not listed, and nothing is written for it. -/
  absent : ∀ id, ¬document.IsInReach id →
    id ∉ document.elements ∧ (∀ name, id ∉ document.findAll name) ∧
      ∀ stroke ∈ document.strokes, stroke.id ≠ id
  /-- An edit out of reach changes nothing that is listed or written. -/
  edit : ∀ edit : Edit, edit.place < document.size → ¬document.IsInReach edit.place →
    (document.edit edit).elements = document.elements ∧
      (∀ name, (document.edit edit).findAll name = document.findAll name) ∧
      (document.edit edit).write = document.write

namespace IsForest

theorem listsAttached (forest : document.IsForest) : document.ListsAttached :=
  ⟨forest.iterate_next_start root, forest.nodup_descendants root,
    fun _ => forest.mem_descendants_iff⟩

theorem writesInOrder (forest : document.IsForest) : document.WritesInOrder := by
  have all := forest.ids_root
  refine ⟨(document.tree root).join_strokes, ?_, fun _ => forest.mem_started_iff, ?_⟩
  · rw [← all]
    exact forest.started_sublist_ids root
  · intro holds
    rw [← all]
    exact forest.started_eq_ids holds root

theorem hidesDetached (forest : document.IsForest) : document.HidesDetached := by
  refine ⟨?_, ?_, ?_⟩
  · rintro top id notRoot inside (rfl | attached)
    · rcases inside with same | below
      · exact notRoot same.symm
      · exact absurd (forest.lt_of_isBelow below) (Nat.not_lt_zero top)
    · exact forest.not_isAttached_detach notRoot inside attached
  · intro id away
    have notElement : id ∉ document.elements := fun member =>
      away (.inr (forest.mem_elements_iff.mp member).1)
    refine ⟨notElement, fun name member => notElement (List.mem_filter.mp member).1, ?_⟩
    rintro stroke member rfl
    exact away (forest.mem_ids_iff.mp (forest.id_mem_ids member))
  · intro edit inside away
    have outputs := forest.outputs_congr (forest.edit edit inside) fun _ reached =>
      forest.same_edit edit inside away reached
    exact ⟨outputs.2.1, outputs.2.2, congrArg Tree.write outputs.1⟩

end IsForest

/-- However a document comes about, its links agree: the nodes below the root are listed by a
walk that ends, in the order in which they are written, all of them in a document as it was
read; every node is found next to its siblings; and a detached subtree contributes nothing. -/
theorem IsReachable.links_agree
    (reachable : document.IsReachable) :
    document.IsForest ∧ document.ListsAttached ∧ document.WritesInOrder ∧
      (∀ source, Document.read source = .ok document →
        document.started = root :: document.descendants root) ∧
      (∀ id parent, document.parent? id = some parent →
        ∃ position, document.HasPlace parent id position) ∧
      document.HidesDetached := by
  have forest := reachable.isForest
  have written := forest.writesInOrder
  exact ⟨forest, forest.listsAttached, written,
    fun _ read => written.complete (isRooted_of_read read).holds,
    fun _ _ below => forest.exists_hasPlace below, forest.hidesDetached⟩

/-- A paragraph whose first child was detached. -/
def shortened : Document :=
  ⟨#[⟨.root, none, [1]⟩, ⟨.element ⟨"p", [], false⟩, some root, [3]⟩,
    ⟨.element ⟨"b", [], false⟩, none, []⟩, ⟨.element ⟨"i", [], false⟩, some 1, []⟩]⟩

/-- The theorem at a document with a detached node. -/
theorem links_agree_shortened :
    shortened.IsReachable ∧ shortened.descendants root = [1, 3] ∧ shortened.IsForest ∧
      shortened.ListsAttached ∧ shortened.WritesInOrder ∧
      (∃ position, shortened.HasPlace 1 3 position) ∧ shortened.HidesDetached := by
  have read : Document.read "<p><b></b><i></i></p>" =
      .ok ⟨#[⟨.root, none, [1]⟩, ⟨.element ⟨"p", [], false⟩, some root, [2, 3]⟩,
        ⟨.element ⟨"b", [], false⟩, some 1, []⟩, ⟨.element ⟨"i", [], false⟩, some 1, []⟩]⟩ := by
    cbv
  have reachable : shortened.IsReachable := .edit (.read read) (.detach 2) (by decide)
  obtain ⟨forest, lists, writes, _, siblings, hides⟩ := IsReachable.links_agree reachable
  exact ⟨reachable, by cbv, forest, lists, writes, siblings 3 1 rfl, hides⟩

/-- A text with an element below it. -/
def belowText : Document :=
  ⟨#[⟨.root, none, [1]⟩, ⟨.text "x", some root, [2]⟩, ⟨.element ⟨"b", [], false⟩, some 1, []⟩]⟩

/-- What hangs below a text is listed, but it is not written. -/
theorem listed_not_written_belowText :
    belowText.IsReachable ∧ belowText.IsAttached 2 ∧ belowText.descendants root = [1, 2] ∧
      belowText.started = [root, 1] ∧ belowText.write = "x" := by
  have read : Document.read "x" = .ok ⟨#[⟨.root, none, [1]⟩, ⟨.text "x", some root, []⟩]⟩ := by
    cbv
  have reachable : belowText.IsReachable :=
    .edit (.read read) (.appendChild 1 (.element ⟨"b", [], false⟩)) (by decide)
  exact ⟨reachable, .tail (.single rfl) rfl, by cbv, by cbv, by cbv⟩

end Document

end Markup
end MailPress
