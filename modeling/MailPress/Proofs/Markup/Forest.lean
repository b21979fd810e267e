import Mathlib.Data.List.Basic
import MailPress.Markup.Writer
import MailPress.Proofs.Markup.Document

/-!
# Stores are forests

The parent and the children that nodes know of one another always agree, and children are
younger than their parent. Creating, moving and changing nodes keeps it so.
-/

namespace MailPress
namespace Markup
namespace Document

/-! ## Nodes of a changed store -/

theorem lt_size_of_parent?
    {document : Document}
    {child parent : Nat}
    (below : document.parent? child = some parent) :
    child < document.size := by
  apply Nat.lt_of_not_le
  intro outside
  rw [parent?, node_of_size_le outside] at below
  cases below

@[simp] theorem size_allocate
    (document : Document)
    (parent : Nat)
    (content : Content) :
    (document.allocate parent content).size = document.size + 1 := by
  simp [allocate, size]

theorem node_allocate
    (document : Document)
    (parent : Nat)
    (content : Content)
    (id : Nat) :
    (document.allocate parent content).node id =
      if id = document.size then ⟨content, some parent, []⟩ else document.node id := by
  by_cases new : id = document.size
  · subst new
    simp [node, allocate, size]
  · by_cases inside : id < document.nodes.size
    · have insideGrown : id < document.nodes.size + 1 := Nat.lt_succ_of_lt inside
      simp [node, allocate, new, Array.getD, inside, insideGrown, Array.getElem_push]
    · have outside : document.size < id := Nat.lt_of_le_of_ne (Nat.not_lt.mp inside) (Ne.symm new)
      rw [if_neg new, node_of_size_le (Nat.le_of_lt outside), node_of_size_le]
      rw [size_allocate]
      exact outside

/-- Create a node below `parent` and list it among the children there in some place. -/
def attach
    (document : Document)
    (parent : Nat)
    (content : Content)
    (place : List Nat → List Nat) :
    Document :=
  (document.allocate parent content).modify parent fun node =>
    { node with children := place node.children }

theorem appendChild_eq_attach
    (document : Document)
    (parent : Nat)
    (content : Content) :
    document.appendChild parent content =
      document.attach parent content (· ++ [document.size]) := rfl

theorem insertChild_eq_attach
    (document : Document)
    (parent index : Nat)
    (content : Content) :
    document.insertChild parent index content =
      document.attach parent content
        fun children => children.take index ++ document.size :: children.drop index := rfl

@[simp] theorem size_attach
    (document : Document)
    (parent : Nat)
    (content : Content)
    (place : List Nat → List Nat) :
    (document.attach parent content place).size = document.size + 1 := by
  simp [attach]

theorem node_attach
    {document : Document}
    {parent : Nat}
    (inside : parent < document.size)
    (content : Content)
    (place : List Nat → List Nat)
    (id : Nat) :
    (document.attach parent content place).node id =
      if id = document.size then ⟨content, some parent, []⟩
      else if id = parent then
        { document.node parent with children := place (document.children parent) }
      else document.node id := by
  rw [attach, node_modify, node_allocate]
  by_cases new : id = document.size
  · have different : id ≠ parent := Nat.ne_of_gt (new ▸ inside)
    simp [new, Nat.ne_of_gt inside]
  · by_cases same : id = parent
    · subst same
      simp [new, Nat.lt_succ_of_lt inside, children]
    · simp [new, same]

theorem parent?_attach
    {document : Document}
    {parent : Nat}
    (inside : parent < document.size)
    (content : Content)
    (place : List Nat → List Nat)
    (id : Nat) :
    (document.attach parent content place).parent? id =
      if id = document.size then some parent else document.parent? id := by
  rw [parent?, node_attach inside]
  split
  · rfl
  · split
    · next same => rw [same, parent?]
    · rfl

theorem children_attach
    {document : Document}
    {parent : Nat}
    (inside : parent < document.size)
    (content : Content)
    (place : List Nat → List Nat)
    (id : Nat) :
    (document.attach parent content place).children id =
      if id = document.size then []
      else if id = parent then place (document.children parent)
      else document.children id := by
  rw [children, node_attach inside]
  split
  · rfl
  · split <;> rfl

/-- What nodes know of their children and of their parents agrees. -/
structure IsForest (document : Document) : Prop where
  /-- There is a root. -/
  nonempty : 0 < document.size
  /-- The root has no parent. -/
  parent?_root : document.parent? root = none
  /-- Parents are older than their children. -/
  parent_lt : ∀ {child parent}, document.parent? child = some parent → parent < child
  /-- A node is listed as a child exactly where its parent is. -/
  mem_children_iff : ∀ {child parent},
    child ∈ document.children parent ↔ document.parent? child = some parent
  /-- No child is listed twice. -/
  nodup_children : ∀ parent, (document.children parent).Nodup

namespace IsForest

variable {document : Document}

theorem empty : IsForest empty := by
  have node_eq (id : Nat) : Document.empty.node id = ⟨.root, none, []⟩ := by
    by_cases first : id = 0
    · subst first
      rfl
    · exact node_of_size_le (Nat.one_le_iff_ne_zero.mpr first)
  refine ⟨Nat.one_pos, rfl, ?_, ?_, ?_⟩
  all_goals simp [parent?, children, node_eq]

/-- A child is a node of the store, younger than its parent. -/
theorem lt_of_mem_children
    (forest : document.IsForest)
    {child parent : Nat}
    (member : child ∈ document.children parent) :
    parent < child ∧ child < document.size := by
  have below := forest.mem_children_iff.mp member
  exact ⟨forest.parent_lt below, lt_size_of_parent? below⟩

theorem size_not_mem_children
    (forest : document.IsForest)
    (parent : Nat) :
    document.size ∉ document.children parent := by
  intro member
  exact Nat.lt_irrefl _ (forest.lt_of_mem_children member).2

theorem attach
    (forest : document.IsForest)
    {parent : Nat}
    (inside : parent < document.size)
    (content : Content)
    {place : List Nat → List Nat}
    (places : ∀ children, (place children).Perm (document.size :: children)) :
    (document.attach parent content place).IsForest := by
  have root_ne_size : root ≠ document.size := Nat.ne_of_lt forest.nonempty
  constructor
  · simp
  · rw [parent?_attach inside, if_neg root_ne_size, forest.parent?_root]
  · intro child other below
    rw [parent?_attach inside] at below
    split at below
    · next new =>
        cases below
        rwa [new]
    · exact forest.parent_lt below
  · intro child other
    rw [parent?_attach inside, children_attach inside]
    by_cases childNew : child = document.size
    · subst childNew
      by_cases here : other = parent
      · simp [here, Nat.ne_of_lt inside, (places _).mem_iff]
      · have notListed := forest.size_not_mem_children other
        simp [here, notListed, Ne.symm here]
    · by_cases otherNew : other = document.size
      · have notBelow : document.parent? child ≠ some other := by
          intro below
          have older := forest.parent_lt below
          have inStore := lt_size_of_parent? below
          omega
        simp [otherNew] at notBelow ⊢
        simp [childNew, notBelow]
      · by_cases here : other = parent
        · rw [if_neg otherNew, if_pos here, if_neg childNew, (places _).mem_iff, here,
            List.mem_cons, forest.mem_children_iff]
          simp [childNew]
        · simp [childNew, otherNew, here, forest.mem_children_iff]
  · intro other
    rw [children_attach inside]
    split
    · simp
    · split
      · exact (places _).nodup_iff.mpr
          (List.nodup_cons.mpr ⟨forest.size_not_mem_children _, forest.nodup_children _⟩)
      · exact forest.nodup_children other

theorem appendChild
    (forest : document.IsForest)
    {parent : Nat}
    (inside : parent < document.size)
    (content : Content) :
    (document.appendChild parent content).IsForest := by
  rw [appendChild_eq_attach]
  apply forest.attach inside content
  intro children
  exact List.perm_append_singleton document.size children

theorem insertChild
    (forest : document.IsForest)
    {parent : Nat}
    (inside : parent < document.size)
    (index : Nat)
    (content : Content) :
    (document.insertChild parent index content).IsForest := by
  rw [insertChild_eq_attach]
  apply forest.attach inside content
  intro children
  refine List.perm_middle.trans ?_
  rw [List.take_append_drop]

/-- Whether a store is a forest depends on its links alone. -/
theorem of_links
    (forest : document.IsForest)
    {changed : Document}
    (sameSize : changed.size = document.size)
    (sameParent : ∀ id, changed.parent? id = document.parent? id)
    (sameChildren : ∀ id, changed.children id = document.children id) :
    changed.IsForest := by
  refine ⟨?_, ?_, ?_, ?_, ?_⟩
  · rw [sameSize]
    exact forest.nonempty
  · rw [sameParent, forest.parent?_root]
  · intro child parent below
    exact forest.parent_lt (sameParent child ▸ below)
  · intro child parent
    rw [sameParent, sameChildren, forest.mem_children_iff]
  · intro parent
    rw [sameChildren]
    exact forest.nodup_children parent

end IsForest

/-! ## Changed contents -/

@[simp] theorem size_setContent
    (document : Document)
    (id : Nat)
    (content : Content) :
    (document.setContent id content).size = document.size :=
  size_modify ..

theorem node_setContent
    (document : Document)
    (id : Nat)
    (content : Content)
    (other : Nat) :
    (document.setContent id content).node other =
      if other = id ∧ other < document.size then { document.node other with content }
      else document.node other :=
  node_modify ..

@[simp] theorem parent?_setContent
    (document : Document)
    (id : Nat)
    (content : Content)
    (other : Nat) :
    (document.setContent id content).parent? other = document.parent? other := by
  rw [parent?, node_setContent]
  split <;> rfl

@[simp] theorem children_setContent
    (document : Document)
    (id : Nat)
    (content : Content)
    (other : Nat) :
    (document.setContent id content).children other = document.children other := by
  rw [children, node_setContent]
  split <;> rfl

@[simp] theorem parent?_modifyElement
    (document : Document)
    (id : Nat)
    (change : Element → Element)
    (other : Nat) :
    (document.modifyElement id change).parent? other = document.parent? other := by
  unfold modifyElement
  split
  · exact parent?_setContent ..
  · rfl

@[simp] theorem children_modifyElement
    (document : Document)
    (id : Nat)
    (change : Element → Element)
    (other : Nat) :
    (document.modifyElement id change).children other = document.children other := by
  unfold modifyElement
  split
  · exact children_setContent ..
  · rfl

namespace IsForest

variable {document : Document}

theorem setContent
    (forest : document.IsForest)
    (id : Nat)
    (content : Content) :
    (document.setContent id content).IsForest := by
  apply forest.of_links <;> simp

theorem modifyElement
    (forest : document.IsForest)
    (id : Nat)
    (change : Element → Element) :
    (document.modifyElement id change).IsForest := by
  apply forest.of_links <;> simp

theorem appendText
    (forest : document.IsForest)
    {parent : Nat}
    (inside : parent < document.size)
    (raw : String) :
    (document.appendText parent raw).IsForest := by
  unfold Document.appendText
  split
  · split
    · exact forest.setContent ..
    · exact forest.appendChild inside _
  · exact forest.appendChild inside _

end IsForest

/-! ## Detached nodes -/

@[simp] theorem size_detach
    (document : Document)
    (id : Nat) :
    (document.detach id).size = document.size := by
  unfold detach
  split
  · rw [size_modify, size_modify]
  · rfl

@[simp] theorem content_detach
    (document : Document)
    (id other : Nat) :
    (document.detach id).content other = document.content other := by
  unfold detach content
  split
  · rw [node_modify, node_modify]
    split <;> split <;> rfl
  · rfl

theorem parent?_detach
    (document : Document)
    (id other : Nat) :
    (document.detach id).parent? other =
      if other = id then none else document.parent? other := by
  unfold detach
  split
  · next parent below =>
      have inside := lt_size_of_parent? below
      rw [parent?, node_modify, node_modify]
      by_cases same : other = id
      · subst same
        split <;> simp [inside]
      · split <;> simp [same, parent?]
  · next missing =>
      split
      · next same => rw [same, missing]
      · rfl

theorem IsForest.children_detach
    {document : Document}
    (forest : document.IsForest)
    (id other : Nat) :
    (document.detach id).children other = (document.children other).filter (· != id) := by
  have kept {parent : Nat} (notListed : document.parent? id ≠ some parent) :
      (document.children parent).filter (· != id) = document.children parent := by
    refine List.filter_eq_self.mpr ?_
    intro child member
    have different : child ≠ id := by
      rintro rfl
      exact notListed (forest.mem_children_iff.mp member)
    simpa using different
  unfold detach
  split
  · next parent below =>
      have inside := Nat.lt_trans (forest.parent_lt below) (lt_size_of_parent? below)
      have older := Nat.ne_of_lt (forest.parent_lt below)
      rw [children, node_modify, node_modify]
      by_cases here : other = parent
      · subst here
        simp [inside, older, children]
      · have unlisted : document.parent? id ≠ some other := by
          rw [below]
          simpa using Ne.symm here
        rw [kept unlisted]
        split
        · next moved => exact absurd moved.1 here
        · split <;> rfl
  · next missing =>
      rw [kept]
      rw [missing]
      exact (Option.some_ne_none other).symm

@[simp] theorem size_foldl_detach
    (document : Document)
    (ids : List Nat) :
    (ids.foldl Document.detach document).size = document.size := by
  induction ids generalizing document with
  | nil => rfl
  | cons id ids inductionHypothesis => rw [List.foldl_cons, inductionHypothesis, size_detach]

@[simp] theorem content_foldl_detach
    (document : Document)
    (ids : List Nat)
    (other : Nat) :
    (ids.foldl Document.detach document).content other = document.content other := by
  induction ids generalizing document with
  | nil => rfl
  | cons id ids inductionHypothesis => rw [List.foldl_cons, inductionHypothesis, content_detach]

/-- Detaching nodes gives no node another parent. -/
theorem parent?_of_foldl_detach
    {document : Document}
    {ids : List Nat}
    {child parent : Nat}
    (below : (ids.foldl Document.detach document).parent? child = some parent) :
    document.parent? child = some parent := by
  induction ids generalizing document with
  | nil => exact below
  | cons id ids inductionHypothesis =>
      have kept := inductionHypothesis below
      rw [parent?_detach] at kept
      split at kept
      · cases kept
      · exact kept

namespace IsForest

variable {document : Document}

theorem detach
    (forest : document.IsForest)
    (id : Nat) :
    (document.detach id).IsForest := by
  refine ⟨?_, ?_, ?_, ?_, ?_⟩
  · rw [size_detach]
    exact forest.nonempty
  · rw [parent?_detach, forest.parent?_root, ite_self]
  · intro child parent below
    rw [parent?_detach] at below
    split at below
    · cases below
    · exact forest.parent_lt below
  · intro child parent
    rw [parent?_detach, children_detach forest, List.mem_filter, forest.mem_children_iff]
    by_cases gone : child = id <;> simp [gone]
  · intro parent
    rw [children_detach forest]
    exact (forest.nodup_children parent).filter _

theorem foldl_detach
    (forest : document.IsForest)
    (ids : List Nat) :
    (ids.foldl Document.detach document).IsForest := by
  induction ids generalizing document with
  | nil => exact forest
  | cons id ids inductionHypothesis => exact inductionHypothesis (forest.detach id)

theorem setText
    (forest : document.IsForest)
    {id : Nat}
    (inside : id < document.size)
    (raw : String) :
    (document.setText id raw).IsForest := by
  refine (forest.foldl_detach _).appendChild ?_ _
  rwa [size_foldl_detach]

/-- Detached nodes are children of no node, and the others stay in order. -/
theorem children_foldl_detach
    (forest : document.IsForest)
    (ids : List Nat)
    (other : Nat) :
    (ids.foldl Document.detach document).children other =
      (document.children other).filter (!ids.contains ·) := by
  induction ids generalizing document with
  | nil => exact (List.filter_eq_self.mpr fun _ _ => rfl).symm
  | cons id ids inductionHypothesis =>
      rw [List.foldl_cons, inductionHypothesis (forest.detach id), forest.children_detach,
        List.filter_filter]
      apply List.filter_congr
      intro child _
      rw [List.contains_cons, Bool.not_or, Bool.and_comm]
      rfl

end IsForest

end Document

/-!
## The trees of a forest

In a forest every link is followed, so a tree is a node with the trees of its children.
What a tree holds and how it is written depend on the nodes that it is made of, and the
text of every tree is part of the text of the tree that it hangs in.
-/

namespace Tree

theorem idsOfAll_eq_flatMap (trees : List Tree) :
    idsOfAll trees = trees.flatMap ids := by
  induction trees with
  | nil => rfl
  | cons tree trees inductionHypothesis => simp [idsOfAll, inductionHypothesis]

end Tree

theorem writeTrees_append (first second : List Tree) :
    writeTrees (first ++ second) = writeTrees first ++ writeTrees second := by
  induction first with
  | nil => simp [writeTrees]
  | cons tree first inductionHypothesis =>
      simp [writeTrees, inductionHypothesis, String.append_assoc]

/-- Whether what a node stands for can have nodes below it. -/
def Content.holdsChildren : Content → Bool
  | .root => true
  | .element _ => true
  | _ => false

/-- What is written around a child does not depend on it. -/
theorem exists_write_node_append
    {content : Content}
    (holds : content.holdsChildren = true)
    (id : Nat)
    (front back : List Tree) :
    ∃ before after, ∀ tree, (Tree.node id content (front ++ tree :: back)).write =
      before ++ tree.write ++ after := by
  have inner (tree : Tree) : writeTrees (front ++ tree :: back) =
      writeTrees front ++ tree.write ++ writeTrees back := by
    rw [writeTrees_append, writeTrees, String.append_assoc]
  cases content with
  | root => exact ⟨_, _, inner⟩
  | element element =>
      refine ⟨"<" ++ element.name ++ writeAttributes element.attributes ++ ">" ++
        writeTrees front, writeTrees back ++ "</" ++ element.name ++ ">", fun tree => ?_⟩
      have notEmpty : (front ++ tree :: back).isEmpty = false := by simp
      simp only [Tree.write, notEmpty, Bool.false_and, Bool.false_eq_true, if_false, inner,
        String.append_assoc]
  | text | comment | verbatim => cases holds

/-- The text of a child is part of the text of its parent. -/
theorem exists_write_node_eq
    {content : Content}
    (holds : content.holdsChildren = true)
    (id : Nat)
    {tree : Tree}
    {children : List Tree}
    (member : tree ∈ children) :
    ∃ before after, (Tree.node id content children).write = before ++ tree.write ++ after := by
  obtain ⟨front, back, rfl⟩ := List.append_of_mem member
  obtain ⟨before, after, written⟩ := exists_write_node_append holds id front back
  exact ⟨before, after, written tree⟩

namespace Document

variable {document : Document}

/-- Where the links lead to younger nodes, they are followed. -/
theorem tree_eq_of_lt
    {id : Nat}
    (younger : ∀ child ∈ document.children id, id < child ∧ child < document.size) :
    document.tree id =
      .node id (document.content id) ((document.children id).map document.tree) := by
  rw [tree]
  congr 1
  apply List.filterMap_eq_map_iff_forall_eq_some.mpr
  intro child member
  rw [dif_pos (younger child member)]

/-- The tree of a node is the node with the trees of its children. -/
theorem IsForest.tree_eq
    (forest : document.IsForest)
    (id : Nat) :
    document.tree id =
      .node id (document.content id) ((document.children id).map document.tree) :=
  tree_eq_of_lt fun _ => forest.lt_of_mem_children

/-- Induction from the children of a node to the node. -/
theorem IsForest.induction
    (forest : document.IsForest)
    {motive : Nat → Prop}
    (node : ∀ id, (∀ child ∈ document.children id, motive child) → motive id)
    (id : Nat) :
    motive id := by
  induction height : document.size - id using Nat.strongRecOn generalizing id with
  | ind _ inductionHypothesis =>
      apply node
      intro child member
      have younger := forest.lt_of_mem_children member
      exact inductionHypothesis (document.size - child) (by omega) child rfl

theorem IsForest.ids_tree
    (forest : document.IsForest)
    (id : Nat) :
    (document.tree id).ids =
      id :: (document.children id).flatMap fun child => (document.tree child).ids := by
  rw [forest.tree_eq, Tree.ids, Tree.idsOfAll_eq_flatMap, List.flatMap_map]

theorem IsForest.descendants_eq
    (forest : document.IsForest)
    (id : Nat) :
    document.descendants id =
      (document.children id).flatMap fun child => (document.tree child).ids := by
  rw [descendants, forest.tree_eq, Tree.children, Tree.idsOfAll_eq_flatMap, List.flatMap_map]

theorem IsForest.self_mem_ids
    (forest : document.IsForest)
    (id : Nat) :
    id ∈ (document.tree id).ids := by
  rw [forest.ids_tree]
  exact List.mem_cons_self

/-- With a node, its children belong to a tree. -/
theorem IsForest.mem_ids_of_mem_children
    (forest : document.IsForest)
    {top parent child : Nat}
    (member : parent ∈ (document.tree top).ids)
    (below : child ∈ document.children parent) :
    child ∈ (document.tree top).ids := by
  induction top using forest.induction with
  | node top inductionHypothesis =>
      rw [forest.ids_tree] at member ⊢
      apply List.mem_cons_of_mem
      rcases List.mem_cons.mp member with rfl | inner
      · exact List.mem_flatMap.mpr ⟨child, below, forest.self_mem_ids child⟩
      · obtain ⟨other, listed, inOther⟩ := List.mem_flatMap.mp inner
        exact List.mem_flatMap.mpr ⟨other, listed, inductionHypothesis other listed inOther⟩

/-- The nodes of a tree are at least as young as its topmost node. -/
theorem IsForest.le_of_mem_ids
    (forest : document.IsForest)
    {top id : Nat}
    (member : id ∈ (document.tree top).ids) :
    top ≤ id := by
  induction top using forest.induction with
  | node top inductionHypothesis =>
      rw [forest.ids_tree] at member
      rcases List.mem_cons.mp member with rfl | inner
      · exact Nat.le_refl _
      · obtain ⟨child, listed, inChild⟩ := List.mem_flatMap.mp inner
        exact Nat.le_trans (Nat.le_of_lt (forest.lt_of_mem_children listed).1)
          (inductionHypothesis child listed inChild)

theorem IsForest.lt_size_of_mem_ids
    (forest : document.IsForest)
    {top id : Nat}
    (inside : top < document.size)
    (member : id ∈ (document.tree top).ids) :
    id < document.size := by
  induction top using forest.induction with
  | node top inductionHypothesis =>
      rw [forest.ids_tree] at member
      rcases List.mem_cons.mp member with rfl | inner
      · exact inside
      · obtain ⟨child, listed, inChild⟩ := List.mem_flatMap.mp inner
        exact inductionHypothesis child listed (forest.lt_of_mem_children listed).2 inChild

/-- A tree depends on the nodes that it is made of. -/
theorem IsForest.tree_congr
    (forest : document.IsForest)
    {changed : Document}
    (changedForest : changed.IsForest)
    {top : Nat}
    (same : ∀ id ∈ (document.tree top).ids, changed.content id = document.content id ∧
      changed.children id = document.children id) :
    changed.tree top = document.tree top := by
  induction top using forest.induction with
  | node top inductionHypothesis =>
      obtain ⟨sameContent, sameChildren⟩ := same top (forest.self_mem_ids top)
      rw [changedForest.tree_eq, forest.tree_eq, sameContent, sameChildren]
      congr 1
      apply List.map_congr_left
      intro child listed
      apply inductionHypothesis child listed
      intro id member
      apply same
      rw [forest.ids_tree]
      exact List.mem_cons_of_mem _ (List.mem_flatMap.mpr ⟨child, listed, member⟩)

/-- Every node but the root hangs below some other one. -/
def AllAttached (document : Document) : Prop :=
  ∀ id < document.size, id ≠ root → ∃ parent, document.parent? id = some parent

/-- What has nodes below it is the root or an element. -/
def ParentsHold (document : Document) : Prop :=
  ∀ {child parent}, document.parent? child = some parent →
    (document.content parent).holdsChildren = true

theorem IsForest.mem_ids_root
    (forest : document.IsForest)
    (attached : document.AllAttached)
    {id : Nat}
    (inside : id < document.size) :
    id ∈ (document.tree root).ids := by
  induction id using Nat.strongRecOn with
  | ind id inductionHypothesis =>
      by_cases first : id = root
      · subst first
        exact forest.self_mem_ids root
      · obtain ⟨parent, below⟩ := attached id inside first
        have older := forest.parent_lt below
        exact forest.mem_ids_of_mem_children
          (inductionHypothesis parent older (Nat.lt_trans older inside))
          (forest.mem_children_iff.mpr below)

/-- The text of every tree is part of the text of the tree that it hangs in. -/
theorem IsForest.exists_write_eq
    (forest : document.IsForest)
    (holds : document.ParentsHold)
    {top id : Nat}
    (member : id ∈ (document.tree top).ids) :
    ∃ before after,
      (document.tree top).write = before ++ (document.tree id).write ++ after := by
  induction top using forest.induction with
  | node top inductionHypothesis =>
      rw [forest.ids_tree] at member
      rcases List.mem_cons.mp member with rfl | inner
      · exact ⟨"", "", by simp⟩
      · obtain ⟨child, listed, inChild⟩ := List.mem_flatMap.mp inner
        obtain ⟨before, after, written⟩ := inductionHypothesis child listed inChild
        have topHolds := holds (forest.mem_children_iff.mp listed)
        obtain ⟨front, back, whole⟩ := exists_write_node_eq topHolds top
          (List.mem_map_of_mem (f := document.tree) listed)
        refine ⟨front ++ before, after ++ back, ?_⟩
        rw [forest.tree_eq top, whole, written]
        simp only [String.append_assoc]

end Document
end Markup
end MailPress
