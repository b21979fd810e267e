import Mathlib.Data.List.Nodup
import Mathlib.Logic.Function.Iterate
import Mathlib.Logic.Relation
import MailPress.Proofs.Markup.Forest

/-!
# Document order

The nodes below a node are listed by a walk that keeps the nodes still to be visited on a
stack. On a forest the walk ends, and it visits exactly the nodes that hang below, each once
and a parent before its children. What does not hang below the root is no part of what a
document lists or writes.
-/

namespace MailPress
namespace Markup

namespace Document

variable {document : Document}

/-! ## Nodes that hang below a node -/

/-- The node hangs below the other one, directly or with nodes in between. -/
def IsBelow (document : Document) (top id : Nat) : Prop :=
  Relation.TransGen (fun child parent => document.parent? child = some parent) id top

/-- The node hangs below the root. -/
def IsAttached (document : Document) (id : Nat) : Prop :=
  document.IsBelow root id

/-- The node is the root or hangs below it. -/
def IsInReach (document : Document) (id : Nat) : Prop :=
  id = root ∨ document.IsAttached id

/-- What hangs below a node has a parent, which is that node or hangs below it. -/
theorem IsBelow.exists_parent
    {top id : Nat}
    (below : document.IsBelow top id) :
    ∃ parent, document.parent? id = some parent ∧
      (parent = top ∨ document.IsBelow top parent) := by
  obtain ⟨parent, step, rest⟩ := Relation.TransGen.head'_iff.mp below
  exact ⟨parent, step, (Relation.reflTransGen_iff_eq_or_transGen.mp rest).imp_left Eq.symm⟩

theorem IsBelow.of_parent
    {top id parent : Nat}
    (below : document.IsBelow top id)
    (step : document.parent? id = some parent) :
    parent = top ∨ document.IsBelow top parent := by
  obtain ⟨upper, upperStep, rest⟩ := below.exists_parent
  exact Option.some.inj (step.symm.trans upperStep) ▸ rest

namespace IsForest

/-- What hangs below a node is younger. -/
theorem lt_of_isBelow
    (forest : document.IsForest)
    {top id : Nat}
    (below : document.IsBelow top id) :
    top < id := by
  induction below with
  | single step => exact forest.parent_lt step
  | tail _ step younger => exact Nat.lt_trans (forest.parent_lt step) younger

/-- A tree holds its topmost node and what hangs below it. -/
theorem mem_ids_iff
    (forest : document.IsForest)
    {top id : Nat} :
    id ∈ (document.tree top).ids ↔ id = top ∨ document.IsBelow top id := by
  constructor
  · intro member
    induction top using forest.induction with
    | node top inductionHypothesis =>
        rw [forest.ids_tree] at member
        rcases List.mem_cons.mp member with same | inner
        · exact .inl same
        · obtain ⟨child, listed, inChild⟩ := List.mem_flatMap.mp inner
          have step := forest.mem_children_iff.mp listed
          rcases inductionHypothesis child listed inChild with rfl | below
          · exact .inr (.single step)
          · exact .inr (.tail below step)
  · rintro (rfl | below)
    · exact forest.self_mem_ids id
    · induction below using Relation.TransGen.head_induction_on with
      | single step =>
          exact forest.mem_ids_of_mem_children (forest.self_mem_ids top)
            (forest.mem_children_iff.mpr step)
      | head step _ member =>
          exact forest.mem_ids_of_mem_children member (forest.mem_children_iff.mpr step)

theorem mem_descendants_iff
    (forest : document.IsForest)
    {top id : Nat} :
    id ∈ document.descendants top ↔ document.IsBelow top id := by
  have whole : id ∈ (document.tree top).ids ↔ id = top ∨ document.IsBelow top id :=
    forest.mem_ids_iff
  rw [forest.ids_tree, ← forest.descendants_eq, List.mem_cons] at whole
  constructor
  · intro member
    rcases whole.mp (.inr member) with rfl | below
    · rw [forest.descendants_eq] at member
      obtain ⟨child, listed, inChild⟩ := List.mem_flatMap.mp member
      have younger := (forest.lt_of_mem_children listed).1
      exact absurd (forest.le_of_mem_ids inChild) (Nat.not_le.mpr younger)
    · exact below
  · intro below
    rcases whole.mpr (.inr below) with rfl | member
    · exact absurd (forest.lt_of_isBelow below) (Nat.lt_irrefl id)
    · exact member

/-- Two children of one node have no node below them in common. -/
theorem disjoint_ids
    (forest : document.IsForest)
    {parent first second : Nat}
    (firstListed : first ∈ document.children parent)
    (secondListed : second ∈ document.children parent)
    (different : first ≠ second) :
    List.Disjoint (document.tree first).ids (document.tree second).ids := by
  have above {child : Nat} (listed : child ∈ document.children parent)
      {id : Nat} (member : id ∈ (document.tree child).ids) :
      id = child ∨ ∃ upper, document.parent? id = some upper ∧
        upper ∈ (document.tree child).ids := by
    rcases forest.mem_ids_iff.mp member with same | below
    · exact .inl same
    · obtain ⟨upper, step, rest⟩ := below.exists_parent
      exact .inr ⟨upper, step, forest.mem_ids_iff.mpr rest⟩
  intro id
  induction id using Nat.strongRecOn with
  | ind id inductionHypothesis =>
      intro inFirst inSecond
      have firstStep := forest.mem_children_iff.mp firstListed
      have secondStep := forest.mem_children_iff.mp secondListed
      rcases above firstListed inFirst with rfl | ⟨upper, step, inUpper⟩
      · rcases above secondListed inSecond with same | ⟨upper, step, inUpper⟩
        · exact different same
        · obtain rfl := Option.some.inj (step.symm.trans firstStep)
          exact absurd (forest.le_of_mem_ids inUpper)
            (Nat.not_le.mpr (forest.lt_of_mem_children secondListed).1)
      · rcases above secondListed inSecond with rfl | ⟨other, otherStep, inOther⟩
        · obtain rfl := Option.some.inj (step.symm.trans secondStep)
          exact absurd (forest.le_of_mem_ids inUpper)
            (Nat.not_le.mpr (forest.lt_of_mem_children firstListed).1)
        · obtain rfl := Option.some.inj (step.symm.trans otherStep)
          exact inductionHypothesis upper (forest.parent_lt step) inUpper inOther

/-- No node stands twice in a tree. -/
theorem nodup_ids
    (forest : document.IsForest)
    (top : Nat) :
    (document.tree top).ids.Nodup := by
  induction top using forest.induction with
  | node top inductionHypothesis =>
      rw [forest.ids_tree]
      refine List.nodup_cons.mpr ⟨?_, List.nodup_flatMap.mpr ⟨inductionHypothesis, ?_⟩⟩
      · intro member
        obtain ⟨child, listed, inChild⟩ := List.mem_flatMap.mp member
        exact absurd (forest.le_of_mem_ids inChild)
          (Nat.not_le.mpr (forest.lt_of_mem_children listed).1)
      · exact (forest.nodup_children top).imp_of_mem fun first second different =>
          forest.disjoint_ids first second different

/-- A node is listed before what hangs below it. -/
theorem pairwise_ids
    (forest : document.IsForest)
    (top : Nat) :
    (document.tree top).ids.Pairwise fun earlier later => ¬document.IsBelow later earlier := by
  induction top using forest.induction with
  | node top inductionHypothesis =>
      rw [forest.ids_tree]
      refine List.pairwise_cons.mpr ⟨?_, List.pairwise_flatMap.mpr ⟨inductionHypothesis, ?_⟩⟩
      · intro later member below
        obtain ⟨child, listed, inChild⟩ := List.mem_flatMap.mp member
        have younger := Nat.lt_of_lt_of_le (forest.lt_of_mem_children listed).1
          (forest.le_of_mem_ids inChild)
        exact absurd (forest.lt_of_isBelow below) (Nat.not_lt.mpr (Nat.le_of_lt younger))
      · refine (forest.nodup_children top).imp_of_mem fun first second different => ?_
        intro earlier inFirst later inSecond below
        refine forest.disjoint_ids first second different inFirst ?_
        rcases forest.mem_ids_iff.mp inSecond with rfl | between
        · exact forest.mem_ids_iff.mpr (.inr below)
        · exact forest.mem_ids_iff.mpr (.inr (below.trans between))

theorem pairwise_descendants
    (forest : document.IsForest)
    (top : Nat) :
    (document.descendants top).Pairwise
      fun earlier later => ¬document.IsBelow later earlier := by
  have whole := forest.pairwise_ids top
  rw [forest.ids_tree, ← forest.descendants_eq] at whole
  exact (List.pairwise_cons.mp whole).2

theorem nodup_descendants
    (forest : document.IsForest)
    (top : Nat) :
    (document.descendants top).Nodup := by
  have whole := forest.nodup_ids top
  rw [forest.ids_tree, ← forest.descendants_eq] at whole
  exact (List.nodup_cons.mp whole).2

end IsForest

/-! ## The walk -/

/-- A walk through a document. -/
structure Walk where
  /-- The nodes to be visited, the next one first. -/
  pending : List Nat
  /-- The nodes that were visited, in order. -/
  visited : List Nat

/-- The walk below a node before its first round. -/
def Walk.start (document : Document) (top : Nat) : Walk :=
  ⟨document.children top, []⟩

/-- One round of a walk: the next node is visited, and its children are put in front. A walk
with nothing pending is at its end. -/
def Walk.next (document : Document) (walk : Walk) : Walk :=
  match walk.pending with
  | [] => walk
  | id :: pending => ⟨document.children id ++ pending, walk.visited ++ [id]⟩

/-- The walk goes through whole trees, one after another, if it goes through each of them. -/
theorem Walk.iterate_next_of_forall
    {trees : List Nat}
    (each : ∀ id ∈ trees, ∀ pending visited,
      (Walk.next document)^[(document.tree id).ids.length] ⟨id :: pending, visited⟩ =
        ⟨pending, visited ++ (document.tree id).ids⟩)
    (pending visited : List Nat) :
    (Walk.next document)^[(trees.flatMap fun id => (document.tree id).ids).length]
        ⟨trees ++ pending, visited⟩ =
      ⟨pending, visited ++ trees.flatMap fun id => (document.tree id).ids⟩ := by
  induction trees generalizing visited with
  | nil => simp
  | cons id trees inductionHypothesis =>
      obtain ⟨first, others⟩ := List.forall_mem_cons.mp each
      rw [List.flatMap_cons, List.length_append, Nat.add_comm, Function.iterate_add_apply,
        List.cons_append, first, inductionHypothesis others, List.append_assoc]

/-- The walk goes through the tree of a node in as many rounds as the tree has nodes. -/
theorem IsForest.iterate_next
    (forest : document.IsForest)
    (id : Nat)
    (pending visited : List Nat) :
    (Walk.next document)^[(document.tree id).ids.length] ⟨id :: pending, visited⟩ =
      ⟨pending, visited ++ (document.tree id).ids⟩ := by
  induction id using forest.induction generalizing pending visited with
  | node id inductionHypothesis =>
      have inner := Walk.iterate_next_of_forall inductionHypothesis pending (visited ++ [id])
      rw [forest.ids_tree, List.length_cons, Function.iterate_succ_apply, Walk.next, inner,
        List.append_assoc, List.singleton_append]

/-- The walk ends, and the descendants are what it has visited then. -/
theorem IsForest.iterate_next_start
    (forest : document.IsForest)
    (top : Nat) :
    (Walk.next document)^[(document.descendants top).length] (Walk.start document top) =
      ⟨[], document.descendants top⟩ := by
  have whole := Walk.iterate_next_of_forall
    (fun id (_ : id ∈ document.children top) => forest.iterate_next id) [] []
  rw [List.append_nil, List.nil_append, ← forest.descendants_eq] at whole
  exact whole

/-! ## Nodes out of reach -/

/-- What hung below a detached node, or is that node, does not hang below the root. -/
theorem IsForest.not_isAttached_detach
    (forest : document.IsForest)
    {top id : Nat}
    (notRoot : top ≠ root)
    (inside : id = top ∨ document.IsBelow top id) :
    ¬(document.detach top).IsAttached id := by
  -- Going up from a node of the subtree leads to its top, and from there no further.
  have climb {lower upper : Nat}
      (step : (document.detach top).parent? lower = some upper)
      (here : lower = top ∨ document.IsBelow top lower) :
      upper = top ∨ document.IsBelow top upper := by
    rw [parent?_detach] at step
    split at step
    · cases step
    · next different => exact (here.resolve_left different).of_parent step
  have reached {upper : Nat} (attached : (document.detach top).IsBelow upper id) :
      upper = top ∨ document.IsBelow top upper := by
    induction attached with
    | single step => exact climb step inside
    | tail _ step here => exact climb step here
  intro attached
  rcases reached attached with same | below
  · exact notRoot same.symm
  · exact absurd (forest.lt_of_isBelow below) (Nat.not_lt_zero top)

theorem IsForest.mem_elements_iff
    (forest : document.IsForest)
    {id : Nat} :
    id ∈ document.elements ↔ document.IsAttached id ∧ document.isElement id = true := by
  rw [elements, List.mem_filter, forest.mem_descendants_iff, IsAttached]

/-- What a document lists and writes depends on the root and the nodes that hang below it. -/
theorem IsForest.outputs_congr
    (forest : document.IsForest)
    {changed : Document}
    (changedForest : changed.IsForest)
    (same : ∀ id, document.IsInReach id →
      changed.content id = document.content id ∧ changed.children id = document.children id) :
    changed.tree root = document.tree root ∧ changed.elements = document.elements ∧
      ∀ name, changed.findAll name = document.findAll name := by
  have sameTree : changed.tree root = document.tree root :=
    forest.tree_congr changedForest fun id member => same id (forest.mem_ids_iff.mp member)
  have sameDescendants : changed.descendants root = document.descendants root := by
    rw [descendants, sameTree, descendants]
  have sameElement (id : Nat) (attached : document.IsAttached id) :
      changed.element? id = document.element? id := by
    rw [element?, (same id (.inr attached)).1, element?]
  have sameElements : changed.elements = document.elements := by
    rw [elements, elements, sameDescendants]
    refine List.filter_congr fun id member => ?_
    rw [isElement, sameElement id (forest.mem_descendants_iff.mp member), isElement]
  refine ⟨sameTree, sameElements, fun name => ?_⟩
  rw [findAll, findAll, sameElements]
  refine List.filter_congr fun id member => ?_
  rw [isNamed, sameElement id (forest.mem_elements_iff.mp member).1, isNamed]

end Document

end Markup
end MailPress
