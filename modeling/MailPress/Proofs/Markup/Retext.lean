import MailPress.Proofs.Markup.Building
import MailPress.Proofs.Markup.DocumentOrder

/-!
# Replacing content by texts

The content of some nodes is replaced by one text each. What hung below these nodes is out of
reach then, and everything else stays as it is: the nodes that are left hang together as before.
-/

namespace MailPress
namespace Markup
namespace Document

variable {document : Document}

/-! ## One text -/

theorem parent?_foldl_detach
    (document : Document)
    (ids : List Nat)
    (other : Nat) :
    (ids.foldl detach document).parent? other =
      if other ∈ ids then none else document.parent? other := by
  induction ids generalizing document with
  | nil => rfl
  | cons id ids inductionHypothesis =>
      rw [List.foldl_cons, inductionHypothesis, parent?_detach]
      by_cases later : other ∈ ids
      · simp [later]
      · by_cases here : other = id <;> simp [later, here]

@[simp] theorem size_setText
    (document : Document)
    (top : Nat)
    (raw : String) :
    (document.setText top raw).size = document.size + 1 := by
  rw [setText, appendChild_eq_attach, size_attach, size_foldl_detach]

/-- Two nodes have no child in common. -/
theorem IsForest.filter_children
    (forest : document.IsForest)
    {id other : Nat}
    (different : id ≠ other) :
    (document.children id).filter (!(document.children other).contains ·) =
      document.children id := by
  refine List.filter_eq_self.mpr fun child listed => ?_
  simp only [Bool.not_eq_true', List.contains_eq_mem, decide_eq_false_iff_not]
  intro again
  exact different (Option.some.inj ((forest.mem_children_iff.mp listed).symm.trans
    (forest.mem_children_iff.mp again)))

section SetText

variable {top : Nat} (inside : top < document.size) (raw : String)

include inside

theorem content_setText (id : Nat) :
    (document.setText top raw).content id =
      if id = document.size then .text raw else document.content id := by
  have clearedInside : top < ((document.children top).foldl Document.detach document).size := by
    rwa [size_foldl_detach]
  rw [setText, appendChild_eq_attach, content_attach clearedInside, size_foldl_detach,
    content_foldl_detach]

theorem IsForest.parent?_setText
    (forest : document.IsForest)
    (id : Nat) :
    (document.setText top raw).parent? id =
      if id = document.size then some top
      else if document.parent? id = some top then none else document.parent? id := by
  have clearedInside : top < ((document.children top).foldl Document.detach document).size := by
    rwa [size_foldl_detach]
  rw [Document.setText, appendChild_eq_attach, parent?_attach clearedInside, size_foldl_detach,
    parent?_foldl_detach]
  simp only [forest.mem_children_iff]

theorem IsForest.children_setText
    (forest : document.IsForest)
    (id : Nat) :
    (document.setText top raw).children id =
      if id = document.size then []
      else if id = top then [document.size] else document.children id := by
  have clearedInside : top < ((document.children top).foldl Document.detach document).size := by
    rwa [size_foldl_detach]
  rw [Document.setText, appendChild_eq_attach, children_attach clearedInside, size_foldl_detach,
    forest.children_foldl_detach, forest.children_foldl_detach]
  by_cases same : id = top
  · have none_left : (document.children top).filter (!(document.children top).contains ·) = [] := by
      simp
    rw [if_pos same, if_pos same, none_left, List.nil_append]
  · rw [if_neg same, if_neg same, forest.filter_children same]

end SetText

/-! ## Several texts -/

/-- The document after the content of some nodes was replaced by one text each. -/
structure Retexts (document changed : Document) (tops : List Nat) : Prop where
  /-- The links agree. -/
  forest : changed.IsForest
  /-- No node is lost. -/
  size_le : document.size ≤ changed.size
  /-- Every node stands for what it stood for. -/
  content : ∀ id < document.size, changed.content id = document.content id
  /-- The new nodes are texts. -/
  fresh : ∀ id, document.size ≤ id → changed.isElement id = false
  /-- Nodes elsewhere have the children that they had. -/
  children : ∀ id < document.size, id ∉ tops → changed.children id = document.children id
  /-- What hung below one of the nodes was detached; nothing else was. -/
  parent? : ∀ id < document.size, changed.parent? id =
    (document.parent? id).filter fun parent => !tops.contains parent
  /-- Each of the nodes has one new text below it. -/
  text : ∀ top ∈ tops, ∃ new raw, document.size ≤ new ∧ changed.children top = [new] ∧
    changed.content new = .text raw ∧ changed.children new = []

namespace Retexts

variable {changed : Document} {tops : List Nat}

theorem refl (forest : document.IsForest) : document.Retexts document [] where
  forest := forest
  size_le := Nat.le_refl _
  content _ _ := rfl
  fresh id outside := by
    rw [isElement, element?, content_of_size_le outside, Option.isSome_none]
  children _ _ _ := rfl
  parent? id _ := by cases document.parent? id <;> rfl
  text := by simp

/-- Replacing the content of one more node. -/
theorem setText
    (retexts : document.Retexts changed tops)
    {top : Nat}
    (inside : top < document.size)
    (raw : String) :
    document.Retexts (changed.setText top raw) (tops ++ [top]) := by
  have topInside : top < changed.size := Nat.lt_of_lt_of_le inside retexts.size_le
  have old {id : Nat} (idInside : id < document.size) : id ≠ changed.size :=
    Nat.ne_of_lt (Nat.lt_of_lt_of_le idInside retexts.size_le)
  refine ⟨retexts.forest.setText topInside raw, ?_, ?_, ?_, ?_, ?_, ?_⟩
  · rw [size_setText]
    exact Nat.le_succ_of_le retexts.size_le
  · intro id idInside
    rw [content_setText topInside, if_neg (old idInside), retexts.content id idInside]
  · intro id outside
    rw [isElement, element?_eq, content_setText topInside]
    split
    · rfl
    · rw [← element?_eq]
      exact retexts.fresh id outside
  · intro id idInside notListed
    rw [List.mem_append, List.mem_singleton, not_or] at notListed
    rw [retexts.forest.children_setText topInside, if_neg (old idInside), if_neg notListed.2,
      retexts.children id idInside notListed.1]
  · intro id idInside
    rw [retexts.forest.parent?_setText topInside, if_neg (old idInside),
      retexts.parent? id idInside]
    cases document.parent? id with
    | none => rfl
    | some parent =>
        by_cases before : parent ∈ tops
        · simp [Option.filter_some, before]
        · by_cases here : parent = top <;> simp [Option.filter_some, before, here]
  · intro other member
    by_cases same : other = top
    · subst same
      refine ⟨changed.size, raw, retexts.size_le, ?_, ?_, ?_⟩
      · rw [retexts.forest.children_setText topInside, if_neg (old inside), if_pos rfl]
      · rw [content_setText topInside, if_pos rfl]
      · rw [retexts.forest.children_setText topInside, if_pos rfl]
    · have listed : other ∈ tops := by simpa [same] using member
      obtain ⟨new, text, outside, children, content, childless⟩ := retexts.text other listed
      have newInside := (retexts.forest.lt_of_mem_children (children ▸ List.mem_cons_self)).2
      have otherInside := retexts.forest.lt_of_mem_children (children ▸ List.mem_cons_self)
      have notNew : new ≠ changed.size := Nat.ne_of_lt newInside
      have notTop : new ≠ top := Nat.ne_of_gt (Nat.lt_of_lt_of_le inside outside)
      refine ⟨new, text, outside, ?_, ?_, ?_⟩
      · rw [retexts.forest.children_setText topInside,
          if_neg (Nat.ne_of_lt (Nat.lt_trans otherInside.1 otherInside.2)), if_neg same, children]
      · rw [content_setText topInside, if_neg notNew, content]
      · rw [retexts.forest.children_setText topInside, if_neg notNew, if_neg notTop, childless]

/-! ## What is left -/

section Left

variable (retexts : document.Retexts changed tops)

include retexts

theorem element?_eq
    {id : Nat}
    (inside : id < document.size) :
    changed.element? id = document.element? id := by
  rw [Document.element?_eq, retexts.content id inside, ← Document.element?_eq]

/-- A node that does not hang below one of the nodes has the parent that it had. -/
theorem parent?_eq
    {id : Nat}
    (inside : id < document.size)
    (apart : ∀ top ∈ tops, ¬document.IsBelow top id) :
    changed.parent? id = document.parent? id := by
  rw [retexts.parent? id inside]
  cases below : document.parent? id with
  | none => rfl
  | some parent =>
      have notListed : parent ∉ tops := fun member => apart parent member (.single below)
      simp [Option.filter_some, notListed]

/-- What hangs below a node stays as it is, if none of the nodes is part of it. -/
theorem tree_eq
    (forest : document.IsForest)
    {top : Nat}
    (inside : top < document.size)
    (apart : ∀ other ∈ tops, other ≠ top ∧ ¬document.IsBelow top other) :
    changed.tree top = document.tree top := by
  refine forest.tree_congr retexts.forest fun id member => ?_
  have idInside := forest.lt_size_of_mem_ids inside member
  refine ⟨retexts.content id idInside, retexts.children id idInside fun listed => ?_⟩
  rcases forest.mem_ids_iff.mp member with rfl | below
  · exact (apart id listed).1 rfl
  · exact (apart id listed).2 below

/-- So do the texts below it. -/
theorem rawText_eq
    (forest : document.IsForest)
    {top : Nat}
    (inside : top < document.size)
    (apart : ∀ other ∈ tops, other ≠ top ∧ ¬document.IsBelow top other) :
    changed.rawText top = document.rawText top := by
  have sameDescendants : changed.descendants top = document.descendants top := by
    rw [descendants, retexts.tree_eq forest inside apart, descendants]
  rw [rawText, sameDescendants, rawText]
  refine congrArg String.join (List.filterMap_congr fun id member => ?_)
  have below := forest.mem_ids_iff.mpr (.inr (forest.mem_descendants_iff.mp member))
  rw [text?, retexts.content id (forest.lt_size_of_mem_ids inside below), text?]

/-- A node of the document is attached exactly when it was and hangs below none of the nodes. -/
theorem isAttached_iff
    (forest : document.IsForest)
    {id : Nat}
    (inside : id < document.size) :
    changed.IsAttached id ↔
      document.IsAttached id ∧ ∀ top ∈ tops, ¬document.IsBelow top id := by
  have older {lower upper : Nat} (lowerInside : lower < document.size)
      (step : changed.parent? lower = some upper) :
      document.parent? lower = some upper ∧ upper ∉ tops ∧ upper < document.size := by
    rw [retexts.parent? lower lowerInside, Option.filter_eq_some_iff] at step
    obtain ⟨step, notListed⟩ := step
    exact ⟨step, by simpa using notListed, Nat.lt_trans (forest.parent_lt step) lowerInside⟩
  constructor
  · intro attached
    induction attached using Relation.TransGen.head_induction_on with
    | single step =>
        obtain ⟨step, notListed, _⟩ := older inside step
        refine ⟨.single step, fun top member below => ?_⟩
        rcases below.of_parent step with rfl | further
        · exact notListed member
        · exact absurd (forest.lt_of_isBelow further) (Nat.not_lt_zero top)
    | head step _ inductionHypothesis =>
        obtain ⟨step, notListed, upperInside⟩ := older inside step
        obtain ⟨attached, apart⟩ := inductionHypothesis upperInside
        refine ⟨.head step attached, fun top member below => ?_⟩
        rcases below.of_parent step with rfl | further
        · exact notListed member
        · exact apart top member further
  · rintro ⟨attached, apart⟩
    induction attached using Relation.TransGen.head_induction_on with
    | single step => exact .single ((retexts.parent?_eq inside apart).trans step)
    | head step _ inductionHypothesis =>
        refine .head ((retexts.parent?_eq inside apart).trans step) (inductionHypothesis ?_ ?_)
        · exact Nat.lt_trans (forest.parent_lt step) inside
        · exact fun top member below => apart top member (.head step below)

/-- The elements that are left are those that hang below none of the nodes. -/
theorem mem_elements_iff
    (forest : document.IsForest)
    {id : Nat} :
    id ∈ changed.elements ↔
      id ∈ document.elements ∧ ∀ top ∈ tops, ¬document.IsBelow top id := by
  rw [retexts.forest.mem_elements_iff, forest.mem_elements_iff]
  by_cases inside : id < document.size
  · rw [retexts.isAttached_iff forest inside, isElement, retexts.element?_eq inside, isElement,
      and_right_comm]
  · have outside := Nat.le_of_not_lt inside
    have notElement : document.isElement id = false := by
      rw [isElement, element?, content_of_size_le outside, Option.isSome_none]
    simp [retexts.fresh id outside, notElement]

end Left

end Retexts

/-- Below a node with one text below it, there is that text. -/
theorem IsForest.rawText_of_children_eq
    (forest : document.IsForest)
    {top new : Nat}
    {raw : String}
    (children : document.children top = [new])
    (content : document.content new = .text raw)
    (childless : document.children new = []) :
    document.rawText top = raw := by
  have below : document.descendants top = [new] := by
    rw [forest.descendants_eq, children, List.flatMap_singleton, forest.ids_tree, childless,
      List.flatMap_nil]
  simp [rawText, below, text?, content]

end Document
end Markup
end MailPress
