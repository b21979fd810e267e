import MailPress.Markup.Document
import MailPress.Markup.Element

/-!
# Changing elements

Setting an attribute changes the first one of its name, or adds it at the end.
All other attributes keep their values and their order.

Changing the element of one node leaves every other node as it is, and leaves
parents and children alone everywhere. Changes of different nodes can therefore
be made in either order.
-/

namespace MailPress
namespace Markup

/-! ## Setting attributes -/

/-- The attributes other than the first one of a name. -/
def otherAttributes (name : String) (attributes : List Attribute) : List Attribute :=
  attributes.eraseP (·.name == name)

theorem otherAttributes_setAttribute
    (name value : String)
    (attributes : List Attribute) :
    otherAttributes name (setAttribute name value attributes) =
      otherAttributes name attributes := by
  induction attributes with
  | nil => simp [setAttribute, otherAttributes]
  | cons first rest inductionHypothesis =>
      unfold otherAttributes at *
      by_cases same : first.name = name
      · simp [setAttribute, same]
      · simp [setAttribute, same, inductionHypothesis]

/-- An attribute that is missing is added at the end. -/
theorem setAttribute_of_missing
    {name : String}
    {attributes : List Attribute}
    (missing : attributes.any (·.name == name) = false)
    (value : String) :
    setAttribute name value attributes = attributes ++ [⟨name, value⟩] := by
  induction attributes with
  | nil => rfl
  | cons first rest inductionHypothesis =>
      obtain ⟨different, restMissing⟩ : first.name ≠ name ∧
          rest.any (·.name == name) = false := by simpa using missing
      simp [setAttribute, different, inductionHypothesis restMissing]

theorem otherAttributes_append_of_ne
    {name : String}
    {added : Attribute}
    (different : added.name ≠ name)
    (attributes : List Attribute) :
    otherAttributes name (attributes ++ [added]) = otherAttributes name attributes ++ [added] := by
  induction attributes with
  | nil => simp [otherAttributes, different]
  | cons first rest inductionHypothesis =>
      unfold otherAttributes at *
      by_cases same : first.name = name
      · simp [same]
      · simp [same, inductionHypothesis]

/-- Leaving out an attribute of one name leaves the names of the others. -/
theorem any_otherAttributes
    {name other : String}
    (different : other ≠ name)
    (attributes : List Attribute) :
    (otherAttributes name attributes).any (·.name == other) =
      attributes.any (·.name == other) := by
  induction attributes with
  | nil => rfl
  | cons first rest inductionHypothesis =>
      unfold otherAttributes at *
      by_cases same : first.name = name
      · simp [same, Ne.symm different]
      · simp [same, inductionHypothesis]

namespace Element

@[simp] theorem attr?_setAttr_self
    (element : Element)
    (name value : String) :
    (element.setAttr name value).attr? name = some value := by
  unfold setAttr attr?
  dsimp only
  induction element.attributes with
  | nil => simp [setAttribute]
  | cons first rest inductionHypothesis =>
      by_cases same : first.name = name
      · simp [setAttribute, same]
      · simpa [setAttribute, same] using inductionHypothesis

/-- Setting an attribute leaves the value of every other one. -/
theorem attr?_setAttr_of_ne
    (element : Element)
    {name other : String}
    (different : other ≠ name)
    (value : String) :
    (element.setAttr name value).attr? other = element.attr? other := by
  unfold setAttr attr?
  dsimp only
  congr 1
  induction element.attributes with
  | nil => simp [setAttribute, Ne.symm different]
  | cons first rest inductionHypothesis =>
      by_cases same : first.name = name
      · simp [setAttribute, same, Ne.symm different]
      · simp [setAttribute, same, List.find?_cons, inductionHypothesis]

end Element

/-! ## Changing elements in place -/

/-- A node with its element changed, if it stands for one. -/
def Node.mapElement (change : Element → Element) (node : Node) : Node :=
  match node.content with
  | .element element => { node with content := .element (change element) }
  | _ => node

@[simp] theorem Node.parent_mapElement
    (change : Element → Element)
    (node : Node) :
    (node.mapElement change).parent = node.parent := by
  unfold Node.mapElement
  split <;> rfl

@[simp] theorem Node.children_mapElement
    (change : Element → Element)
    (node : Node) :
    (node.mapElement change).children = node.children := by
  unfold Node.mapElement
  split <;> rfl

namespace Document

@[simp] theorem size_modify
    (document : Document)
    (id : Nat)
    (change : Node → Node) :
    (document.modify id change).size = document.size := by
  simp [modify, size]

/-- A place outside the store holds an empty root. -/
theorem node_of_size_le
    {document : Document}
    {id : Nat}
    (outside : document.size ≤ id) :
    document.node id = ⟨.root, none, []⟩ := by
  have notInside : ¬id < document.nodes.size := Nat.not_lt.mpr outside
  simp [node, Array.getD, notInside]

/-- A change touches the node it is made at and no other. -/
theorem node_modify
    (document : Document)
    (id other : Nat)
    (change : Node → Node) :
    (document.modify id change).node other =
      if other = id ∧ other < document.size then change (document.node other)
      else document.node other := by
  by_cases inside : other < document.nodes.size
  · by_cases same : other = id
    · subst same
      simp [modify, node, size, Array.getD, inside, Array.getElem_modify]
    · simp [modify, node, size, Array.getD, inside, Array.getElem_modify, same, Ne.symm same]
  · simp [modify, node, size, Array.getD, inside]

/-- Two documents with the same nodes at the same places are the same. -/
theorem ext_node
    {first second : Document}
    (sameSize : first.size = second.size)
    (sameNode : ∀ id, first.node id = second.node id) :
    first = second := by
  obtain ⟨firstNodes⟩ := first
  obtain ⟨secondNodes⟩ := second
  congr 1
  apply Array.ext sameSize
  intro id insideFirst insideSecond
  simpa [node, Array.getD, insideFirst, insideSecond] using sameNode id

@[simp] theorem size_modifyElement
    (document : Document)
    (id : Nat)
    (change : Element → Element) :
    (document.modifyElement id change).size = document.size := by
  unfold modifyElement
  split
  · exact size_modify ..
  · rfl

theorem element?_eq_some_iff
    {document : Document}
    {id : Nat}
    {element : Element} :
    document.element? id = some element ↔ (document.node id).content = .element element := by
  unfold element? content
  split <;> simp_all

/-- Changing the element of a node changes that node alone. -/
theorem node_modifyElement
    (document : Document)
    (id other : Nat)
    (change : Element → Element) :
    (document.modifyElement id change).node other =
      if other = id then (document.node other).mapElement change else document.node other := by
  unfold modifyElement
  split
  · next element found =>
      have content := element?_eq_some_iff.mp found
      have inside : id < document.size := by
        apply Nat.lt_of_not_le
        intro outside
        rw [node_of_size_le outside] at content
        cases content
      rw [setContent, node_modify]
      by_cases same : other = id
      · subst same
        simp [inside, Node.mapElement, content]
      · simp [same]
  · next missing =>
      by_cases same : other = id
      · subst same
        have unchanged : (document.node other).mapElement change = document.node other := by
          unfold Node.mapElement
          split
          · next element content =>
              rw [element?_eq_some_iff.mpr content] at missing
              cases missing
          · rfl
        simp [unchanged]
      · simp [same]

theorem element?_of_node_eq_mapElement
    {document changed : Document}
    {id : Nat}
    {change : Element → Element}
    (node_eq : changed.node id = (document.node id).mapElement change) :
    changed.element? id = (document.element? id).map change := by
  unfold element? content
  rw [node_eq, Node.mapElement]
  cases content : (document.node id).content <;> simp [content]

/-- Changing the element of a node changes no other element. -/
theorem element?_modifyElement
    (document : Document)
    (id other : Nat)
    (change : Element → Element) :
    (document.modifyElement id change).element? other =
      if other = id then (document.element? other).map change else document.element? other := by
  have node_eq := document.node_modifyElement id other change
  split
  · next same => exact element?_of_node_eq_mapElement (node_eq.trans (if_pos same))
  · next different => rw [element?, content, node_eq, if_neg different, element?, content]

/-- A change that leaves the element of a node leaves the document. -/
theorem modifyElement_eq_self
    {document : Document}
    {id : Nat}
    {change : Element → Element}
    (same : ∀ element, document.element? id = some element → change element = element) :
    document.modifyElement id change = document := by
  refine ext_node (size_modifyElement ..) fun other => ?_
  rw [node_modifyElement]
  split
  · next here =>
      subst here
      unfold Node.mapElement
      split
      · next element content_eq =>
          rw [same element (element?_eq_some_iff.mpr content_eq), ← content_eq]
      · rfl
  · rfl

/-- Changes of the elements of two different nodes can be made in either order. -/
theorem modifyElement_comm
    (document : Document)
    {first second : Nat}
    (different : first ≠ second)
    (changeFirst changeSecond : Element → Element) :
    (document.modifyElement first changeFirst).modifyElement second changeSecond =
      (document.modifyElement second changeSecond).modifyElement first changeFirst := by
  apply ext_node
  · simp
  · intro id
    simp only [node_modifyElement]
    by_cases isFirst : id = first
    · subst isFirst
      simp [different]
    · simp [isFirst]

end Document

end Markup
end MailPress
