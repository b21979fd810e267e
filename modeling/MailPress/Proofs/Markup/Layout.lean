import MailPress.Proofs.Markup.Building

/-!
# The layout of documents

Two documents have the same layout when they differ in the attributes of their elements
alone. What a document holds in which order depends on its layout, and so do the elements
of a name. Taking leaves out of a document takes them out of its order.
-/

namespace MailPress
namespace Markup

/-- What a node stands for, apart from the attributes of an element. -/
def Content.withoutAttributes : Content → Content
  | .element tag => .element { tag with attributes := [] }
  | other => other

/-- A change of an element that leaves its name and its slash. -/
def KeepsTag (change : Element → Element) : Prop :=
  ∀ element, (change element).name = element.name ∧
    (change element).selfClosing = element.selfClosing

theorem KeepsTag.setAttr (name value : String) : KeepsTag (·.setAttr name value) :=
  fun _ => ⟨rfl, rfl⟩

theorem KeepsTag.setAttrIfMissing (name value : String) :
    KeepsTag (·.setAttrIfMissing name value) := by
  intro element
  dsimp only [Element.setAttrIfMissing]
  split <;> exact ⟨rfl, rfl⟩

namespace Document

/-- Two documents differ in the attributes of their elements alone. -/
structure SameLayout (first second : Document) : Prop where
  /-- There are as many nodes. -/
  size_eq : second.size = first.size
  /-- The parents are the same. -/
  parent?_eq : ∀ id, second.parent? id = first.parent? id
  /-- The children are the same. -/
  children_eq : ∀ id, second.children id = first.children id
  /-- The nodes stand for the same, apart from attributes. -/
  content_eq : ∀ id,
    (second.content id).withoutAttributes = (first.content id).withoutAttributes

variable {first second third : Document}

namespace SameLayout

theorem refl (document : Document) : document.SameLayout document :=
  ⟨rfl, fun _ => rfl, fun _ => rfl, fun _ => rfl⟩

theorem trans
    (same : first.SameLayout second)
    (sameAgain : second.SameLayout third) :
    first.SameLayout third where
  size_eq := sameAgain.size_eq.trans same.size_eq
  parent?_eq id := (sameAgain.parent?_eq id).trans (same.parent?_eq id)
  children_eq id := (sameAgain.children_eq id).trans (same.children_eq id)
  content_eq id := (sameAgain.content_eq id).trans (same.content_eq id)

theorem modifyElement
    (document : Document)
    (id : Nat)
    {change : Element → Element}
    (keeps : KeepsTag change) :
    document.SameLayout (document.modifyElement id change) where
  size_eq := size_modifyElement ..
  parent?_eq := parent?_modifyElement document id change
  children_eq := children_modifyElement document id change
  content_eq other := by
    unfold Document.content
    rw [node_modifyElement]
    split
    · unfold Node.mapElement
      split
      · next element content =>
          obtain ⟨name, selfClosing⟩ := keeps element
          simp [content, Content.withoutAttributes, name, selfClosing]
      · rfl
    · rfl

/-- Changing elements one after another leaves the layout. -/
theorem foldl_modifyElement
    {Entry : Type}
    (entries : List Entry)
    (place : Entry → Nat)
    {change : Entry → Element → Element}
    (keeps : ∀ entry, KeepsTag (change entry))
    (document : Document) :
    document.SameLayout
      (entries.foldl
        (fun changed entry => changed.modifyElement (place entry) (change entry)) document) := by
  induction entries generalizing document with
  | nil => exact .refl document
  | cons entry entries inductionHypothesis =>
      exact (modifyElement document (place entry) (keeps entry)).trans (inductionHypothesis _)

theorem content_eq_of_not_element
    (same : first.SameLayout second)
    {id : Nat}
    (notElement : first.isElement id = false) :
    second.content id = first.content id := by
  have content_eq := same.content_eq id
  have missing : ∀ element, first.content id ≠ .element element := by
    intro element content
    rw [isElement_eq_true_iff.mpr ⟨element, content⟩] at notElement
    cases notElement
  cases before : first.content id with
  | element element => exact absurd before (missing element)
  | _ =>
      rw [before] at content_eq
      cases after : second.content id <;>
        simp_all [Content.withoutAttributes]

theorem isNamed_eq
    (same : first.SameLayout second)
    (name : String)
    (id : Nat) :
    second.isNamed name id = first.isNamed name id := by
  have named_of (content : Content) :
      content.element?.any (·.name == name) =
        content.withoutAttributes.element?.any (·.name == name) := by
    cases content <;> rfl
  rw [isNamed, isNamed, element?_eq, element?_eq, named_of, same.content_eq, ← named_of]

theorem isRooted
    (same : first.SameLayout second)
    (rooted : first.IsRooted) :
    second.IsRooted := by
  refine ⟨rooted.forest.of_links same.size_eq same.parent?_eq same.children_eq, ?_, ?_, ?_⟩
  · have content_eq := same.content_eq root
    rw [rooted.content_root] at content_eq
    cases content : second.content root <;> rw [content] at content_eq <;>
      first | rfl | cases content_eq
  · intro id inside notRoot
    rw [same.parent?_eq]
    exact rooted.attached id (same.size_eq ▸ inside) notRoot
  · intro child parent below
    have holds := rooted.holds (same.parent?_eq child ▸ below)
    have holds_of (content : Content) :
        content.holdsChildren = content.withoutAttributes.holdsChildren := by
      cases content <;> rfl
    rw [holds_of, same.content_eq, ← holds_of, holds]

end SameLayout

/-! ## Leaving out leaves -/

/-- The smaller document is the larger one without some nodes that have no children. -/
structure DropsLeaves (keep : Nat → Bool) (larger smaller : Document) : Prop where
  /-- The children that are kept stay in order. -/
  children_eq : ∀ id, keep id = true →
    smaller.children id = (larger.children id).filter keep
  /-- What is dropped has no children. -/
  leaf : ∀ id, keep id = false → larger.children id = []

theorem DropsLeaves.ids_eq
    {keep : Nat → Bool}
    {larger smaller : Document}
    (drops : DropsLeaves keep larger smaller)
    (largerForest : larger.IsForest)
    (smallerForest : smaller.IsForest)
    {top : Nat}
    (kept : keep top = true) :
    (smaller.tree top).ids = ((larger.tree top).ids).filter keep := by
  induction top using largerForest.induction with
  | node top inductionHypothesis =>
      rw [largerForest.ids_tree, smallerForest.ids_tree, drops.children_eq top kept,
        List.filter_cons_of_pos kept, List.filter_flatMap]
      congr 1
      have children := inductionHypothesis
      generalize larger.children top = list at children
      induction list with
      | nil => rfl
      | cons child list listHypothesis =>
          have restEqual := listHypothesis fun other member =>
            children other (List.mem_cons_of_mem _ member)
          rw [List.flatMap_cons, ← restEqual]
          cases childKept : keep child with
          | true =>
              rw [List.filter_cons_of_pos childKept, List.flatMap_cons,
                children child List.mem_cons_self childKept]
          | false =>
              have dropped : ((larger.tree child).ids).filter keep = [] := by
                rw [largerForest.ids_tree, drops.leaf child childKept]
                simp [childKept]
              rw [dropped, List.filter_cons_of_neg (by simp [childKept]), List.nil_append]

/-! ## The elements of a name -/

variable {document : Document}

theorem isNamed_eq_true_iff
    {name : String}
    {id : Nat} :
    document.isNamed name id = true ↔
      ∃ element, document.content id = .element element ∧ element.name = name := by
  unfold isNamed element?
  cases document.content id <;> simp

theorem isElement_of_isNamed
    {name : String}
    {id : Nat}
    (named : document.isNamed name id = true) :
    document.isElement id = true := by
  obtain ⟨element, content, _⟩ := isNamed_eq_true_iff.mp named
  exact isElement_eq_true_iff.mpr ⟨element, content⟩

theorem IsRooted.ne_root_of_isElement
    (rooted : document.IsRooted)
    {id : Nat}
    (isElement : document.isElement id = true) :
    id ≠ root := by
  rintro rfl
  obtain ⟨element, content⟩ := isElement_eq_true_iff.mp isElement
  rw [rooted.content_root] at content
  cases content

theorem IsForest.ids_root
    (forest : document.IsForest) :
    (document.tree root).ids = root :: document.descendants root := by
  rw [forest.ids_tree, forest.descendants_eq]

/-- The elements of a name are the nodes of that name. -/
theorem findAll_eq
    (document : Document)
    (name : String) :
    document.findAll name = (document.descendants root).filter (document.isNamed name) := by
  rw [findAll, elements, List.filter_filter]
  apply List.filter_congr
  intro id _
  cases named : document.isNamed name id with
  | false => rfl
  | true => rw [isElement_of_isNamed named]; rfl

theorem mem_findAll_iff
    {name : String}
    {id : Nat} :
    id ∈ document.findAll name ↔
      id ∈ document.descendants root ∧ document.isNamed name id = true := by
  rw [findAll_eq, List.mem_filter]

theorem mem_findAll_of_findFirst?
    {name : String}
    {id : Nat}
    (found : document.findFirst? name = some id) :
    id ∈ document.findAll name :=
  List.mem_of_mem_head? found

theorem isNamed_of_findFirst?
    {name : String}
    {id : Nat}
    (found : document.findFirst? name = some id) :
    document.isNamed name id = true :=
  (mem_findAll_iff.mp (mem_findAll_of_findFirst? found)).2

/-- In a rooted document, every element of a name is among the elements of that name. -/
theorem IsRooted.mem_findAll
    (rooted : document.IsRooted)
    {name : String}
    {id : Nat}
    (named : document.isNamed name id = true) :
    id ∈ document.findAll name := by
  have isElement := isElement_of_isNamed named
  have member := rooted.forest.mem_ids_root rooted.attached (lt_size_of_isElement isElement)
  rw [rooted.forest.ids_root] at member
  rcases List.mem_cons.mp member with isRoot | below
  · exact absurd isRoot (rooted.ne_root_of_isElement isElement)
  · exact mem_findAll_iff.mpr ⟨below, named⟩

theorem DropsLeaves.descendants_eq
    {keep : Nat → Bool}
    {larger smaller : Document}
    (drops : DropsLeaves keep larger smaller)
    (largerForest : larger.IsForest)
    (smallerForest : smaller.IsForest)
    (rootKept : keep root = true) :
    smaller.descendants root = (larger.descendants root).filter keep := by
  have ids_eq := drops.ids_eq largerForest smallerForest rootKept
  rw [largerForest.ids_root, smallerForest.ids_root, List.filter_cons_of_pos rootKept] at ids_eq
  exact (List.cons.inj ids_eq).2

/-- Leaving out leaves of other names leaves the elements of a name. -/
theorem DropsLeaves.findAll_eq
    {keep : Nat → Bool}
    {larger smaller : Document}
    (drops : DropsLeaves keep larger smaller)
    (largerForest : larger.IsForest)
    (smallerForest : smaller.IsForest)
    (rootKept : keep root = true)
    {name : String}
    (sameNames : ∀ id, keep id = true → smaller.isNamed name id = larger.isNamed name id)
    (unnamed : ∀ id, keep id = false → larger.isNamed name id = false) :
    smaller.findAll name = larger.findAll name := by
  rw [Document.findAll_eq, Document.findAll_eq,
    drops.descendants_eq largerForest smallerForest rootKept, List.filter_filter]
  apply List.filter_congr
  intro id _
  cases kept : keep id with
  | true => rw [sameNames id kept, Bool.and_true]
  | false => rw [unnamed id kept, Bool.and_false]

theorem SameLayout.elements_eq
    {first second : Document}
    (same : first.SameLayout second)
    (forest : first.IsForest) :
    second.elements = first.elements := by
  have drops : DropsLeaves (fun _ => true) first second :=
    ⟨fun id _ => by rw [same.children_eq, List.filter_true], nofun⟩
  have secondForest := forest.of_links same.size_eq same.parent?_eq same.children_eq
  rw [elements, elements, drops.descendants_eq forest secondForest rfl, List.filter_true]
  refine List.filter_congr fun id _ => ?_
  have isElement_of (content : Content) :
      content.element?.isSome = content.withoutAttributes.element?.isSome := by
    cases content <;> rfl
  rw [isElement, isElement, element?_eq, element?_eq, isElement_of, same.content_eq, ← isElement_of]

theorem SameLayout.findAll_eq
    {first second : Document}
    (same : first.SameLayout second)
    (forest : first.IsForest)
    (name : String) :
    second.findAll name = first.findAll name := by
  rw [findAll, findAll, same.elements_eq forest]
  exact List.filter_congr fun id _ => same.isNamed_eq name id

theorem SameLayout.findFirst?_eq
    {first second : Document}
    (same : first.SameLayout second)
    (forest : first.IsForest)
    (name : String) :
    second.findFirst? name = first.findFirst? name := by
  rw [findFirst?, findFirst?, same.findAll_eq forest]

/-- A list is what is left of it when a new member in some place is left out. -/
theorem filter_insert
    {members : List Nat}
    {new : Nat}
    (fresh : new ∉ members)
    (index : Nat) :
    (members.take index ++ new :: members.drop index).filter (· != new) = members := by
  rw [List.filter_append, List.filter_cons_of_neg (by simp), ← List.filter_append,
    List.take_append_drop]
  exact List.filter_eq_self.mpr fun other member => bne_iff_ne.mpr fun same => fresh (same ▸ member)

/-- A list is what is left of it when a new member at its end is left out. -/
theorem filter_append_singleton
    {members : List Nat}
    {new : Nat}
    (fresh : new ∉ members) :
    (members ++ [new]).filter (· != new) = members := by
  have atEnd := filter_insert fresh members.length
  rwa [List.take_length, List.drop_length] at atEnd

/-- A new node is a leaf, and apart from it the document is as it was. -/
theorem IsForest.dropsLeaves_attach
    (forest : document.IsForest)
    {parent : Nat}
    (inside : parent < document.size)
    (content : Content)
    {place : List Nat → List Nat}
    (inOrder : ∀ children, document.size ∉ children →
      (place children).filter (· != document.size) = children) :
    DropsLeaves (· != document.size) (document.attach parent content place) document := by
  refine ⟨?_, ?_⟩
  · intro id kept
    have old : id ≠ document.size := by simpa using kept
    rw [children_attach inside, if_neg old]
    split
    · next same =>
        subst same
        exact (inOrder _ (forest.size_not_mem_children _)).symm
    · refine (List.filter_eq_self.mpr ?_).symm
      intro child listed
      simpa using Nat.ne_of_lt (forest.lt_of_mem_children listed).2
  · intro id dropped
    have new : id = document.size := by simpa using dropped
    rw [children_attach inside, if_pos new]

/-- A new node of another name leaves the elements of a name. -/
theorem IsForest.findFirst?_attach
    (forest : document.IsForest)
    {parent : Nat}
    (inside : parent < document.size)
    {content : Content}
    {place : List Nat → List Nat}
    (places : ∀ children, (place children).Perm (document.size :: children))
    (inOrder : ∀ children, document.size ∉ children →
      (place children).filter (· != document.size) = children)
    {name : String}
    (unnamed : ∀ element, content = .element element → element.name ≠ name) :
    (document.attach parent content place).findFirst? name = document.findFirst? name := by
  have drops := forest.dropsLeaves_attach inside content inOrder
  have rootKept : (root != document.size) = true := by
    exact bne_iff_ne.mpr (Nat.ne_of_lt forest.nonempty)
  rw [findFirst?, findFirst?]
  congr 1
  refine (drops.findAll_eq (forest.attach inside content places) forest rootKept ?_ ?_).symm
  · intro id kept
    have old : id ≠ document.size := by simpa using kept
    rw [isNamed, isNamed, element?_eq, element?_eq, content_attach inside, if_neg old]
  · intro id dropped
    have new : id = document.size := by simpa using dropped
    rw [isNamed, element?_eq, content_attach inside, if_pos new]
    cases content with
    | element element => simpa [Content.element?] using unnamed element rfl
    | _ => rfl

/-- Appending text changes which nodes are elements nowhere. -/
theorem IsForest.element?_appendText
    (forest : document.IsForest)
    {parent : Nat}
    (inside : parent < document.size)
    (raw : String)
    (id : Nat) :
    (document.appendText parent raw).element? id = document.element? id := by
  rcases document.appendText_cases parent raw with ⟨last, before, listed, content, eq⟩ | ⟨_, eq⟩
  · have lastInside := (forest.lt_of_mem_children (List.mem_of_getLast? listed)).2
    rw [eq, element?_eq, element?_eq, content_setContent lastInside]
    split
    · next same => rw [same, content]; rfl
    · rfl
  · rw [eq, element?_eq, element?_eq, appendChild_eq_attach, content_attach inside]
    split
    · next new => rw [content_of_size_le (Nat.le_of_eq new.symm)]; rfl
    · rfl

theorem IsForest.isElement_appendText
    (forest : document.IsForest)
    {parent : Nat}
    (inside : parent < document.size)
    (raw : String)
    (id : Nat) :
    (document.appendText parent raw).isElement id = document.isElement id := by
  rw [isElement, forest.element?_appendText inside, isElement]

theorem IsForest.isNamed_appendText
    (forest : document.IsForest)
    {parent : Nat}
    (inside : parent < document.size)
    (raw name : String)
    (id : Nat) :
    (document.appendText parent raw).isNamed name id = document.isNamed name id := by
  rw [isNamed, forest.element?_appendText inside, isNamed]

/-- Appending text leaves the elements of a name. -/
theorem IsForest.findFirst?_appendText
    (forest : document.IsForest)
    {parent : Nat}
    (inside : parent < document.size)
    (raw name : String) :
    (document.appendText parent raw).findFirst? name = document.findFirst? name := by
  have changedForest := forest.appendText inside raw
  have sameNames := forest.isNamed_appendText inside raw name
  rcases document.appendText_cases parent raw with ⟨last, before, _, _, eq⟩ | ⟨_, eq⟩
  · rw [eq] at changedForest sameNames ⊢
    have drops : DropsLeaves (fun _ => true) document
        (document.setContent last (.text (before ++ raw))) :=
      ⟨fun id _ => by rw [children_setContent, List.filter_true], nofun⟩
    rw [findFirst?, findFirst?,
      drops.findAll_eq forest changedForest rfl (fun id _ => sameNames id) nofun]
  · rw [eq, appendChild_eq_attach]
    refine forest.findFirst?_attach inside ?_ ?_ nofun
    · intro children
      exact List.perm_append_singleton document.size children
    · intro children fresh
      exact filter_append_singleton fresh

end Document

end Markup
end MailPress
