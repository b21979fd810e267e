import Mathlib.Data.List.Flatten
import MailPress.Page.Comments
import MailPress.Proofs.Markup.Links
import MailPress.Proofs.Page.ImageSizes

/-!
# Stages that only add, and only once

Defaults, spaces in empty cells, meta tags and image sizes are added to a document. Every node
stays below its parent and in its order, every text goes on from where it ended, and every
attribute has its value, the style of an image that is given a size apart.

Each of these stages looks at the document for what is missing. What it adds is what it looks
for, so it finds nothing missing in its own result. Comments are the only nodes that a stage
takes away, and it takes those of authors and no others.
-/

namespace MailPress
namespace Markup

/-! ## Contents that grow -/

/-- An attribute as it lasts: the value of a style does not last where elements are restyled. -/
def Attribute.lasting (restyled : Bool) (written : Attribute) : Attribute :=
  if restyled && written.name == "style" then { written with value := "" } else written

/-- A later form of an element has all of its attributes, in their order and in front of any
others. -/
structure Element.GrowsTo (restyled : Bool) (before after : Element) : Prop where
  /-- The name is the same. -/
  name_eq : after.name = before.name
  /-- The slash is the same. -/
  selfClosing_eq : after.selfClosing = before.selfClosing
  /-- The attributes that last come first. -/
  attributes : before.attributes.map (Attribute.lasting restyled) <+:
    after.attributes.map (Attribute.lasting restyled)

/-- A later form of a content: an element may get attributes, a text may go on, and all else is
as it was. -/
def Content.GrowsTo (restyled : Bool) : Content → Content → Prop
  | .element before, .element after => before.GrowsTo restyled after
  | .text before, .text after => before.toList <+: after.toList
  | before, after => after = before

namespace Element.GrowsTo

variable {restyled : Bool} {before middle after : Element}

theorem refl (restyled : Bool) (element : Element) : element.GrowsTo restyled element :=
  ⟨rfl, rfl, List.prefix_rfl⟩

theorem trans
    (grows : before.GrowsTo restyled middle)
    (growsOn : middle.GrowsTo restyled after) :
    before.GrowsTo restyled after where
  name_eq := growsOn.name_eq.trans grows.name_eq
  selfClosing_eq := growsOn.selfClosing_eq.trans grows.selfClosing_eq
  attributes := grows.attributes.trans growsOn.attributes

/-- Setting an attribute that is missing puts it behind the others. -/
theorem setAttrIfMissing
    (restyled : Bool)
    (name value : String)
    (element : Element) :
    element.GrowsTo restyled (element.setAttrIfMissing name value) := by
  unfold Element.setAttrIfMissing
  split
  · exact .refl restyled element
  · next missing =>
      refine ⟨rfl, rfl, ?_⟩
      rw [Element.setAttr, setAttribute_of_missing (by simpa [Element.hasAttr] using missing),
        List.map_append]
      exact List.prefix_append ..

/-- Setting the style changes nothing else. -/
theorem setAttr_style (value : String) (element : Element) :
    element.GrowsTo true (element.setAttr "style" value) := by
  refine ⟨rfl, rfl, ?_⟩
  rw [Element.setAttr]
  dsimp only
  induction element.attributes with
  | nil => exact List.nil_prefix
  | cons first rest inductionHypothesis =>
      by_cases same : first.name = "style"
      · have lasts : Attribute.lasting true ⟨first.name, value⟩ = Attribute.lasting true first := by
          simp [Attribute.lasting, same]
        rw [setAttribute, if_pos same, List.map_cons, List.map_cons, lasts]
      · rw [setAttribute, if_neg same, List.map_cons, List.map_cons, List.prefix_cons_inj]
        exact inductionHypothesis

theorem hasAttr
    (grows : before.GrowsTo restyled after)
    {name : String}
    (has : before.hasAttr name = true) :
    after.hasAttr name = true := by
  have hasAttr_eq (element : Element) : element.hasAttr name =
      (element.attributes.map (Attribute.lasting restyled)).any (·.name == name) := by
    rw [Element.hasAttr, List.any_map]
    congr 1
    funext written
    simp only [Function.comp_apply, Attribute.lasting]
    split <;> rfl
  rw [hasAttr_eq, List.any_eq_true] at has ⊢
  obtain ⟨written, member, isName⟩ := has
  exact ⟨written, grows.attributes.subset member, isName⟩

end Element.GrowsTo

namespace Content.GrowsTo

variable {restyled : Bool} {before middle after : Content}

theorem refl (restyled : Bool) (content : Content) : content.GrowsTo restyled content := by
  cases content with
  | element element => exact Element.GrowsTo.refl restyled element
  | text raw => exact List.prefix_rfl
  | root | comment | verbatim => rfl

theorem trans
    (grows : before.GrowsTo restyled middle)
    (growsOn : middle.GrowsTo restyled after) :
    before.GrowsTo restyled after := by
  cases before with
  | element element =>
      cases middle with
      | element next =>
          cases after with
          | element last => exact Element.GrowsTo.trans grows growsOn
          | _ => cases growsOn
      | _ => cases grows
  | text raw =>
      cases middle with
      | text next =>
          cases after with
          | text last => exact List.IsPrefix.trans grows growsOn
          | _ => cases growsOn
      | _ => cases grows
  | root | comment | verbatim =>
      obtain rfl : middle = _ := by simpa [Content.GrowsTo] using grows
      exact growsOn

end Content.GrowsTo

namespace Document

/-! ## Documents that grow -/

/-- A later form of a document has every node in its place, and more beside. -/
structure GrowsTo (restyled : Nat → Bool) (before after : Document) : Prop where
  /-- No node is lost. -/
  size_le : before.size ≤ after.size
  /-- Every node is below its parent. -/
  parent?_eq : ∀ id < before.size, after.parent? id = before.parent? id
  /-- The children are in their order, with others between them. -/
  children : ∀ id, (before.children id).Sublist (after.children id)
  /-- What a node stands for has grown. -/
  content : ∀ id < before.size,
    (before.content id).GrowsTo (restyled id) (after.content id)

namespace GrowsTo

variable {restyled : Nat → Bool} {before middle after : Document}

theorem refl (restyled : Nat → Bool) (document : Document) : document.GrowsTo restyled document :=
  ⟨Nat.le_refl _, fun _ _ => rfl, fun _ => .refl _, fun id _ => .refl (restyled id) _⟩

theorem trans
    (grows : before.GrowsTo restyled middle)
    (growsOn : middle.GrowsTo restyled after) :
    before.GrowsTo restyled after where
  size_le := Nat.le_trans grows.size_le growsOn.size_le
  parent?_eq id inside :=
    (growsOn.parent?_eq id (Nat.lt_of_lt_of_le inside grows.size_le)).trans
      (grows.parent?_eq id inside)
  children id := (grows.children id).trans (growsOn.children id)
  content id inside :=
    (grows.content id inside).trans
      (growsOn.content id (Nat.lt_of_lt_of_le inside grows.size_le))

/-- Changing contents, each to a later form of itself, lets a document grow. -/
theorem of_contents
    (size_eq : after.size = before.size)
    (parent?_eq : ∀ id, after.parent? id = before.parent? id)
    (children_eq : ∀ id, after.children id = before.children id)
    (content : ∀ id, (before.content id).GrowsTo (restyled id) (after.content id)) :
    before.GrowsTo restyled after :=
  ⟨Nat.le_of_eq size_eq.symm, fun id _ => parent?_eq id, fun id => by rw [children_eq],
    fun id _ => content id⟩

/-- An element that grows lets its document grow. -/
theorem modifyElement
    (document : Document)
    {id : Nat}
    {change : Element → Element}
    (grows : ∀ element : Element, element.GrowsTo (restyled id) (change element)) :
    document.GrowsTo restyled (document.modifyElement id change) := by
  refine of_contents (size_modifyElement ..) (parent?_modifyElement document id change)
    (children_modifyElement document id change) fun other => ?_
  rw [Document.content, Document.content, node_modifyElement]
  split
  · next same =>
      subst same
      unfold Node.mapElement
      split
      · next element content_eq =>
          rw [content_eq]
          exact grows element
      · exact .refl _ _
  · exact .refl _ _

/-- A text that goes on lets its document grow. -/
theorem setContent
    {document : Document}
    {id : Nat}
    {raw : String}
    (isText : document.content id = .text raw)
    (more : String) :
    document.GrowsTo restyled (document.setContent id (.text (raw ++ more))) := by
  have inside : id < document.size := Nat.lt_of_not_le fun outside => by
    rw [content_of_size_le outside] at isText
    cases isText
  refine of_contents (size_setContent ..) (parent?_setContent document id _)
    (children_setContent document id _) fun other => ?_
  rw [content_setContent inside]
  split
  · next same =>
      rw [same, isText]
      show raw.toList <+: (raw ++ more).toList
      rw [String.toList_append]
      exact List.prefix_append ..
  · exact .refl _ _

/-- A new node lets its document grow. -/
theorem attach
    {document : Document}
    {parent : Nat}
    (inside : parent < document.size)
    (content : Content)
    {place : List Nat → List Nat}
    (places : ∀ children : List Nat, children.Sublist (place children)) :
    document.GrowsTo restyled (document.attach parent content place) := by
  refine ⟨by simp, fun id old => ?_, fun id => ?_, fun id old => ?_⟩
  · rw [parent?_attach inside, if_neg (Nat.ne_of_lt old)]
  · rw [children_attach inside]
    split
    · next new => rw [Document.children, node_of_size_le (Nat.le_of_eq new.symm)]
    · split
      · next same => exact same ▸ places _
      · exact .refl _
  · rw [content_attach inside, if_neg (Nat.ne_of_lt old)]
    exact .refl _ _

theorem insertChild
    {document : Document}
    {parent : Nat}
    (inside : parent < document.size)
    (index : Nat)
    (content : Content) :
    document.GrowsTo restyled (document.insertChild parent index content) := by
  rw [insertChild_eq_attach]
  refine attach inside content fun children => ?_
  have split := (List.sublist_cons_self document.size (children.drop index)).append_left
    (children.take index)
  rwa [List.take_append_drop] at split

theorem appendText
    {document : Document}
    {parent : Nat}
    (inside : parent < document.size)
    (raw : String) :
    document.GrowsTo restyled (document.appendText parent raw) := by
  rcases document.appendText_cases parent raw with ⟨last, before, _, isText, eq⟩ | ⟨_, eq⟩
  · rw [eq]
    exact setContent isText raw
  · rw [eq, appendChild_eq_attach]
    exact attach inside _ fun children => List.sublist_append_left children _

/-- A document grows by steps that each let it grow. -/
theorem foldl
    {Entry : Type}
    {step : Document → Entry → Document}
    {entries : List Entry}
    (grows : ∀ entry ∈ entries, ∀ document, GrowsTo restyled document (step document entry))
    (document : Document) :
    document.GrowsTo restyled (entries.foldl step document) := by
  induction entries generalizing document with
  | nil => exact .refl restyled document
  | cons entry entries inductionHypothesis =>
      obtain ⟨here, rest⟩ := List.forall_mem_cons.mp grows
      exact (here document).trans (inductionHypothesis rest _)

/-- What hung below the root goes on to hang there, and nothing else of what was there does. -/
theorem isAttached_iff
    (grows : before.GrowsTo restyled after)
    (forest : before.IsForest)
    {id : Nat}
    (inside : id < before.size) :
    after.IsAttached id ↔ before.IsAttached id := by
  have below_iff (id parent : Nat) (inside : id < before.size) :
      after.parent? id = some parent ↔ before.parent? id = some parent := by
    rw [grows.parent?_eq id inside]
  constructor
  · intro attached
    induction attached using Relation.TransGen.head_induction_on with
    | single step => exact .single ((below_iff _ _ inside).mp step)
    | head step _ inductionHypothesis =>
        have below := (below_iff _ _ inside).mp step
        exact .head below
          (inductionHypothesis (Nat.lt_trans (forest.parent_lt below) inside))
  · intro attached
    induction attached using Relation.TransGen.head_induction_on with
    | single step => exact .single ((below_iff _ _ inside).mpr step)
    | head step _ inductionHypothesis =>
        exact .head ((below_iff _ _ inside).mpr step)
          (inductionHypothesis (Nat.lt_trans (forest.parent_lt step) inside))

end GrowsTo

/-- Where the children of every node are among those of another document in their order, so are
the nodes below. -/
theorem IsForest.descendants_sublist
    {fewer more : Document}
    (fewerForest : fewer.IsForest)
    (moreForest : more.IsForest)
    (children : ∀ id, (fewer.children id).Sublist (more.children id))
    (top : Nat) :
    (fewer.descendants top).Sublist (more.descendants top) := by
  have ids (id : Nat) : (fewer.tree id).ids.Sublist (more.tree id).ids := by
    induction id using fewerForest.induction with
    | node id inductionHypothesis =>
        rw [fewerForest.ids_tree, moreForest.ids_tree]
        exact ((List.Sublist.flatMap_right _ inductionHypothesis).trans
          ((children id).flatMap _)).cons_cons id
  rw [fewerForest.descendants_eq, moreForest.descendants_eq]
  exact (List.Sublist.flatMap_right _ fun id _ => ids id).trans ((children top).flatMap _)

/-- Steps that each leave a document leave it together. -/
theorem foldl_eq_self
    {Entry : Type}
    {step : Document → Entry → Document}
    {entries : List Entry}
    {document : Document}
    (same : ∀ entry ∈ entries, step document entry = document) :
    entries.foldl step document = document := by
  induction entries with
  | nil => rfl
  | cons entry entries inductionHypothesis =>
      obtain ⟨here, rest⟩ := List.forall_mem_cons.mp same
      rw [List.foldl_cons, here, inductionHypothesis rest]

/-- What a change brings about holds of every element that was changed. -/
theorem of_foldl_modifyElement
    {change : Element → Element}
    (Holds : Element → Prop)
    (brings : ∀ element, Holds (change element))
    {ids : List Nat}
    (document : Document)
    {id : Nat}
    (member : id ∈ ids)
    {element : Element}
    (found : (ids.foldl (fun changed id => changed.modifyElement id change) document).element? id =
      some element) :
    Holds element := by
  -- The last change of the node decides.
  induction ids using List.reverseRecOn with
  | nil => cases member
  | append_singleton ids last inductionHypothesis =>
      rw [List.foldl_append, List.foldl_cons, List.foldl_nil, element?_modifyElement] at found
      split at found
      · obtain ⟨old, _, rfl⟩ := Option.map_eq_some_iff.mp found
        exact brings old
      · next different =>
          rw [List.mem_append, List.mem_singleton] at member
          exact inductionHypothesis (member.resolve_right different) found

end Document

namespace Element

theorem setAttrIfMissing_of_hasAttr
    {name : String}
    {element : Element}
    (has : element.hasAttr name = true)
    (value : String) :
    element.setAttrIfMissing name value = element :=
  if_pos has

end Element

end Markup

open Markup

namespace Page

/-! ## Defaults -/

section Defaults

variable {restyled : Bool} {pairs : List (String × String)} {element : Element}

theorem growsTo_fill (restyled : Bool) (pairs : List (String × String)) (element : Element) :
    element.GrowsTo restyled
      (pairs.foldl (fun filled pair => filled.setAttrIfMissing pair.1 pair.2) element) := by
  induction pairs generalizing element with
  | nil => exact .refl restyled element
  | cons pair pairs inductionHypothesis =>
      exact (Element.GrowsTo.setAttrIfMissing restyled pair.1 pair.2 element).trans
        (inductionHypothesis _)

/-- What was missing is there afterwards. -/
theorem hasAttr_fill
    {pair : String × String}
    (member : pair ∈ pairs)
    (element : Element) :
    (pairs.foldl (fun filled pair => filled.setAttrIfMissing pair.1 pair.2) element).hasAttr
      pair.1 = true := by
  induction pairs generalizing element with
  | nil => cases member
  | cons first pairs inductionHypothesis =>
      rw [List.foldl_cons]
      rcases List.mem_cons.mp member with rfl | rest
      · exact (growsTo_fill false pairs _).hasAttr
          (Image.hasAttr_setAttrIfMissing_self pair.1 pair.2 element)
      · exact inductionHypothesis rest _

theorem fill_eq_self (has : ∀ pair ∈ pairs, element.hasAttr pair.1 = true) :
    pairs.foldl (fun filled pair => filled.setAttrIfMissing pair.1 pair.2) element = element := by
  induction pairs with
  | nil => rfl
  | cons pair pairs inductionHypothesis =>
      obtain ⟨here, rest⟩ := List.forall_mem_cons.mp has
      rw [List.foldl_cons, Element.setAttrIfMissing_of_hasAttr here, inductionHypothesis rest]

theorem growsTo_withDefaults (restyled : Bool) (target : Option String) (element : Element) :
    element.GrowsTo restyled (withDefaults target element) :=
  withDefaults_induction (element.GrowsTo restyled) (.refl restyled element)
    (fun name value given _ grows => grows.trans (.setAttrIfMissing restyled name value given))
    target

/-- An element with its defaults lacks none. -/
theorem withDefaults_withDefaults (target : Option String) (element : Element) :
    withDefaults target (withDefaults target element) = withDefaults target element := by
  have name_eq := (keepsTag_withDefaults target element).1
  have defaults : ∀ pair ∈ defaultAttributes element.name,
      (withDefaults target element).hasAttr pair.1 = true := by
    intro pair member
    have filled := hasAttr_fill member element
    unfold withDefaults
    dsimp only
    split
    · split
      · exact (Element.GrowsTo.setAttrIfMissing false _ _ _).hasAttr filled
      · exact filled
    · exact filled
  have targeted : ∀ place, target = some place → element.name = "a" →
      (withDefaults target element).hasAttr "href" = true →
        (withDefaults target element).hasAttr "target" = true := by
    rintro place rfl link href
    unfold withDefaults at href ⊢
    dsimp only at href ⊢
    split
    · exact Image.hasAttr_setAttrIfMissing_self ..
    · next noLink =>
        rw [if_neg noLink] at href
        exact absurd ⟨link, href⟩ noLink
  generalize withDefaults target element = given at name_eq defaults targeted ⊢
  unfold withDefaults
  dsimp only
  rw [name_eq, fill_eq_self defaults]
  split
  · next place =>
      split
      · next link =>
          exact Element.setAttrIfMissing_of_hasAttr (targeted place rfl link.1 link.2) _
      · rfl
  · rfl

end Defaults

variable {document : Document}

theorem growsTo_applyDefaults (document : Document) (target : Option String) :
    document.GrowsTo (fun _ => false) (applyDefaults document target) :=
  .foldl (fun _ _ document => .modifyElement document (growsTo_withDefaults false target)) document

theorem applyDefaults_applyDefaults
    (forest : document.IsForest)
    (target : Option String) :
    applyDefaults (applyDefaults document target) target = applyDefaults document target := by
  have elements_eq := (sameLayout_applyDefaults document target).elements_eq forest
  show (applyDefaults document target).elements.foldl
    (fun filled id => filled.modifyElement id (withDefaults target))
      (applyDefaults document target) = _
  refine Document.foldl_eq_self fun id member => Document.modifyElement_eq_self ?_
  rw [elements_eq] at member
  intro element found
  exact Document.of_foldl_modifyElement (fun element => withDefaults target element = element)
    (withDefaults_withDefaults target) document member found

/-! ## Empty cells -/

/-- What is visible stays visible when it grows. -/
theorem isInvisible_of_growsTo
    {restyled : Bool}
    {before after : Document}
    {id : Nat}
    (grows : (before.content id).GrowsTo restyled (after.content id))
    (visible : isInvisible before id = false) :
    isInvisible after id = false := by
  unfold isInvisible at *
  cases content : before.content id with
  | text raw =>
      rw [content] at grows visible
      cases grown : after.content id with
      | text more =>
          rw [grown] at grows
          obtain ⟨rest, rest_eq⟩ := grows
          dsimp only at visible ⊢
          rw [← rest_eq, List.all_append, visible, Bool.false_and]
      | comment => rw [grown] at grows; cases grows
      | root | element | verbatim => rfl
  | comment body => rw [content] at visible; cases visible
  | element element =>
      rw [content] at grows
      cases grown : after.content id with
      | text | comment => rw [grown] at grows; cases grows
      | root | element | verbatim => rfl
  | root | verbatim =>
      rw [content] at grows
      rw [show after.content id = _ from grows]

/-- A document in which some cells have been given a space. -/
structure IsFilled (restyled : Nat → Bool) (ids : List Nat) (before after : Document) : Prop where
  /-- The document has grown. -/
  grows : before.GrowsTo restyled after
  /-- The links agree. -/
  forest : after.IsForest
  /-- The elements are as they were. -/
  element?_eq : ∀ id, after.element? id = before.element? id
  /-- Something is visible in every one of these cells. -/
  visible : ∀ id ∈ ids, ∃ child ∈ after.children id, isInvisible after child = false

theorem isFilled_foldl
    (restyled : Nat → Bool)
    (forest : document.IsForest)
    {ids : List Nat}
    (cells : ∀ id ∈ ids, document.isElement id = true) :
    IsFilled restyled ids document
      (ids.foldl (fun filled id => filled.appendText id "&nbsp;") document) := by
  induction ids generalizing document with
  | nil => exact ⟨.refl restyled document, forest, fun _ => rfl, nofun⟩
  | cons id ids inductionHypothesis =>
      obtain ⟨here, rest⟩ := List.forall_mem_cons.mp cells
      have inside := Document.lt_size_of_isElement here
      have stepForest := forest.appendText inside "&nbsp;"
      have filled := inductionHypothesis stepForest fun other member => by
        rw [forest.isElement_appendText inside]
        exact rest other member
      refine ⟨(Document.GrowsTo.appendText inside "&nbsp;").trans filled.grows, filled.forest,
        fun other => (filled.element?_eq other).trans (forest.element?_appendText inside _ other),
        fun other member => ?_⟩
      rcases List.mem_cons.mp member with rfl | later
      · obtain ⟨others, last, old, listed, content⟩ :=
          forest.exists_children_appendText inside "&nbsp;"
        have lastListed : last ∈ (document.appendText other "&nbsp;").children other := by
          rw [listed]
          exact List.mem_append_right others List.mem_cons_self
        refine ⟨last, (filled.grows.children other).subset lastListed,
          isInvisible_of_growsTo
            (filled.grows.content last (stepForest.lt_of_mem_children lastListed).2) ?_⟩
        have shown : "&nbsp;".toList.all Text.isBlank = false := by decide
        rw [isInvisible, content]
        dsimp only
        rw [String.toList_append, List.all_append, shown, Bool.and_false]
      · exact filled.visible other later

theorem isFilled_fillEmptyCells (restyled : Nat → Bool) (forest : document.IsForest) :
    IsFilled restyled (document.elements.filter (isEmptyCell document)) document
      (fillEmptyCells document) :=
  isFilled_foldl restyled forest fun _ member =>
    (List.mem_filter.mp (List.mem_filter.mp member).1).2

theorem fillEmptyCells_fillEmptyCells (forest : document.IsForest) :
    fillEmptyCells (fillEmptyCells document) = fillEmptyCells document := by
  have filled := isFilled_fillEmptyCells (fun _ => false) forest
  show ((fillEmptyCells document).elements.filter (isEmptyCell (fillEmptyCells document))).foldl
    (fun filled id => filled.appendText id "&nbsp;") (fillEmptyCells document) = _
  generalize fillEmptyCells document = after at filled ⊢
  suffices none : after.elements.filter (isEmptyCell after) = [] by rw [none, List.foldl_nil]
  refine List.filter_eq_nil_iff.mpr fun id member isEmpty => ?_
  obtain ⟨attached, isElement⟩ := filled.forest.mem_elements_iff.mp member
  rw [Document.isElement, filled.element?_eq, ← Document.isElement] at isElement
  have inside := Document.lt_size_of_isElement isElement
  obtain ⟨named, invisible⟩ := Bool.and_eq_true_iff.mp isEmpty
  have wasEmpty : isEmptyCell document id = true := by
    refine Bool.and_eq_true_iff.mpr ⟨?_, List.all_eq_true.mpr fun child listed => ?_⟩
    · simpa only [Document.isNamed, filled.element?_eq] using named
    · rw [← Bool.not_eq_false]
      intro visible
      have stays := isInvisible_of_growsTo
        (filled.grows.content child (forest.lt_of_mem_children listed).2) visible
      have gone := List.all_eq_true.mp invisible child ((filled.grows.children id).subset listed)
      rw [stays] at gone
      cases gone
  have wasListed : id ∈ document.elements :=
    forest.mem_elements_iff.mpr ⟨(filled.grows.isAttached_iff forest inside).mp attached, isElement⟩
  obtain ⟨child, listed, visible⟩ :=
    filled.visible id (List.mem_filter.mpr ⟨wasListed, wasEmpty⟩)
  have gone := List.all_eq_true.mp invisible child listed
  rw [visible] at gone
  cases gone

/-! ## Meta tags -/

/-- A document in which contents have been put below a node. -/
structure Holds
    (restyled : Nat → Bool)
    (parent : Nat)
    (contents : List Content)
    (before after : Document) :
    Prop where
  /-- The document has grown. -/
  grows : before.GrowsTo restyled after
  /-- The links agree. -/
  forest : after.IsForest
  /-- What was there stands for what it stood for. -/
  content_eq : ∀ id < before.size, after.content id = before.content id
  /-- Each of the contents is found below the node. -/
  found : ∀ content ∈ contents, ∃ id ∈ after.children parent, after.content id = content

theorem holds_insertFrom
    (restyled : Nat → Bool)
    (forest : document.IsForest)
    {parent : Nat}
    (inside : parent < document.size)
    (index : Nat)
    (contents : List Content) :
    Holds restyled parent contents document (insertFrom parent index contents document) := by
  induction contents generalizing document index with
  | nil => exact ⟨.refl restyled document, forest, fun _ _ => rfl, nofun⟩
  | cons content contents inductionHypothesis =>
      have stepForest := forest.insertChild inside index content
      have size_eq : (document.insertChild parent index content).size = document.size + 1 := by
        rw [Document.insertChild_eq_attach, Document.size_attach]
      have content_eq : ∀ id, (document.insertChild parent index content).content id =
          if id = document.size then content else document.content id := by
        rw [Document.insertChild_eq_attach]
        exact Document.content_attach inside content _
      have held := inductionHypothesis stepForest (by omega) (index + 1)
      rw [insertFrom]
      refine ⟨(Document.GrowsTo.insertChild inside index content).trans held.grows, held.forest,
        fun id old => ?_, fun other member => ?_⟩
      · rw [held.content_eq id (by omega), content_eq, if_neg (Nat.ne_of_lt old)]
      · rcases List.mem_cons.mp member with rfl | rest
        · refine ⟨document.size, (held.grows.children parent).subset ?_, ?_⟩
          · rw [Document.insertChild_eq_attach, Document.children_attach inside,
              if_neg (Nat.ne_of_lt inside), if_pos rfl]
            exact List.mem_append_right _ List.mem_cons_self
          · rw [held.content_eq document.size (by omega), content_eq, if_pos rfl]
        · exact held.found other rest

/-- Nodes of other names leave the first element of a name the first one. -/
theorem findFirst?_insertFrom
    (forest : document.IsForest)
    {parent : Nat}
    (inside : parent < document.size)
    (index : Nat)
    {contents : List Content}
    {name : String}
    (unnamed : ∀ content ∈ contents, ∀ element, content = .element element → element.name ≠ name) :
    (insertFrom parent index contents document).findFirst? name = document.findFirst? name := by
  induction contents generalizing document index with
  | nil => rfl
  | cons content contents inductionHypothesis =>
      obtain ⟨here, rest⟩ := List.forall_mem_cons.mp unnamed
      have stepForest := forest.insertChild inside index content
      rw [Document.insertChild_eq_attach] at stepForest
      rw [insertFrom, Document.insertChild_eq_attach, inductionHypothesis stepForest
        (by rw [Document.size_attach]; omega) (index + 1) rest]
      exact forest.findFirst?_attach inside (perm_insert index document.size)
        (fun _ fresh => Document.filter_insert fresh index) here

/-- In a head that was given what it lacked, nothing is missing. -/
theorem missingMeta_insertFrom
    (forest : document.IsForest)
    {head : Nat}
    (inside : head < document.size) :
    missingMeta (insertFrom head 0 (missingMeta document head) document) head = [] := by
  have held := holds_insertFrom (fun _ => false) forest inside 0 (missingMeta document head)
  generalize insertFrom head 0 (missingMeta document head) document = after at held ⊢
  rw [missingMeta_eq, List.map_eq_nil_iff, List.filter_eq_nil_iff]
  intro mark listed
  rw [Bool.not_eq_true, Bool.not_eq_false', List.any_eq_true]
  cases present : (document.children head).any fun id => mark.1 (document.content id) with
  | true =>
      obtain ⟨id, member, recognised⟩ := List.any_eq_true.mp present
      refine ⟨id, (held.grows.children head).subset member, ?_⟩
      rw [held.content_eq id (forest.lt_of_mem_children member).2]
      exact recognised
  | false =>
      have missing : mark.2 ∈ missingMeta document head := by
        rw [missingMeta_eq]
        exact List.mem_map_of_mem (List.mem_filter.mpr ⟨listed, by simp [present]⟩)
      obtain ⟨id, member, content_eq⟩ := held.found mark.2 missing
      refine ⟨id, member, ?_⟩
      rw [content_eq]
      exact (headMarks_recognised mark listed).1

theorem addMetaTags_eq (document : Document) :
    addMetaTags document =
      insertFrom (ensureHead document).2 0
        (missingMeta (ensureHead document).1 (ensureHead document).2) (ensureHead document).1 := rfl

theorem isForest_ensureHead (forest : document.IsForest) : (ensureHead document).1.IsForest := by
  have inReach := headPlace_mem_ids forest
  unfold ensureHead
  split
  · exact forest
  · exact forest.insertChild (forest.lt_size_of_mem_ids forest.nonempty inReach) _ _

theorem ensureHead_lt_size (forest : document.IsForest) :
    (ensureHead document).2 < (ensureHead document).1.size :=
  Document.lt_size_of_isElement <| Document.isElement_of_isNamed <|
    Document.isNamed_of_findFirst? (findFirst?_ensureHead forest)

theorem growsTo_ensureHead (restyled : Nat → Bool) (forest : document.IsForest) :
    document.GrowsTo restyled (ensureHead document).1 := by
  have inReach := headPlace_mem_ids forest
  unfold ensureHead
  split
  · exact .refl restyled document
  · exact .insertChild (forest.lt_size_of_mem_ids forest.nonempty inReach) _ _

theorem growsTo_addMetaTags (restyled : Nat → Bool) (forest : document.IsForest) :
    document.GrowsTo restyled (addMetaTags document) :=
  (growsTo_ensureHead restyled forest).trans
    (holds_insertFrom restyled (isForest_ensureHead forest) (ensureHead_lt_size forest) 0 _).grows

/-- A document with a head goes on to have it. -/
theorem ensureHead_of_findFirst?
    {head : Nat}
    (isHead : document.findFirst? "head" = some head) :
    ensureHead document = (document, head) := by
  rw [ensureHead, isHead]

theorem addMetaTags_addMetaTags (forest : document.IsForest) :
    addMetaTags (addMetaTags document) = addMetaTags document := by
  have isHead := findFirst?_ensureHead forest
  have headedForest := isForest_ensureHead forest
  have inside := ensureHead_lt_size forest
  rw [addMetaTags_eq document]
  generalize (ensureHead document).1 = headed, (ensureHead document).2 = head
    at isHead headedForest inside ⊢
  have unnamed : ∀ content ∈ missingMeta headed head,
      ∀ element, content = .element element → element.name ≠ "head" := by
    intro content member
    rw [missingMeta_eq] at member
    obtain ⟨mark, listed, rfl⟩ := List.mem_map.mp member
    exact (headMarks_recognised mark (List.mem_filter.mp listed).1).2
  have sameHead := (findFirst?_insertFrom headedForest inside 0 unnamed).trans isHead
  rw [addMetaTags_eq, ensureHead_of_findFirst? sameHead, missingMeta_insertFrom headedForest inside,
    insertFrom]

end Page

namespace Image

/-! ## Image sizes -/

variable {document : Document}

/-- Whether the style of a node may change: it is an image that is given a size in production. -/
def isRestyled
    (document : Document)
    (resolved : Resolved)
    (production : Bool)
    (id : Nat) :
    Bool :=
  production && (unsized document).any fun image =>
    image.1 == id && (resolved.get? image.2).isSome

theorem growsTo_withSize
    {restyled production : Bool}
    (styled : production = true → restyled = true)
    (size : Size)
    (element : Element) :
    element.GrowsTo restyled (withSize production size element) := by
  refine withSize_induction (element.GrowsTo restyled) (.refl restyled element)
    (fun name _ value given grows => grows.trans (.setAttrIfMissing restyled name value given))
    (fun isProduction value given grows => ?_) size
  obtain rfl := styled isProduction
  exact grows.trans (.setAttr_style value given)

theorem growsTo_annotate
    (document : Document)
    (resolved : Resolved)
    (production : Bool) :
    document.GrowsTo (isRestyled document resolved production)
      (annotate document resolved production) := by
  refine .foldl (fun image member document => ?_) document
  split
  · next size answer =>
      refine .modifyElement document (growsTo_withSize (fun isProduction => ?_) size)
      rw [isRestyled, isProduction, Bool.true_and, List.any_eq_true]
      exact ⟨image, member, by simp [answer]⟩
  · exact .refl _ document

/-- What is unsized after sizes have been written has none that was found. -/
theorem get?_eq_none_of_mem_unsized_annotate
    (forest : document.IsForest)
    {resolved : Resolved}
    {production : Bool}
    {image : Nat × String}
    (member : image ∈ unsized (annotate document resolved production)) :
    resolved.get? image.2 = none := by
  obtain ⟨listed, later, raw, found, unsized, source, trimmed, notSkipped⟩ :=
    mem_unsized_iff.mp member
  rw [(sameLayout_annotate document resolved production).findAll_eq forest] at listed
  obtain ⟨element, content, _⟩ :=
    Document.isNamed_eq_true_iff.mp (Document.mem_findAll_iff.mp listed).2
  have before := Document.element?_eq_some_iff.mpr content
  obtain ⟨same, foundSame, spares⟩ : ∃ same, (annotate document resolved production).element?
      image.1 = some same ∧ element.Spares same :=
    spares_annotateAll document (Image.unsized document) before
  obtain rfl := Option.some.inj (foundSame.symm.trans found)
  rw [← Option.not_isSome_iff_eq_none]
  intro answer
  have isResolved : IsResolved resolved element :=
    (isResolved_iff_of_spares spares).mp ⟨raw, source, trimmed ▸ notSkipped, trimmed ▸ answer⟩
  obtain ⟨last, foundLast, _, sized⟩ := isSized_annotate listed before isResolved production
  obtain rfl := Option.some.inj (foundLast.symm.trans found)
  rw [unsized] at sized
  cases sized

theorem annotate_annotate
    (forest : document.IsForest)
    (resolved : Resolved)
    (production : Bool) :
    annotate (annotate document resolved production) resolved production =
      annotate document resolved production := by
  refine Document.foldl_eq_self fun image member => ?_
  rw [get?_eq_none_of_mem_unsized_annotate forest member]

end Image

namespace Page

/-! ## Comments -/

section Comments

variable {document : Document}

/-- A comment for authors: no condition starts its body, blanks in front aside. -/
def IsForAuthors (document : Document) (id : Nat) : Prop :=
  document.IsAttached id ∧ ∃ body, document.content id = .comment body ∧
    ∀ start ∈ ["[if", "<![endif]"], ¬start.toList <+: body.toList.dropWhile Text.isBlank

/-- A document without the comments for authors. -/
structure LacksComments (before after : Document) : Prop where
  /-- Every node is in the store. -/
  size_eq : after.size = before.size
  /-- Every node stands for what it stood for. -/
  content_eq : ∀ id, after.content id = before.content id
  /-- A comment for authors is below no node. -/
  detached : ∀ id, IsForAuthors before id → after.parent? id = none
  /-- Every other node is below its parent. -/
  parent?_eq : ∀ id, ¬IsForAuthors before id → after.parent? id = before.parent? id
  /-- The other children are in their order. -/
  children : ∀ id, (after.children id).Sublist (before.children id) ∧
    ∀ child, child ∈ after.children id ↔
      child ∈ before.children id ∧ ¬IsForAuthors before child
  /-- What hangs below the root, but not in a comment for authors, hangs there in its order. -/
  descendants : (after.descendants Document.root).Sublist (before.descendants Document.root) ∧
    ∀ id, id ∈ after.descendants Document.root ↔
      id ∈ before.descendants Document.root ∧
        ∀ comment, IsForAuthors before comment → id ∉ (before.tree comment).ids

theorem mem_authorComments_iff
    (forest : document.IsForest)
    {id : Nat} :
    id ∈ authorComments document ↔ IsForAuthors document id := by
  rw [authorComments, List.mem_filter, forest.mem_descendants_iff]
  refine and_congr_right fun _ => ?_
  unfold isAuthorComment
  cases document.content id with
  | comment body =>
      simp [isConditional, ← Text.startsWith_iff, Text.trimStart, Text.trimStartOf]
  | _ => simp

/-- Where some nodes have lost their parents, what is left hanging is what does not hang in one
of them. -/
theorem isAttached_iff_of_parent?_eq
    {Removed : Nat → Prop}
    {after : Document}
    (forest : document.IsForest)
    (removed : ∀ id, Removed id → document.IsAttached id)
    (detached : ∀ id, Removed id → after.parent? id = none)
    (parent?_eq : ∀ id, ¬Removed id → after.parent? id = document.parent? id)
    {id : Nat} :
    after.IsAttached id ↔
      document.IsAttached id ∧ ∀ top, Removed top → id ∉ (document.tree top).ids := by
  have step_iff (id parent : Nat) : after.parent? id = some parent ↔
      document.parent? id = some parent ∧ ¬Removed id := by
    by_cases isRemoved : Removed id
    · simp [detached id isRemoved, isRemoved]
    · simp [parent?_eq id isRemoved, isRemoved]
  have upwards {id parent top : Nat} (step : document.parent? id = some parent)
      (notRemoved : ¬Removed id) (isRemoved : Removed top)
      (inside : id ∈ (document.tree top).ids) : parent ∈ (document.tree top).ids := by
    rcases forest.mem_ids_iff.mp inside with rfl | below
    · exact absurd isRemoved notRemoved
    · exact forest.mem_ids_iff.mpr (below.of_parent step)
  have root_not_mem {top : Nat} (isRemoved : Removed top) :
      Document.root ∉ (document.tree top).ids := fun member =>
    Nat.not_lt_zero _ (Nat.lt_of_lt_of_le (forest.lt_of_isBelow (removed top isRemoved))
      (forest.le_of_mem_ids member))
  constructor
  · intro attached
    induction attached using Relation.TransGen.head_induction_on with
    | single step =>
        obtain ⟨below, notRemoved⟩ := (step_iff _ _).mp step
        exact ⟨.single below, fun top isRemoved inside =>
          root_not_mem isRemoved (upwards below notRemoved isRemoved inside)⟩
    | head step _ inductionHypothesis =>
        obtain ⟨below, notRemoved⟩ := (step_iff _ _).mp step
        obtain ⟨rest, outside⟩ := inductionHypothesis
        exact ⟨.head below rest, fun top isRemoved inside =>
          outside top isRemoved (upwards below notRemoved isRemoved inside)⟩
  · rintro ⟨attached, outside⟩
    induction attached using Relation.TransGen.head_induction_on with
    | single below =>
        exact .single ((step_iff _ _).mpr
          ⟨below, fun isRemoved => outside _ isRemoved (forest.self_mem_ids _)⟩)
    | head below _ inductionHypothesis =>
        refine .head ((step_iff _ _).mpr
          ⟨below, fun isRemoved => outside _ isRemoved (forest.self_mem_ids _)⟩)
          (inductionHypothesis fun top isRemoved inside => outside top isRemoved ?_)
        exact forest.mem_ids_of_mem_children inside (forest.mem_children_iff.mpr below)

theorem lacksComments_stripComments (forest : document.IsForest) :
    LacksComments document (stripComments document) := by
  have strippedForest : (stripComments document).IsForest := forest.foldl_detach _
  have parent? (id : Nat) : (stripComments document).parent? id =
      if id ∈ authorComments document then none else document.parent? id :=
    Document.parent?_foldl_detach document (authorComments document) id
  have detached : ∀ id, IsForAuthors document id → (stripComments document).parent? id = none :=
    fun id forAuthors => by
      rw [parent?, if_pos ((mem_authorComments_iff forest).mpr forAuthors)]
  have parent?_eq : ∀ id, ¬IsForAuthors document id →
      (stripComments document).parent? id = document.parent? id :=
    fun id notForAuthors => by
      rw [parent?, if_neg (mt (mem_authorComments_iff forest).mp notForAuthors)]
  have children_eq (id : Nat) : (stripComments document).children id =
      (document.children id).filter (!(authorComments document).contains ·) :=
    forest.children_foldl_detach (authorComments document) id
  have children : ∀ id, ((stripComments document).children id).Sublist (document.children id) :=
    fun id => by rw [children_eq]; exact List.filter_sublist
  refine ⟨Document.size_foldl_detach .., Document.content_foldl_detach document _, detached,
    parent?_eq, fun id => ⟨children id, fun child => ?_⟩,
    strippedForest.descendants_sublist forest children Document.root, fun id => ?_⟩
  · rw [children_eq, List.mem_filter, ← mem_authorComments_iff forest]
    simp
  · rw [strippedForest.mem_descendants_iff, forest.mem_descendants_iff]
    exact isAttached_iff_of_parent?_eq forest (fun _ forAuthors => forAuthors.1) detached parent?_eq

end Comments

/-! ## All stages -/

/-- A stage that only adds to a document, and adds nothing to its own result. -/
structure AddsOnce
    (restyled : Nat → Bool)
    (stage : Document → Document)
    (document : Document) :
    Prop where
  /-- The document has grown. -/
  grows : document.GrowsTo restyled (stage document)
  /-- The nodes below every node are in their order. -/
  descendants : ∀ top, (document.descendants top).Sublist ((stage document).descendants top)
  /-- Run again, the stage changes nothing. -/
  again : stage (stage document) = stage document

/-- What a stage grows on a forest is in the order of the forest. -/
theorem AddsOnce.of_isForest
    {restyled : Nat → Bool}
    {stage : Document → Document}
    {document : Document}
    (forest : document.IsForest)
    (grownForest : (stage document).IsForest)
    (grows : document.GrowsTo restyled (stage document))
    (again : stage (stage document) = stage document) :
    AddsOnce restyled stage document :=
  ⟨grows, forest.descendants_sublist grownForest grows.children, again⟩

/-- Whatever was read and edited, each stage that adds does so once, leaving everything that was
there but the styles of images that are given sizes in production; and of the comments those for
authors are taken away, and nothing else is. -/
theorem stages_add_once
    {document : Document}
    (reachable : document.IsReachable) :
    (∀ target, AddsOnce (fun _ => false) (applyDefaults · target) document) ∧
      AddsOnce (fun _ => false) fillEmptyCells document ∧
      AddsOnce (fun _ => false) addMetaTags document ∧
      (∀ resolved production, AddsOnce (Image.isRestyled document resolved production)
        (Image.annotate · resolved production) document) ∧
      LacksComments document (stripComments document) := by
  have forest := reachable.isForest
  have ofLayout {changed : Document} (same : document.SameLayout changed) : changed.IsForest :=
    forest.of_links same.size_eq same.parent?_eq same.children_eq
  have filled := isFilled_fillEmptyCells (fun _ => false) forest
  have held := holds_insertFrom (fun _ => false) (isForest_ensureHead forest)
    (ensureHead_lt_size forest) 0 (missingMeta (ensureHead document).1 (ensureHead document).2)
  refine ⟨fun target => .of_isForest forest (ofLayout (sameLayout_applyDefaults document target))
      (growsTo_applyDefaults document target) (applyDefaults_applyDefaults forest target),
    .of_isForest forest filled.forest filled.grows (fillEmptyCells_fillEmptyCells forest),
    .of_isForest forest held.forest (growsTo_addMetaTags _ forest)
      (addMetaTags_addMetaTags forest),
    fun resolved production => .of_isForest forest
      (ofLayout (Image.sameLayout_annotate document resolved production))
      (Image.growsTo_annotate document resolved production)
      (Image.annotate_annotate forest resolved production),
    lacksComments_stripComments forest⟩

/-- A cell with a blank in it, and a comment for authors. -/
def blankCell : Document :=
  ⟨#[⟨.root, none, [1, 3]⟩, ⟨.element ⟨"td", [], false⟩, some Document.root, [2]⟩,
    ⟨.text " ", some 1, []⟩, ⟨.comment " x ", some Document.root, []⟩]⟩

/-- The theorem at a document in which a cell is filled and a comment is taken away. -/
theorem stages_add_once_blankCell :
    blankCell.IsReachable ∧ AddsOnce (fun _ => false) fillEmptyCells blankCell ∧
      (fillEmptyCells blankCell).write = "<td> &nbsp;</td><!-- x -->" ∧
      IsForAuthors blankCell 3 ∧ LacksComments blankCell (stripComments blankCell) ∧
      (stripComments blankCell).write = "<td> </td>" := by
  have read : Document.read "<td> </td><!-- x -->" = .ok blankCell := by cbv
  obtain ⟨_, cells, _, _, comments⟩ := stages_add_once (.read read)
  exact ⟨.read read, cells, by cbv, ⟨.single rfl, " x ", rfl, by decide⟩, comments, by cbv⟩

end Page

end MailPress
