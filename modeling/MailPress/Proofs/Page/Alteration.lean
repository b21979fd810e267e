import Mathlib.Logic.Relation
import MailPress.Proofs.Markup.Retext
import MailPress.Proofs.Page.Head

/-!
# Alterations of a page

The stages between reading a document and writing its page make few kinds of changes: they set
attributes, add elements and comments, append texts, rewrite style elements, and take comments
away. What each of these changes leaves as it is, every stage leaves as it is.

All of them keep a document orderly: bodies of style and script elements are texts, and nowhere
else does a text hold markup. None of them loses an element, and none of them takes the source
or a size from one.
-/

namespace MailPress

open Markup

namespace Markup

namespace Element

/-- The attributes of a name, the one that counts first. -/
def named (name : String) (element : Element) : List Attribute :=
  element.attributes.filter (·.name == name)

theorem attr?_eq_head? (name : String) (element : Element) :
    element.attr? name = (element.named name).head?.map Attribute.value := by
  rw [attr?, named, List.head?_filter]

theorem hasAttr_eq_isEmpty (name : String) (element : Element) :
    element.hasAttr name = !(element.named name).isEmpty := by
  rw [Bool.eq_iff_iff, hasAttr, named]
  simp [List.filter_eq_nil_iff]

theorem named_setAttr_of_ne
    {name other : String}
    (different : other ≠ name)
    (value : String)
    (element : Element) :
    (element.setAttr name value).named other = element.named other := by
  unfold named setAttr
  dsimp only
  induction element.attributes with
  | nil => simp [setAttribute, Ne.symm different]
  | cons first rest inductionHypothesis =>
      by_cases same : first.name = name
      · simp [setAttribute, same, Ne.symm different]
      · simp [setAttribute, same, List.filter_cons, inductionHypothesis]

/-- The attributes that say how large an image is. -/
def sides : List String := ["width", "height"]

/-- A later form of an element has its source, and the sizes that it had. -/
structure Spares (element later : Element) : Prop where
  /-- The name is the same. -/
  name_eq : later.name = element.name
  /-- The source is the same. -/
  source_eq : later.named "src" = element.named "src"
  /-- A size that was there has its value. -/
  sides_eq : ∀ side ∈ sides, element.hasAttr side = true → later.named side = element.named side

namespace Spares

variable {element middle later : Element}

theorem refl (element : Element) : element.Spares element :=
  ⟨rfl, rfl, fun _ _ _ => rfl⟩

theorem hasAttr
    (spares : element.Spares later)
    {side : String}
    (isSide : side ∈ sides)
    (has : element.hasAttr side = true) :
    later.hasAttr side = true := by
  rw [hasAttr_eq_isEmpty, spares.sides_eq side isSide has, ← hasAttr_eq_isEmpty, has]

theorem trans (spares : element.Spares middle) (sparesOn : middle.Spares later) :
    element.Spares later where
  name_eq := sparesOn.name_eq.trans spares.name_eq
  source_eq := sparesOn.source_eq.trans spares.source_eq
  sides_eq side isSide has :=
    (sparesOn.sides_eq side isSide (spares.hasAttr isSide has)).trans
      (spares.sides_eq side isSide has)

theorem decodedAttr?_eq (spares : element.Spares later) :
    later.decodedAttr? "src" = element.decodedAttr? "src" := by
  rw [decodedAttr?, decodedAttr?, attr?_eq_head?, attr?_eq_head?, spares.source_eq]

/-- Setting an attribute of another name takes nothing. -/
theorem setAttr
    {name : String}
    (other : name ∉ "src" :: sides)
    (value : String)
    (element : Element) :
    element.Spares (element.setAttr name value) where
  name_eq := rfl
  source_eq := by
    refine named_setAttr_of_ne ?_ value element
    rintro rfl
    exact other List.mem_cons_self
  sides_eq side isSide _ := by
    refine named_setAttr_of_ne ?_ value element
    rintro rfl
    exact other (List.mem_cons_of_mem _ isSide)

/-- Setting an attribute that is missing takes nothing, unless it is the source. -/
theorem setAttrIfMissing
    {name : String}
    (other : name ≠ "src")
    (value : String)
    (element : Element) :
    element.Spares (element.setAttrIfMissing name value) := by
  unfold Element.setAttrIfMissing
  split
  · exact .refl element
  · next missing =>
      refine ⟨rfl, named_setAttr_of_ne (Ne.symm other) value element, fun side _ has => ?_⟩
      refine named_setAttr_of_ne ?_ value element
      rintro rfl
      exact missing has

end Spares

end Element

/-- Whether what stands below a node of this content is the body of a raw text element. -/
def Content.holdsBody : Content → Bool
  | .element tag => rawTextNames.contains tag.name
  | _ => false

end Markup

namespace Page

/-! ## Orderly documents -/

/-- What may stand below a node: a body is one text after the other, and other texts hold no
markup. -/
def FitsBelow (parent content : Content) : Prop :=
  if parent.holdsBody = true then ∃ raw, content = .text raw else startsPlainly content

/-- A document in which every node may stand where it stands. -/
structure IsOrderly (document : Document) : Prop where
  /-- The links agree. -/
  forest : document.IsForest
  /-- The root stands for the document. -/
  content_root : document.content Document.root = .root
  /-- Texts and comments have nothing below them. -/
  holds : document.ParentsHold
  /-- Every node may stand below its parent. -/
  fits : ∀ {id parent}, document.parent? id = some parent →
    FitsBelow (document.content parent) (document.content id)

/-- A later form of a document has its elements in their places, and no further image. -/
structure Spares (before after : Document) : Prop where
  /-- Elements stay below their parents. -/
  parent?_eq : ∀ id, before.isElement id = true → after.parent? id = before.parent? id
  /-- Elements keep their sources and sizes. -/
  kept : ∀ id element, before.element? id = some element →
    ∃ later, after.element? id = some later ∧ element.Spares later
  /-- There is no image that was not there. -/
  old : ∀ id, after.isNamed "img" id = true → before.isNamed "img" id = true

namespace Spares

variable {before middle after : Document}

theorem refl (document : Document) : Spares document document :=
  ⟨fun _ _ => rfl, fun _ element found => ⟨element, found, .refl element⟩, fun _ => id⟩

theorem isElement
    (spares : Spares before after)
    {id : Nat}
    (isElement : before.isElement id = true) :
    after.isElement id = true := by
  obtain ⟨element, found⟩ := Option.isSome_iff_exists.mp isElement
  obtain ⟨later, foundLater, _⟩ := spares.kept id element found
  rw [Document.isElement, foundLater]
  rfl

theorem trans (spares : Spares before middle) (sparesOn : Spares middle after) :
    Spares before after where
  parent?_eq id isElement :=
    (sparesOn.parent?_eq id (spares.isElement isElement)).trans (spares.parent?_eq id isElement)
  kept id element found := by
    obtain ⟨later, foundLater, kept⟩ := spares.kept id element found
    obtain ⟨last, foundLast, keptOn⟩ := sparesOn.kept id later foundLater
    exact ⟨last, foundLast, kept.trans keptOn⟩
  old id isImage := spares.old id (sparesOn.old id isImage)

/-- Whatever hangs below the root with elements between goes on to hang there. -/
theorem mem_elements
    (spares : Spares before after)
    (orderly : IsOrderly before)
    (forest : after.IsForest)
    {id : Nat}
    (member : id ∈ before.elements) :
    id ∈ after.elements := by
  obtain ⟨attached, isElement⟩ := orderly.forest.mem_elements_iff.mp member
  refine forest.mem_elements_iff.mpr ⟨?_, spares.isElement isElement⟩
  clear member
  induction id using Nat.strongRecOn with
  | ind id inductionHypothesis =>
      obtain ⟨parent, below, isRoot | rest⟩ := attached.exists_parent
      · exact .single ((spares.parent?_eq id isElement).trans (isRoot ▸ below))
      · obtain ⟨upper, parentBelow, _⟩ := rest.exists_parent
        have parentElement : before.isElement parent = true := by
          have holds := orderly.holds below
          have fits := orderly.fits parentBelow
          rw [Document.isElement_eq_true_iff]
          cases content : before.content parent with
          | element element => exact ⟨element, rfl⟩
          | root =>
              rw [content, FitsBelow] at fits
              split at fits
              · obtain ⟨_, ⟨⟩⟩ := fits
              · exact fits.elim
          | _ => rw [content] at holds; cases holds
        exact .head ((spares.parent?_eq id isElement).trans below)
          (inductionHypothesis parent (orderly.forest.parent_lt below) rest parentElement)

end Spares

/-! ## Alterations -/

/-- What the stages add: elements and comments, but no image. -/
structure IsAddable (content : Content) : Prop where
  /-- It starts no declaration. -/
  plain : startsPlainly content
  /-- It is no image. -/
  noImage : ∀ element, content = .element element → element.name ≠ "img"

/-- One change that a stage makes. -/
inductive Alters : Document → Document → Prop
  /-- The attributes of an element change; its source and its sizes do not. -/
  | attributes
      {document : Document}
      (id : Nat)
      {change : Element → Element}
      (keeps : KeepsTag change)
      (spares : ∀ element : Element, element.Spares (change element)) :
      Alters document (document.modifyElement id change)
  /-- A node is added where markup may stand. -/
  | add
      {document : Document}
      {parent : Nat}
      (inside : parent < document.size)
      (holds : (document.content parent).holdsChildren = true)
      (noBody : (document.content parent).holdsBody = false)
      {content : Content}
      (addable : IsAddable content)
      {place : List Nat → List Nat}
      (places : ∀ children, (place children).Perm (document.size :: children)) :
      Alters document (document.attach parent content place)
  /-- A text is appended to the content of an element; it may hold markup in a body only. -/
  | text
      {document : Document}
      {parent : Nat}
      (isElement : document.isElement parent = true)
      {raw : String}
      (plain : (document.content parent).holdsBody = false → '<' ∉ raw.toList) :
      Alters document (document.appendText parent raw)
  /-- A style element is given another text. -/
  | rewrite
      {document : Document}
      {style : Nat}
      (isStyle : document.isNamed "style" style = true)
      (raw : String) :
      Alters document (document.setText style raw)
  /-- A comment is taken away. -/
  | uncomment
      {document : Document}
      {id : Nat}
      {body : String}
      (isComment : document.content id = .comment body) :
      Alters document (document.detach id)

/-- The document after some alterations. -/
abbrev Altered : Document → Document → Prop :=
  Relation.ReflTransGen Alters

theorem holdsBody_of_isNamed_style
    {document : Document}
    {style : Nat}
    (isStyle : document.isNamed "style" style = true) :
    (document.content style).holdsBody = true := by
  obtain ⟨element, content, name⟩ := Document.isNamed_eq_true_iff.mp isStyle
  rw [content, Content.holdsBody, name]
  rfl

theorem fitsBelow_withoutAttributes
    (parent content : Content) :
    FitsBelow parent content ↔ FitsBelow parent.withoutAttributes content.withoutAttributes := by
  have body : parent.withoutAttributes.holdsBody = parent.holdsBody := by cases parent <;> rfl
  rw [FitsBelow, FitsBelow, body]
  split
  · cases content <;> simp [Content.withoutAttributes]
  · cases content <;> rfl

namespace IsOrderly

variable {document : Document}

theorem of_sameLayout
    (orderly : IsOrderly document)
    {changed : Document}
    (same : document.SameLayout changed) :
    IsOrderly changed where
  forest := orderly.forest.of_links same.size_eq same.parent?_eq same.children_eq
  content_root := by
    rw [same.content_eq_of_not_element, orderly.content_root]
    rw [Document.isElement, Document.element?_eq, orderly.content_root]
    rfl
  holds {child parent} below := by
    have holds := orderly.holds (same.parent?_eq child ▸ below)
    have holds_of (content : Content) :
        content.holdsChildren = content.withoutAttributes.holdsChildren := by
      cases content <;> rfl
    rw [holds_of, same.content_eq, ← holds_of, holds]
  fits {id parent} below := by
    rw [fitsBelow_withoutAttributes, same.content_eq, same.content_eq,
      ← fitsBelow_withoutAttributes]
    exact orderly.fits (same.parent?_eq id ▸ below)

theorem attach
    (orderly : IsOrderly document)
    {parent : Nat}
    (inside : parent < document.size)
    (holds : (document.content parent).holdsChildren = true)
    {content : Content}
    (fits : FitsBelow (document.content parent) content)
    {place : List Nat → List Nat}
    (places : ∀ children, (place children).Perm (document.size :: children)) :
    IsOrderly (document.attach parent content place) := by
  have older {upper id : Nat} (below : document.parent? id = some upper) :
      upper ≠ document.size := by
    have younger := orderly.forest.parent_lt below
    have idInside := Document.lt_size_of_parent? below
    omega
  refine ⟨orderly.forest.attach inside content places, ?_, ?_, ?_⟩
  · have notNew : Document.root ≠ document.size := Nat.ne_of_lt orderly.forest.nonempty
    rw [Document.content_attach inside, if_neg notNew, orderly.content_root]
  · intro child upper below
    rw [Document.parent?_attach inside] at below
    rw [Document.content_attach inside]
    split at below
    · cases below
      rwa [if_neg (Nat.ne_of_lt inside)]
    · rw [if_neg (older below)]
      exact orderly.holds below
  · intro id upper below
    rw [Document.parent?_attach inside] at below
    rw [Document.content_attach inside, Document.content_attach inside]
    split at below
    · cases below
      rwa [if_neg (Nat.ne_of_lt inside), if_pos ‹_›]
    · rw [if_neg (older below), if_neg ‹_›]
      exact orderly.fits below

/-- A text that stays a text where it stands keeps the document orderly. -/
theorem setContent
    (orderly : IsOrderly document)
    {id : Nat}
    {before after : String}
    (isText : document.content id = .text before)
    (plain : ∀ parent, document.parent? id = some parent →
      (document.content parent).holdsBody = false → '<' ∉ before.toList → '<' ∉ after.toList) :
    IsOrderly (document.setContent id (.text after)) := by
  have inside : id < document.size := Nat.lt_of_not_le fun outside => by
    rw [Document.content_of_size_le outside] at isText
    cases isText
  have noParent {child : Nat} : document.parent? child ≠ some id := fun below => by
    have holds := orderly.holds below
    rw [isText] at holds
    cases holds
  refine ⟨orderly.forest.setContent id _, ?_, ?_, ?_⟩
  · rw [Document.content_setContent inside, if_neg, orderly.content_root]
    rintro rfl
    rw [orderly.content_root] at isText
    cases isText
  · intro child parent below
    rw [Document.parent?_setContent] at below
    rw [Document.content_setContent inside, if_neg fun same => noParent (same ▸ below)]
    exact orderly.holds below
  · intro child parent below
    rw [Document.parent?_setContent] at below
    rw [Document.content_setContent inside, Document.content_setContent inside,
      if_neg fun same => noParent (same ▸ below)]
    split
    · next same =>
        subst same
        have fits := orderly.fits below
        rw [isText] at fits
        unfold FitsBelow at *
        split
        · exact ⟨after, rfl⟩
        · next noBody =>
            rw [if_neg noBody] at fits
            exact plain parent below (by simpa using noBody) fits
    · exact orderly.fits below

theorem appendText
    (orderly : IsOrderly document)
    {parent : Nat}
    (inside : parent < document.size)
    (holds : (document.content parent).holdsChildren = true)
    {raw : String}
    (plain : (document.content parent).holdsBody = false → '<' ∉ raw.toList) :
    IsOrderly (document.appendText parent raw) := by
  rcases document.appendText_cases parent raw with ⟨last, before, listed, isText, eq⟩ | ⟨_, eq⟩
  · rw [eq]
    have below := orderly.forest.mem_children_iff.mp (List.mem_of_getLast? listed)
    refine orderly.setContent isText fun upper upperBelow noBody beforePlain => ?_
    obtain rfl := Option.some.inj (below.symm.trans upperBelow)
    rw [String.toList_append, List.mem_append, not_or]
    exact ⟨beforePlain, plain noBody⟩
  · rw [eq, Document.appendChild_eq_attach]
    refine orderly.attach inside holds ?_ fun children => List.perm_append_singleton _ children
    unfold FitsBelow
    split
    · exact ⟨raw, rfl⟩
    · next noBody => exact plain (by simpa using noBody)

theorem detach (orderly : IsOrderly document) (id : Nat) : IsOrderly (document.detach id) where
  forest := orderly.forest.detach id
  content_root := by rw [Document.content_detach, orderly.content_root]
  holds {child parent} below := by
    rw [Document.parent?_detach] at below
    rw [Document.content_detach]
    split at below
    · cases below
    · exact orderly.holds below
  fits {child parent} below := by
    rw [Document.parent?_detach] at below
    rw [Document.content_detach, Document.content_detach]
    split at below
    · cases below
    · exact orderly.fits below

theorem foldl_detach (orderly : IsOrderly document) (ids : List Nat) :
    IsOrderly (ids.foldl Document.detach document) := by
  induction ids generalizing document with
  | nil => exact orderly
  | cons id ids inductionHypothesis => exact inductionHypothesis (orderly.detach id)

end IsOrderly

namespace Alters

variable {before after : Document}

/-- Every alteration keeps a document orderly. -/
theorem isOrderly (alters : Alters before after) (orderly : IsOrderly before) :
    IsOrderly after := by
  cases alters with
  | attributes id keeps _ => exact orderly.of_sameLayout (.modifyElement before id keeps)
  | add inside holds noBody addable places =>
      refine orderly.attach inside holds ?_ places
      rw [FitsBelow, if_neg (by simp [noBody])]
      exact addable.plain
  | text isElement plain =>
      exact orderly.appendText (Document.lt_size_of_isElement isElement)
        (IsPage.holdsChildren_of_isElement isElement) plain
  | @rewrite style isStyle raw =>
      have isElement := Document.isElement_of_isNamed isStyle
      rw [Document.setText, Document.appendChild_eq_attach]
      refine (orderly.foldl_detach _).attach ?_ ?_ ?_
        fun children => List.perm_append_singleton _ children
      · rw [Document.size_foldl_detach]
        exact Document.lt_size_of_isElement isElement
      · rw [Document.content_foldl_detach]
        exact IsPage.holdsChildren_of_isElement isElement
      · rw [Document.content_foldl_detach, FitsBelow,
          if_pos (holdsBody_of_isNamed_style isStyle)]
        exact ⟨raw, rfl⟩
  | uncomment _ => exact orderly.detach _

theorem spares_attach
    {parent : Nat}
    (inside : parent < before.size)
    {content : Content}
    (addable : IsAddable content)
    (place : List Nat → List Nat) :
    Spares before (before.attach parent content place) := by
  have old {id : Nat} (isElement : before.isElement id = true) : id ≠ before.size :=
    Nat.ne_of_lt (Document.lt_size_of_isElement isElement)
  have content_eq := Document.content_attach inside content place
  refine ⟨fun id isElement => ?_, fun id element found => ⟨element, ?_, .refl element⟩,
    fun id isImage => ?_⟩
  · rw [Document.parent?_attach inside, if_neg (old isElement)]
  · have isElement : before.isElement id = true := by rw [Document.isElement, found]; rfl
    rw [Document.element?_eq, content_eq, if_neg (old isElement), ← Document.element?_eq, found]
  · rw [Document.isNamed_eq_true_iff, content_eq] at isImage
    split at isImage
    · obtain ⟨element, isNew, name⟩ := isImage
      exact absurd name (addable.noImage element isNew)
    · exact Document.isNamed_eq_true_iff.mpr isImage

/-- Changing nodes that are no elements, and taking them away, spares the elements. -/
theorem spares_of_element?_eq
    (parent?_eq : ∀ id, before.isElement id = true → after.parent? id = before.parent? id)
    (element?_eq : ∀ id, after.element? id = before.element? id) :
    Spares before after where
  parent?_eq := parent?_eq
  kept id element found := ⟨element, (element?_eq id).trans found, .refl element⟩
  old id isImage := by rwa [Document.isNamed, ← element?_eq, ← Document.isNamed]

theorem spares_appendText
    (forest : before.IsForest)
    {parent : Nat}
    (inside : parent < before.size)
    (raw : String) :
    Spares before (before.appendText parent raw) := by
  refine spares_of_element?_eq (fun id isElement => ?_) (forest.element?_appendText inside raw)
  rcases before.appendText_cases parent raw with ⟨_, _, _, _, eq⟩ | ⟨_, eq⟩
  · rw [eq, Document.parent?_setContent]
  · rw [eq, Document.appendChild_eq_attach, Document.parent?_attach inside,
      if_neg (Nat.ne_of_lt (Document.lt_size_of_isElement isElement))]

/-- Every alteration of an orderly document spares its elements. -/
theorem spares (alters : Alters before after) (orderly : IsOrderly before) :
    Spares before after := by
  cases alters with
  | attributes id keeps spares =>
      refine ⟨fun other _ => Document.parent?_modifyElement before id _ other,
        fun other element found => ?_, fun other isImage => ?_⟩
      · have node_eq := Document.node_modifyElement before id other
        by_cases same : other = id
        · refine ⟨_, ?_, spares element⟩
          rw [Document.element?_of_node_eq_mapElement ((node_eq _).trans (if_pos same)), found]
          rfl
        · refine ⟨element, ?_, .refl element⟩
          rw [Document.element?, Document.content, node_eq, if_neg same]
          exact found
      · rwa [(Document.SameLayout.modifyElement before id keeps).isNamed_eq] at isImage
  | add inside _ _ addable _ => exact spares_attach inside addable _
  | text isElement _ =>
      exact spares_appendText orderly.forest (Document.lt_size_of_isElement isElement) _
  | @rewrite style isStyle raw =>
      have inside := Document.lt_size_of_isElement (Document.isElement_of_isNamed isStyle)
      -- What hangs below a style element is its text, and no element is lost with it.
      have notBelow {id : Nat} (isElement : before.isElement id = true) :
          before.parent? id ≠ some style := fun below => by
        have fits := orderly.fits below
        rw [FitsBelow, if_pos (holdsBody_of_isNamed_style isStyle)] at fits
        obtain ⟨text, isText⟩ := fits
        obtain ⟨element, content⟩ := Document.isElement_eq_true_iff.mp isElement
        rw [isText] at content
        cases content
      refine spares_of_element?_eq (fun id isElement => ?_) fun id => ?_
      · rw [orderly.forest.parent?_setText inside,
          if_neg (Nat.ne_of_lt (Document.lt_size_of_isElement isElement)),
          if_neg (notBelow isElement)]
      · rw [Document.element?_eq, Document.content_setText inside, Document.element?_eq]
        split
        · next new => rw [Document.content_of_size_le (Nat.le_of_eq new.symm)]; rfl
        · rfl
  | @uncomment id body isComment =>
      refine spares_of_element?_eq (fun other isElement => ?_) fun other => ?_
      · rw [Document.parent?_detach, if_neg]
        rintro rfl
        obtain ⟨element, content⟩ := Document.isElement_eq_true_iff.mp isElement
        rw [isComment] at content
        cases content
      · rw [Document.element?_eq, Document.content_detach, ← Document.element?_eq]

end Alters

/-- However it is altered, an orderly document stays orderly. -/
theorem isOrderly_of_altered
    {before after : Document}
    (altered : Altered before after)
    (orderly : IsOrderly before) :
    IsOrderly after := by
  induction altered with
  | refl => exact orderly
  | tail _ alters inductionHypothesis => exact alters.isOrderly inductionHypothesis

/-- However an orderly document is altered, its elements are spared. -/
theorem spares_of_altered
    {before after : Document}
    (altered : Altered before after)
    (orderly : IsOrderly before) :
    Spares before after := by
  induction altered with
  | refl => exact .refl before
  | tail altered alters inductionHypothesis =>
      exact inductionHypothesis.trans (alters.spares (isOrderly_of_altered altered orderly))

end Page

end MailPress
