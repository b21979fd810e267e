import MailPress.Markup.Event
import MailPress.Proofs.Markup.Forest

/-!
# Building documents

What a list of events builds is a tree below the root, and new content goes below the root
or below an open element. A node that no event can reach any more keeps what it stands for
and what hangs below it.
-/

namespace MailPress
namespace Markup

/-- The element that a node of this content stands for. -/
def Content.element? : Content → Option Element
  | .element tag => some tag
  | _ => none

namespace Document

variable {document : Document}

theorem element?_eq
    (document : Document)
    (id : Nat) :
    document.element? id = (document.content id).element? := by
  unfold element?
  cases document.content id <;> rfl

/-! ## Rooted documents -/

/-- A forest that is one tree: every node hangs below the root or below an element. -/
structure IsRooted (document : Document) : Prop where
  /-- The links agree. -/
  forest : document.IsForest
  /-- The root stands for the document. -/
  content_root : document.content root = .root
  /-- Every other node has a parent. -/
  attached : document.AllAttached
  /-- Texts and comments have nothing below them. -/
  holds : document.ParentsHold

theorem content_attach
    {parent : Nat}
    (inside : parent < document.size)
    (content : Content)
    (place : List Nat → List Nat)
    (id : Nat) :
    (document.attach parent content place).content id =
      if id = document.size then content else document.content id := by
  rw [Document.content, node_attach inside]
  split
  · rfl
  · split
    · next same => rw [same, Document.content]
    · rfl

theorem content_setContent
    {id : Nat}
    (inside : id < document.size)
    (content : Content)
    (other : Nat) :
    (document.setContent id content).content other =
      if other = id then content else document.content other := by
  rw [Document.content, node_setContent]
  by_cases same : other = id
  · simp [same, inside]
  · simp [same, Document.content]

/-- A text goes to the last child when that is a text, and to a new child otherwise. -/
theorem appendText_cases
    (document : Document)
    (parent : Nat)
    (raw : String) :
    (∃ last before, (document.children parent).getLast? = some last ∧
        document.content last = .text before ∧
        document.appendText parent raw = document.setContent last (.text (before ++ raw))) ∨
      ((∀ last before, (document.children parent).getLast? = some last →
          document.content last ≠ .text before) ∧
        document.appendText parent raw = document.appendChild parent (.text raw)) := by
  unfold appendText
  cases found : (document.children parent).getLast? with
  | none => exact .inr ⟨nofun, rfl⟩
  | some last =>
      cases content : document.content last with
      | text before => exact .inl ⟨last, before, rfl, content, by simp [content]⟩
      | _ =>
          refine .inr ⟨?_, by simp [content]⟩
          rintro _ before ⟨⟩
          simp [content]

/-- Appending text adds no child elsewhere. -/
theorem children_appendText
    {parent : Nat}
    (inside : parent < document.size)
    (raw : String)
    {other : Nat}
    (different : other ≠ parent) :
    (document.appendText parent raw).children other = document.children other := by
  rcases document.appendText_cases parent raw with ⟨last, before, _, _, eq⟩ | ⟨_, eq⟩
  · rw [eq, children_setContent]
  · rw [eq, appendChild_eq_attach, children_attach inside, if_neg different]
    split
    · next new => rw [children, node_of_size_le (Nat.le_of_eq new.symm)]
    · rfl

/-- Appended text stands at the end of the last child. -/
theorem IsForest.exists_children_appendText
    (forest : document.IsForest)
    {parent : Nat}
    (inside : parent < document.size)
    (raw : String) :
    ∃ others last old, (document.appendText parent raw).children parent = others ++ [last] ∧
      (document.appendText parent raw).content last = .text (old ++ raw) := by
  rcases document.appendText_cases parent raw with ⟨last, before, listed, _, eq⟩ | ⟨_, eq⟩
  · have lastInside := (forest.lt_of_mem_children (List.mem_of_getLast? listed)).2
    obtain ⟨others, split⟩ := List.getLast?_eq_some_iff.mp listed
    refine ⟨others, last, before, ?_, ?_⟩
    · rw [eq, children_setContent, split]
    · rw [eq, content_setContent lastInside, if_pos rfl]
  · refine ⟨document.children parent, document.size, "", ?_, ?_⟩
    · rw [eq, appendChild_eq_attach, children_attach inside, if_neg (Nat.ne_of_lt inside),
        if_pos rfl]
    · rw [eq, appendChild_eq_attach, content_attach inside, if_pos rfl, String.empty_append]

/-- The first text below a node without children is a node of its own. -/
theorem appendText_of_children_eq_nil
    {parent : Nat}
    (childless : document.children parent = [])
    (raw : String) :
    document.appendText parent raw = document.appendChild parent (.text raw) := by
  simp [appendText, childless]

theorem isElement_eq_true_iff
    {id : Nat} :
    document.isElement id = true ↔ ∃ element, document.content id = .element element := by
  unfold isElement element?
  cases document.content id <;> simp

theorem isElement_attach
    {parent : Nat}
    (inside : parent < document.size)
    (content : Content)
    (place : List Nat → List Nat)
    {id : Nat}
    (isElement : document.isElement id = true) :
    (document.attach parent content place).isElement id = true := by
  obtain ⟨element, old⟩ := isElement_eq_true_iff.mp isElement
  have different : id ≠ document.size := by
    rintro rfl
    rw [Document.content, node_of_size_le (Nat.le_refl _)] at old
    cases old
  refine isElement_eq_true_iff.mpr ⟨element, ?_⟩
  rw [content_attach inside, if_neg different, old]

theorem content_of_size_le
    {id : Nat}
    (outside : document.size ≤ id) :
    document.content id = .root := by
  rw [Document.content, node_of_size_le outside]

theorem lt_size_of_isElement
    {id : Nat}
    (isElement : document.isElement id = true) :
    id < document.size := by
  apply Nat.lt_of_not_le
  intro outside
  obtain ⟨element, content⟩ := isElement_eq_true_iff.mp isElement
  rw [content_of_size_le outside] at content
  cases content

namespace IsRooted

theorem empty : IsRooted empty := by
  refine ⟨.empty, rfl, ?_, ?_⟩
  · intro id inside notRoot
    exact absurd (Nat.lt_one_iff.mp inside) notRoot
  · intro child parent below
    have inside := lt_size_of_parent? below
    obtain rfl := Nat.lt_one_iff.mp inside
    cases below

theorem attach
    (rooted : document.IsRooted)
    {parent : Nat}
    (inside : parent < document.size)
    (parentHolds : (document.content parent).holdsChildren = true)
    (content : Content)
    {place : List Nat → List Nat}
    (places : ∀ children, (place children).Perm (document.size :: children)) :
    (document.attach parent content place).IsRooted := by
  have forest := rooted.forest
  have root_ne_size : root ≠ document.size := Nat.ne_of_lt forest.nonempty
  refine ⟨forest.attach inside content places, ?_, ?_, ?_⟩
  · rw [content_attach inside, if_neg root_ne_size, rooted.content_root]
  · intro id idInside notRoot
    rw [parent?_attach inside]
    split
    · exact ⟨parent, rfl⟩
    · next old =>
        rw [size_attach] at idInside
        exact rooted.attached id (by omega) notRoot
  · intro child other below
    have otherInside : other < document.size := by
      rw [parent?_attach inside] at below
      split at below
      · cases below
        exact inside
      · exact Nat.lt_trans (forest.parent_lt below) (lt_size_of_parent? below)
    rw [content_attach inside, if_neg (Nat.ne_of_lt otherInside)]
    rw [parent?_attach inside] at below
    split at below
    · cases below
      exact parentHolds
    · exact rooted.holds below

theorem appendChild
    (rooted : document.IsRooted)
    {parent : Nat}
    (inside : parent < document.size)
    (parentHolds : (document.content parent).holdsChildren = true)
    (content : Content) :
    (document.appendChild parent content).IsRooted := by
  rw [appendChild_eq_attach]
  apply rooted.attach inside parentHolds content
  intro children
  exact List.perm_append_singleton document.size children

/-- Changing a node keeps a document rooted when the node goes on to hold its children. -/
theorem setContent
    (rooted : document.IsRooted)
    {id : Nat}
    (inside : id < document.size)
    (notRoot : id ≠ root)
    {content : Content}
    (holds : (document.content id).holdsChildren = true → content.holdsChildren = true) :
    (document.setContent id content).IsRooted := by
  refine ⟨rooted.forest.setContent id content, ?_, ?_, ?_⟩
  · rw [content_setContent inside, if_neg (Ne.symm notRoot), rooted.content_root]
  · intro other otherInside otherNotRoot
    rw [parent?_setContent]
    exact rooted.attached other (by simpa using otherInside) otherNotRoot
  · intro child parent below
    rw [parent?_setContent] at below
    rw [content_setContent inside]
    split
    · next same => exact holds (same ▸ rooted.holds below)
    · exact rooted.holds below

theorem appendText
    (rooted : document.IsRooted)
    {parent : Nat}
    (inside : parent < document.size)
    (parentHolds : (document.content parent).holdsChildren = true)
    (raw : String) :
    (document.appendText parent raw).IsRooted := by
  rcases appendText_cases document parent raw with
    ⟨last, before, found, content, eq⟩ | ⟨_, eq⟩
  · rw [eq]
    have younger := rooted.forest.lt_of_mem_children (List.mem_of_getLast? found)
    refine rooted.setContent younger.2 (Nat.ne_of_gt (Nat.zero_lt_of_lt younger.1)) ?_
    rw [content]
    exact nofun
  · rw [eq]
    exact rooted.appendChild inside parentHolds _

end IsRooted

end Document

/-! ## Taking events -/

namespace Building

open Document

variable {building : Building}

/-- The document is rooted, and elements are open. -/
structure IsSound (building : Building) : Prop where
  /-- The document so far is one tree. -/
  rooted : building.document.IsRooted
  /-- What is open is an element. -/
  opened : ∀ id ∈ building.opened, building.document.isElement id = true

/-- The start of building. -/
theorem IsSound.start : IsSound ⟨Document.empty, []⟩ :=
  ⟨.empty, nofun⟩

theorem top_eq (building : Building) :
    building.top = root ∨ building.top ∈ building.opened := by
  unfold top
  cases building.opened with
  | nil => exact .inl rfl
  | cons id opened => exact .inr List.mem_cons_self

theorem IsSound.top_lt_size (sound : building.IsSound) :
    building.top < building.document.size := by
  rcases building.top_eq with same | member
  · rw [same]
    exact sound.rooted.forest.nonempty
  · exact lt_size_of_isElement (sound.opened _ member)

theorem IsSound.holdsChildren_top (sound : building.IsSound) :
    (building.document.content building.top).holdsChildren = true := by
  rcases building.top_eq with same | member
  · rw [same, sound.rooted.content_root]
    rfl
  · obtain ⟨element, content⟩ := isElement_eq_true_iff.mp (sound.opened _ member)
    rw [content]
    rfl

theorem IsSound.add
    (sound : building.IsSound)
    (content : Content) :
    (building.add content).IsSound := by
  refine ⟨sound.rooted.appendChild sound.top_lt_size sound.holdsChildren_top content, ?_⟩
  intro id member
  have wasElement := sound.opened id member
  have old := Nat.ne_of_lt (lt_size_of_isElement wasElement)
  rw [isElement_eq_true_iff] at wasElement ⊢
  rwa [Building.add, appendChild_eq_attach, content_attach sound.top_lt_size, if_neg old]

theorem IsSound.appendText
    (sound : building.IsSound)
    (raw : String) :
    IsSound { building with document := building.document.appendText building.top raw } := by
  refine ⟨sound.rooted.appendText sound.top_lt_size sound.holdsChildren_top raw, ?_⟩
  intro id member
  have wasElement := sound.opened id member
  rw [isElement_eq_true_iff] at wasElement ⊢
  obtain ⟨element, content⟩ := wasElement
  refine ⟨element, ?_⟩
  rcases appendText_cases building.document building.top raw with
    ⟨last, before, found, lastContent, eq⟩ | ⟨_, eq⟩
  · have different : id ≠ last := by
      rintro rfl
      rw [content] at lastContent
      cases lastContent
    have younger := sound.rooted.forest.lt_of_mem_children (List.mem_of_getLast? found)
    dsimp only
    rw [eq, content_setContent younger.2, if_neg different, content]
  · have old := Nat.ne_of_lt (lt_size_of_isElement (isElement_eq_true_iff.mpr ⟨element, content⟩))
    dsimp only
    rw [eq, appendChild_eq_attach, content_attach sound.top_lt_size, if_neg old, content]

theorem finish_document
    (building : Building)
    (name : String) :
    (building.finish name).document = building.document := by
  unfold finish
  split <;> rfl

theorem finish_opened_suffix
    (building : Building)
    (name : String) :
    (building.finish name).opened <:+ building.opened := by
  unfold finish
  split
  · exact List.suffix_rfl
  · next closed outer found =>
      have whole := List.dropWhile_suffix (fun id => !building.document.isNamed name id)
        (l := building.opened)
      rw [found] at whole
      exact (List.suffix_cons closed outer).trans whole

theorem finish_opened_subset
    (building : Building)
    (name : String) :
    (building.finish name).opened ⊆ building.opened :=
  (building.finish_opened_suffix name).subset

theorem IsSound.finish
    (sound : building.IsSound)
    (name : String) :
    (building.finish name).IsSound := by
  refine ⟨?_, ?_⟩
  · rw [finish_document]
    exact sound.rooted
  · intro id member
    rw [finish_document]
    exact sound.opened id (building.finish_opened_subset name member)

theorem IsSound.take
    (sound : building.IsSound)
    (event : Event) :
    (building.take event).IsSound := by
  cases event with
  | start element =>
      have grown := sound.add (.element element)
      unfold Building.take
      dsimp only
      split
      · exact grown
      · refine ⟨grown.rooted, ?_⟩
        intro id member
        rcases List.mem_cons.mp member with rfl | member
        · rw [isElement_eq_true_iff]
          refine ⟨element, ?_⟩
          dsimp only [Building.add]
          rw [appendChild_eq_attach, content_attach sound.top_lt_size, if_pos rfl]
        · exact grown.opened id member
  | empty element => exact sound.add _
  | finish name => exact sound.finish name
  | text raw => exact sound.appendText raw
  | reference name => exact sound.appendText _
  | comment body => exact sound.add _
  | cdata body => exact sound.add _
  | instruction body => exact sound.add _
  | declaration => exact sound

theorem IsSound.foldl
    (sound : building.IsSound)
    (events : List Event) :
    (events.foldl Building.take building).IsSound := by
  induction events generalizing building with
  | nil => exact sound
  | cons event events inductionHypothesis => exact inductionHypothesis (sound.take event)

/-- Closing the innermost element by its name opens what is around it. -/
theorem finish_self
    {id : Nat}
    {opened : List Nat}
    {element : Element}
    (top : building.opened = id :: opened)
    (content : building.document.content id = .element element) :
    building.finish element.name = { building with opened := opened } := by
  have named : building.document.isNamed element.name id = true := by
    simp [isNamed, element?, content]
  unfold finish
  rw [top, List.dropWhile_cons_of_neg]
  simpa using named

theorem take_start
    (building : Building)
    {element : Element}
    (notVoid : isVoid element.name = false) :
    building.take (.start element) =
      ⟨building.document.appendChild building.top (.element element),
        building.document.size :: building.opened⟩ := by
  simp [Building.take, notVoid, add]

/-! ## Settled nodes -/

/-- Taking an event adds a node or a text below the top, if it changes the document at all. -/
theorem take_cases (building : Building) (event : Event) :
    (∃ content, (building.take event).document =
        building.document.appendChild building.top content) ∨
      (∃ raw, (building.take event).document =
        building.document.appendText building.top raw) ∨
      (building.take event).document = building.document := by
  cases event with
  | start element =>
      refine .inl ⟨.element element, ?_⟩
      unfold Building.take
      dsimp only
      split <;> rfl
  | empty | comment | cdata | instruction => exact .inl ⟨_, rfl⟩
  | text | reference => exact .inr (.inl ⟨_, rfl⟩)
  | finish name => exact .inr (.inr (building.finish_document name))
  | declaration => exact .inr (.inr rfl)

theorem take_opened_subset (building : Building) (event : Event) :
    (building.take event).opened ⊆ building.document.size :: building.opened := by
  cases event with
  | start element =>
      unfold Building.take
      dsimp only
      split
      · exact List.subset_cons_self _ _
      · exact List.Subset.refl _
  | finish name =>
      exact List.Subset.trans (building.finish_opened_subset name) (List.subset_cons_self _ _)
  | _ => exact List.subset_cons_self _ _

theorem size_le_take (building : Building) (event : Event) :
    building.document.size ≤ (building.take event).document.size := by
  rcases building.take_cases event with ⟨content, eq⟩ | ⟨raw, eq⟩ | eq
  · simp [eq, appendChild_eq_attach]
  · rw [eq]
    rcases appendText_cases building.document building.top raw with ⟨_, _, _, _, eq⟩ | ⟨_, eq⟩
    · simp [eq]
    · simp [eq, appendChild_eq_attach]
  · exact Nat.le_of_eq (congrArg size eq.symm)

/-- No content goes below a node any more. -/
def IsShut (building : Building) (id : Nat) : Prop :=
  id ≠ root ∧ id ∉ building.opened

/-- A node that is shut, and is not a text that grows while its parent is open. -/
structure IsSettled (building : Building) (id : Nat) : Prop where
  /-- The node exists. -/
  inside : id < building.document.size
  /-- Nothing goes below the node. -/
  shut : building.IsShut id
  /-- Nothing goes below the parent of a text. -/
  text : ∀ raw, building.document.content id = .text raw →
    ∃ parent, building.document.parent? id = some parent ∧ building.IsShut parent

theorem IsShut.take
    {id : Nat}
    (shut : building.IsShut id)
    (inside : id < building.document.size)
    (event : Event) :
    (building.take event).IsShut id := by
  refine ⟨shut.1, ?_⟩
  intro member
  rcases List.mem_cons.mp (building.take_opened_subset event member) with new | old
  · exact absurd new (Nat.ne_of_lt inside)
  · exact shut.2 old

theorem IsShut.ne_top
    {id : Nat}
    (shut : building.IsShut id) :
    id ≠ building.top := by
  rintro rfl
  rcases building.top_eq with same | member
  · exact shut.1 same
  · exact shut.2 member

/-- A settled node stays as it is, whatever comes. -/
theorem IsSettled.node_take
    {id : Nat}
    (settled : building.IsSettled id)
    (sound : building.IsSound)
    (event : Event) :
    (building.take event).document.node id = building.document.node id := by
  have old := Nat.ne_of_lt settled.inside
  have appended (content : Content) :
      (building.document.appendChild building.top content).node id =
        building.document.node id := by
    rw [appendChild_eq_attach, node_attach sound.top_lt_size, if_neg old,
      if_neg settled.shut.ne_top]
  rcases building.take_cases event with ⟨content, eq⟩ | ⟨raw, eq⟩ | eq
  · rw [eq, appended]
  · rw [eq]
    rcases appendText_cases building.document building.top raw with
      ⟨last, before, found, content, eq⟩ | ⟨_, eq⟩
    · have different : id ≠ last := by
        rintro rfl
        obtain ⟨parent, below, parentShut⟩ := settled.text before content
        have listed := sound.rooted.forest.mem_children_iff.mp (List.mem_of_getLast? found)
        rw [below] at listed
        exact parentShut.ne_top (Option.some.inj listed)
      rw [eq, node_setContent, if_neg (fun both => different both.1)]
    · rw [eq, appended]
  · rw [eq]

theorem IsSettled.take
    {id : Nat}
    (settled : building.IsSettled id)
    (sound : building.IsSound)
    (event : Event) :
    (building.take event).IsSettled id := by
  have sameNode := settled.node_take sound event
  refine ⟨?_, settled.shut.take settled.inside event, ?_⟩
  · exact Nat.lt_of_lt_of_le settled.inside (building.size_le_take event)
  · intro raw content
    rw [Document.content, sameNode] at content
    obtain ⟨parent, below, parentShut⟩ := settled.text raw content
    have parentInside := Nat.lt_trans (sound.rooted.forest.parent_lt below) settled.inside
    refine ⟨parent, ?_, parentShut.take parentInside event⟩
    rw [parent?, sameNode]
    exact below

theorem IsSettled.foldl
    {id : Nat}
    (settled : building.IsSettled id)
    (sound : building.IsSound)
    (events : List Event) :
    (events.foldl Building.take building).document.node id = building.document.node id := by
  induction events generalizing building with
  | nil => rfl
  | cons event events inductionHypothesis =>
      rw [List.foldl_cons, inductionHypothesis (settled.take sound event) (sound.take event),
        settled.node_take sound event]

end Building

theorem Document.IsRooted.ofEvents (events : List Event) : (Document.ofEvents events).IsRooted :=
  (Building.IsSound.start.foldl events).rooted

end Markup
end MailPress
