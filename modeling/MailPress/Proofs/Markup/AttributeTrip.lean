import MailPress.Proofs.Markup.MaskedDocument
import MailPress.Proofs.Markup.Carried

/-!
# Attribute values survive the trip

A value is escaped, carried by an attribute, written, read and decoded, and it is the same value.
The document around it only has to read back with values that need no escaping: an escaped value
is such a value, but for its ampersands, and these can be masked. Two masks together leave no
doubt which characters of what is read were meant.
-/

namespace MailPress
namespace Markup

/-! ## Masked values -/

/-- A value in which another character stands for every ampersand. -/
def maskText (mask : Char) (value : String) : String :=
  String.ofList (value.toList.map fun c => if c = '&' then mask else c)

theorem unmaskText_maskText (mask : Char) (value : String) :
    unmaskText mask (maskText mask value) = unmaskText mask value := by
  rw [unmaskText, maskText, String.toList_ofList, List.map_map, unmaskText]
  congr 1
  refine List.map_congr_left fun c _ => ?_
  by_cases ampersand : c = '&'
  · simp [unmask, ampersand]
  · simp [ampersand]

/-- A masked value needs no escaping when only its ampersands did. -/
theorem escapeAttribute_maskText
    {mask : Char}
    (isMask : mask ∈ masks)
    {value : String}
    (plain : ∀ c ∈ value.toList, c ∉ ['"', '<']) :
    escapeAttribute (maskText mask value) = maskText mask value := by
  have maskPlain : mask ∉ ['&', '"', '<'] := by
    rcases List.mem_pair.mp isMask with rfl | rfl <;> decide
  rw [escapeAttribute_eq_self_iff, maskText, String.toList_ofList, List.forall_mem_map]
  intro c member
  by_cases ampersand : c = '&'
  · rwa [if_pos ampersand]
  · rw [if_neg ampersand]
    exact List.not_mem_cons_of_ne_of_not_mem ampersand (plain c member)

/-! ## The sources -/

/-- Sources are alike when the values in their slots are. -/
theorem alike_slot
    {mask : Char}
    {name value other : List Char}
    (named : IsPlainWord name)
    (same : value.map (unmask mask) = other.map (unmask mask))
    (noAngle : '<' ∉ value)
    (front back : List Char) :
    Alike mask (front ++ slot name value back) (front ++ slot name other back) := by
  have inner : Alike mask (value ++ '"' :: back) (other ++ '"' :: back) :=
    .append_of_not_mem same noAngle (.refl mask _)
  refine .append_space rfl front (.append_of_not_mem rfl (named.not_mem rfl) ?_)
  exact .cons rfl (fun angle => absurd angle (by decide))
    (.cons rfl (fun angle => absurd angle (by decide)) inner)

/-! ## The documents -/

theorem map_unmask_setAttribute
    {mask : Char}
    {value other : String}
    (same : unmaskText mask value = unmaskText mask other)
    (name : String)
    (attributes : List Attribute) :
    (setAttribute name value attributes).map (Attribute.unmask mask) =
      (setAttribute name other attributes).map (Attribute.unmask mask) := by
  induction attributes with
  | nil => simp [setAttribute, Attribute.unmask, same]
  | cons attr attributes inductionHypothesis =>
      by_cases here : attr.name = name
      · simp [setAttribute, here, Attribute.unmask, same]
      · simp [setAttribute, here, inductionHypothesis]

namespace Document

variable {document : Document} {id : Nat} {name : String}

/-- Documents that carry values that are alike are alike. -/
theorem isAlike_carry
    {mask : Char}
    {value other : String}
    (same : unmaskText mask value = unmaskText mask other)
    (document : Document)
    (id : Nat)
    (name : String) :
    IsAlike mask (document.carry id name value) (document.carry id name other) := by
  refine ⟨by simp [carry], fun inner => ?_, fun inner => ?_⟩
  · rw [children_carry, children_carry]
  · rw [content_carry, content_carry]
    cases document.content inner with
    | element element =>
        dsimp only [Content.mapElement]
        split
        · simp only [Content.unmask, Element.unmask, Element.setAttr,
            map_unmask_setAttribute same]
        · rfl
    | _ => rfl

/-- Written documents that carry values that are alike are alike, once they are prepared. -/
theorem IsForest.alike_write
    (forest : document.IsForest)
    (member : id ∈ document.elements)
    (named : IsAttributeName name)
    {mask : Char}
    {value other : String}
    (same : unmaskText mask value = unmaskText mask other)
    (plain : ∀ c ∈ value.toList, c ∉ ['"', '<'])
    (otherPlain : ∀ c ∈ other.toList, c ∉ ['"', '<'])
    (prepared : IsPrepared value.toList)
    (otherPrepared : IsPrepared other.toList) :
    Alike mask (withoutMark (prepare (document.carry id name value).write.toList))
      (withoutMark (prepare (document.carry id name other).write.toList)) := by
  obtain ⟨listed, isElement⟩ := List.mem_filter.mp member
  obtain ⟨element, known⟩ := Option.isSome_iff_exists.mp isElement
  have inTree : id ∈ (document.tree root).ids := by
    rw [forest.ids_tree, ← forest.descendants_eq]
    exact List.mem_cons_of_mem _ listed
  rcases forest.hasSlot_write known name inTree with ⟨front, back, split⟩ | constant
  · have unquoted : '"' ∉ value.toList := fun quote => plain _ quote (by decide)
    have otherUnquoted : '"' ∉ other.toList := fun quote => otherPlain _ quote (by decide)
    have noAngle : '<' ∉ value.toList := fun angle => plain _ angle (by decide)
    dsimp only at split
    rw [Document.write, Document.write, split value unquoted, split other otherUnquoted,
      prepare_append_slot named.plain prepared, prepare_append_slot named.plain otherPrepared,
      withoutMark_append_slot, withoutMark_append_slot]
    exact alike_slot named.plain (String.ofList_injective same) noAngle _ _
  · rw [Document.write, Document.write, constant value other]
    exact .refl mask _

/-- Under each mask, what is read is the document that was written. -/
theorem IsForest.exists_read_unmask_eq
    (forest : document.IsForest)
    (member : id ∈ document.elements)
    (named : IsAttributeName name)
    (around : document.ReadsBackAround id name)
    {mask : Char}
    (isMask : mask ∈ masks)
    (value : String) :
    ∃ back, Document.read (document.carry id name (escapeAttribute value)).write = .ok back ∧
      (back.tree root).withoutIds.unmask mask =
        ((document.carry id name (escapeAttribute value)).tree root).withoutIds.unmask mask := by
  have plain := not_mem_of_mem_escapeAttribute value
  have prepared := isPrepared_escapeAttribute value
  generalize escapeAttribute value = escaped at plain prepared ⊢
  have unescaped := escapeAttribute_maskText isMask plain
  have same := unmaskText_maskText mask escaped
  have maskedPlain := escapeAttribute_eq_self_iff.mp unescaped
  generalize maskText mask escaped = masked at unescaped same maskedPlain
  obtain ⟨maskedBack, maskedRead, sameTree⟩ := around masked unescaped
  obtain ⟨events, reads, rfl⟩ := read_eq_ok_iff.mp maskedRead
  have maskedPrepared : IsPrepared masked.toList :=
    .of_not_mem (fun ampersand => maskedPlain _ ampersand (by decide))
      (fun angle => maskedPlain _ angle (by decide))
  have alike := forest.alike_write member named same
    (fun c inside => List.not_mem_of_not_mem_cons (maskedPlain c inside)) plain maskedPrepared
    prepared
  obtain ⟨others, otherReads, areAlike⟩ :=
    reads.exists_alike isMask alike (isPrepared_withoutMark _) (isPrepared_withoutMark _)
  have built := IsAlike.ofEvents areAlike reads.not_isSpaced
  have builtTree := built.unmask_tree_eq (IsRooted.ofEvents events).forest
    (IsRooted.ofEvents others).forest root
  have carriedTree := (isAlike_carry same document id name).unmask_tree_eq
    (forest.carry id name masked) (forest.carry id name escaped) root
  refine ⟨ofEvents others, read_eq_ok_iff.mpr ⟨others, otherReads, rfl⟩, ?_⟩
  calc ((ofEvents others).tree root).withoutIds.unmask mask
      = (((ofEvents others).tree root).unmask mask).withoutIds := Tree.unmask_withoutIds ..
    _ = (((ofEvents events).tree root).unmask mask).withoutIds := congrArg _ builtTree.symm
    _ = ((ofEvents events).tree root).withoutIds.unmask mask := (Tree.unmask_withoutIds ..).symm
    _ = ((document.carry id name masked).tree root).withoutIds.unmask mask := by rw [sameTree]
    _ = (((document.carry id name masked).tree root).unmask mask).withoutIds :=
        Tree.unmask_withoutIds ..
    _ = (((document.carry id name escaped).tree root).unmask mask).withoutIds := by
        rw [carriedTree]
    _ = ((document.carry id name escaped).tree root).withoutIds.unmask mask :=
        (Tree.unmask_withoutIds ..).symm

/-- A document reads back with every escaped value where it does with those that need no
escaping. -/
theorem ReadsBackAround.readsBack_escapeAttribute
    (around : document.ReadsBackAround id name)
    (forest : document.IsForest)
    (member : id ∈ document.elements)
    (named : IsAttributeName name)
    (value : String) :
    (document.carry id name (escapeAttribute value)).ReadsBack := by
  obtain ⟨back, read, _⟩ :=
    forest.exists_read_unmask_eq member named around (show '*' ∈ masks by decide) value
  refine ⟨back, read, Tree.eq_of_unmask_eq fun mask isMask => ?_⟩
  obtain ⟨other, otherRead, same⟩ := forest.exists_read_unmask_eq member named around isMask value
  rw [read] at otherRead
  cases otherRead
  exact same

/-- In a document that reads back, each element comes back at its place. -/
theorem ReadsBack.exists_place
    (readsBack : document.ReadsBack)
    (forest : document.IsForest)
    (member : id ∈ document.elements) :
    ∃ (back : Document) (place found : Nat),
      Document.read document.write = .ok back ∧
      (back.tree root).withoutIds = (document.tree root).withoutIds ∧
      document.elements[place]? = some id ∧ back.elements[place]? = some found ∧
      back.element? found = document.element? id := by
  obtain ⟨back, read, sameTree⟩ := readsBack
  obtain ⟨events, _, rfl⟩ := read_eq_ok_iff.mp read
  have rooted := IsRooted.ofEvents events
  have tops := sameTree
  rw [rooted.forest.tree_eq, forest.tree_eq, Tree.withoutIds, Tree.withoutIds] at tops
  have content_root : document.content root = .root :=
    (Tree.node.inj tops).2.1.symm.trans rooted.content_root
  obtain ⟨place, placed⟩ := List.mem_iff_getElem?.mp member
  obtain ⟨found, otherPlaced, element_eq⟩ := forest.exists_element_of_sameTree content_root
    rooted.forest rooted.content_root sameTree placed
  exact ⟨_, place, found, read, sameTree, placed, otherPlaced, element_eq⟩

theorem decodedAttr?_carry
    (member : id ∈ document.elements)
    (name value : String) :
    ((document.carry id name (escapeAttribute value)).element? id).bind (·.decodedAttr? name) =
      some value := by
  obtain ⟨element, known⟩ := Option.isSome_iff_exists.mp (List.mem_filter.mp member).2
  have content : document.content id = .element element := element?_eq_some_iff.mp known
  rw [element?_eq, content_carry, content, Content.mapElement, if_pos rfl]
  change Option.map decode ((element.setAttr name (escapeAttribute value)).attr? name) = some value
  rw [Element.attr?_setAttr_self, Option.map_some, decode_escapeAttribute]

/-- Every value survives: escaped and decoded it is the same, and so it is when an attribute of an
element carries it, escaped, through writing and reading, if the rest of the document reads back.
The rest does when the document is plain throughout. -/
theorem decode_read_write_escapeAttribute (value : String) :
    decode (escapeAttribute value) = value ∧
      (∀ (document : Document) (id : Nat) (name : String), document.IsForest →
        id ∈ document.elements → IsAttributeName name → document.ReadsBackAround id name →
          ∃ (back : Document) (place found : Nat),
            Document.read (document.carry id name (escapeAttribute value)).write = .ok back ∧
            (back.tree root).withoutIds =
              ((document.carry id name (escapeAttribute value)).tree root).withoutIds ∧
            document.elements[place]? = some id ∧ back.elements[place]? = some found ∧
            (back.element? found).bind (·.decodedAttr? name) = some value) ∧
      ∀ (document : Document) (id : Nat) (name : String), document.IsForest →
        IsAttributeName name → (document.carry id name "").IsWritable →
          document.ReadsBackAround id name := by
  refine ⟨decode_escapeAttribute value, fun document id name forest member named around => ?_,
    fun document id name forest named writable => writable.readsBackAround forest named⟩
  have layout := SameLayout.modifyElement document id (.setAttr name (escapeAttribute value))
  have elements_eq := layout.elements_eq forest
  have readsBack := around.readsBack_escapeAttribute forest member named value
  obtain ⟨back, place, found, read, sameTree, placed, otherPlaced, element_eq⟩ :=
    readsBack.exists_place (forest.carry id name _) (elements_eq ▸ member)
  rw [carry, elements_eq] at placed
  refine ⟨back, place, found, read, sameTree, placed, otherPlaced, ?_⟩
  rw [element_eq]
  exact decodedAttr?_carry member name value

/-- The theorem at a paragraph whose title holds references, half of one, quotes and brackets. -/
theorem decode_read_write_escapeAttribute_paragraph :
    ∃ (back : Document) (found : Nat),
      Document.read
          (((Document.empty.appendChild 0 (.element ⟨"p", [], false⟩)).appendChild 1
            (.text "t")).carry 1 "title"
              (escapeAttribute "&lt;b&amp;amp &quot\"<i>'&#38;")).write = .ok back ∧
        back.elements[0]? = some found ∧
        (back.element? found).bind (·.decodedAttr? "title") =
          some "&lt;b&amp;amp &quot\"<i>'&#38;" := by
  let document := (Document.empty.appendChild 0 (.element ⟨"p", [], false⟩)).appendChild 1
    (.text "t")
  have forest : document.IsForest := (IsForest.empty.appendChild (by decide) _).appendChild
    (by decide) _
  have elements_eq : document.elements = [1] := by
    rw [elements, descendants, forest.tree_eq, show document.children root = [1] from rfl,
      List.map_singleton, forest.tree_eq, show document.children 1 = [2] from rfl,
      List.map_singleton, forest.tree_eq]
    rfl
  have named : IsAttributeName "title" := ⟨by decide, List.all_eq_true.mp (by decide)⟩
  have titled : Element.IsPlain ⟨"p", [⟨"title", ""⟩], false⟩ := by
    refine ⟨⟨by decide, List.all_eq_true.mp (by decide)⟩, ?_⟩
    rw [List.forall_mem_singleton]
    exact ⟨named, by decide, by decide, by decide⟩
  have writable : (document.carry 1 "title" "").IsWritable := by
    have carried := forest.carry 1 "title" ""
    refine ⟨[.node 1 (.element ⟨"p", [⟨"title", ""⟩], false⟩) [.node 2 (.text "t") []]], ?_,
      .element titled ⟨by decide, by decide, by decide⟩
        (.text ⟨by decide, ⟨by decide, by decide⟩, by decide⟩ rfl .nil) .nil⟩
    rw [carried.tree_eq, show (document.carry 1 "title" "").children root = [1] from rfl,
      List.map_singleton, carried.tree_eq,
      show (document.carry 1 "title" "").children 1 = [2] from rfl, List.map_singleton,
      carried.tree_eq]
    rfl
  obtain ⟨_, trip, around⟩ :=
    decode_read_write_escapeAttribute "&lt;b&amp;amp &quot\"<i>'&#38;"
  obtain ⟨back, place, found, read, _, placed, otherPlaced, value_eq⟩ := trip document 1 "title"
    forest (by rw [elements_eq]; exact List.mem_cons_self) named
    (around document 1 "title" forest named writable)
  rw [elements_eq] at placed
  cases place with
  | zero => exact ⟨back, found, read, otherPlaced, value_eq⟩
  | succ place => cases placed

end Document

end Markup
end MailPress
