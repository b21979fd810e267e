import MailPress.Proofs.Markup.DocumentOrder
import MailPress.Proofs.Markup.Layout
import MailPress.Proofs.Markup.Reference
import MailPress.Proofs.Markup.RoundTrip

/-!
# Documents that carry a value

An attribute of one element is set to a value, and the rest of the document stays as it is. The
rest reads back when the document does with every value there that needs no escaping. So it is
for the documents that are plain throughout.
-/

namespace MailPress
namespace Markup

/-! ## Trees with changed contents -/

/-- What a node stands for, with its element changed if it is one. -/
def Content.mapElement (change : Element → Element) : Content → Content
  | .element tag => .element (change tag)
  | other => other

theorem Node.content_mapElement
    (change : Element → Element)
    (node : Node) :
    (node.mapElement change).content = node.content.mapElement change := by
  unfold Node.mapElement
  cases content : node.content <;> simp [Content.mapElement, content]

namespace Tree

mutual

/-- The tree with what its nodes stand for changed, each according to its place. -/
def mapContents (change : Nat → Content → Content) : Tree → Tree
  | .node id content children => .node id (change id content) (mapContentsOfAll change children)

/-- The trees with what their nodes stand for changed. -/
def mapContentsOfAll (change : Nat → Content → Content) : List Tree → List Tree
  | [] => []
  | tree :: trees => tree.mapContents change :: mapContentsOfAll change trees

end

theorem mapContentsOfAll_eq_map
    (change : Nat → Content → Content)
    (trees : List Tree) :
    mapContentsOfAll change trees = trees.map (mapContents change) := by
  induction trees with
  | nil => rfl
  | cons tree trees inductionHypothesis => simp [mapContentsOfAll, inductionHypothesis]

theorem isText_mapElement
    (change : Nat → Element → Element)
    (tree : Tree) :
    (tree.mapContents fun id => Content.mapElement (change id)).isText = tree.isText := by
  obtain ⟨id, content, children⟩ := tree
  cases content <;> rfl

end Tree

/-- Documents with the same links and with changed contents have trees with changed contents. -/
theorem Document.IsForest.tree_mapContents
    {document changed : Document}
    (forest : document.IsForest)
    (changedForest : changed.IsForest)
    {change : Nat → Content → Content}
    (children_eq : ∀ id, changed.children id = document.children id)
    (content_eq : ∀ id, changed.content id = change id (document.content id))
    (top : Nat) :
    changed.tree top = (document.tree top).mapContents change := by
  induction top using forest.induction with
  | node top inductionHypothesis =>
      rw [changedForest.tree_eq, forest.tree_eq, children_eq, content_eq, Tree.mapContents,
        Tree.mapContentsOfAll_eq_map, List.map_map]
      exact congrArg _ (List.map_congr_left inductionHypothesis)

/-- Changing the elements of writable trees leaves them writable when plain elements stay plain
and keep their tags. -/
theorem AreWritable.mapElement
    {trees : List Tree}
    (writable : AreWritable trees)
    {change : Nat → Element → Element}
    (keeps : ∀ id, KeepsTag (change id))
    (plain : ∀ id element, element.IsPlain → (change id element).IsPlain) :
    AreWritable (trees.map (Tree.mapContents fun id => Content.mapElement (change id))) := by
  have sameStart (trees : List Tree) :
      (trees.map (Tree.mapContents fun id => Content.mapElement (change id))).head?.any
        Tree.isText = trees.head?.any Tree.isText := by
    cases trees with
    | nil => rfl
    | cons tree trees => exact Tree.isText_mapElement change tree
  induction writable with
  | nil => exact .nil
  | text isRaw apart _ inductionHypothesis =>
      exact .text isRaw ((sameStart _).trans apart) inductionHypothesis
  | comment isBody _ inductionHypothesis => exact .comment isBody inductionHypothesis
  | @element id element children trees isPlain fits _ _ innerHypothesis inductionHypothesis =>
      rw [List.map_cons, Tree.mapContents, Tree.mapContentsOfAll_eq_map]
      obtain ⟨name, selfClosing⟩ := keeps id element
      refine .element (plain id element isPlain) ⟨?_, ?_, ?_⟩ innerHypothesis inductionHypothesis
      · rw [name, selfClosing, List.map_eq_nil_iff]
        exact fits.void
      · rw [selfClosing, List.map_eq_nil_iff]
        exact fits.closed
      · rw [name, List.length_map, List.forall_mem_map]
        simpa only [Tree.isText_mapElement] using fits.raw

/-! ## Setting a value -/

theorem setAttribute_setAttribute
    (name first second : String)
    (attributes : List Attribute) :
    setAttribute name second (setAttribute name first attributes) =
      setAttribute name second attributes := by
  induction attributes with
  | nil => simp [setAttribute]
  | cons attr attributes inductionHypothesis =>
      by_cases same : attr.name = name <;> simp [setAttribute, same, inductionHypothesis]

theorem mem_setAttribute
    {name raw : String}
    {attributes : List Attribute}
    {attr : Attribute}
    (member : attr ∈ setAttribute name raw attributes) :
    attr = ⟨name, raw⟩ ∨ attr ∈ attributes := by
  induction attributes with
  | nil => exact .inl (List.mem_singleton.mp member)
  | cons first attributes inductionHypothesis =>
      rw [setAttribute] at member
      split at member
      · next same =>
          rcases List.mem_cons.mp member with new | old
          · exact .inl (same ▸ new)
          · exact .inr (List.mem_cons_of_mem _ old)
      · rcases List.mem_cons.mp member with old | rest
        · exact .inr (old ▸ List.mem_cons_self)
        · exact (inductionHypothesis rest).imp_right (List.mem_cons_of_mem _)

theorem Element.IsPlain.setAttr
    {element : Element}
    (plain : element.IsPlain)
    {name raw : String}
    (attr : Attribute.IsPlain ⟨name, raw⟩) :
    (element.setAttr name raw).IsPlain := by
  refine ⟨plain.name, fun other member => ?_⟩
  rcases mem_setAttribute member with rfl | old
  · exact attr
  · exact plain.attributes other old

namespace Document

variable {document : Document} {id : Nat} {name : String}

/-- The document with a raw value in an attribute of one element. -/
def carry (document : Document) (id : Nat) (name raw : String) : Document :=
  document.modifyElement id (·.setAttr name raw)

theorem node_carry
    (document : Document)
    (id other : Nat)
    (name raw : String) :
    (document.carry id name raw).node other =
      (document.node other).mapElement fun element =>
        if other = id then element.setAttr name raw else element := by
  rw [carry, node_modifyElement]
  by_cases same : other = id
  · simp [same]
  · rw [if_neg same]
    simp only [if_neg same]
    unfold Node.mapElement
    split
    · next content => rw [← content]
    · rfl

theorem children_carry
    (document : Document)
    (id other : Nat)
    (name raw : String) :
    (document.carry id name raw).children other = document.children other := by
  rw [children, node_carry, Node.children_mapElement, children]

theorem content_carry
    (document : Document)
    (id other : Nat)
    (name raw : String) :
    (document.carry id name raw).content other =
      (document.content other).mapElement fun element =>
        if other = id then element.setAttr name raw else element := by
  rw [content, node_carry, Node.content_mapElement, content]

/-- The last value that is set counts. -/
theorem carry_carry
    (document : Document)
    (id : Nat)
    (name first second : String) :
    (document.carry id name first).carry id name second = document.carry id name second := by
  refine ext_node (by simp [carry]) fun other => ?_
  rw [carry, carry, carry, node_modifyElement, node_modifyElement, node_modifyElement]
  by_cases same : other = id
  · rw [if_pos same, if_pos same, if_pos same]
    unfold Node.mapElement
    cases known : (document.node other).content <;>
      simp [known, Element.setAttr, setAttribute_setAttribute]
  · rw [if_neg same, if_neg same, if_neg same]

/-- A document that is written and read comes back with the same tree. -/
def ReadsBack (document : Document) : Prop :=
  ∃ back, Document.read document.write = .ok back ∧
    (back.tree root).withoutIds = (document.tree root).withoutIds

/-- The content of a document round-trips, an attribute of an element aside: for every plain value
of that attribute, which is one that escaping leaves as it is, the document comes back from writing
and reading. One plain value would not do: a name can have a single quote in it, and then the value
decides where the tag ends. -/
def ReadsBackAround (document : Document) (id : Nat) (name : String) : Prop :=
  ∀ raw, escapeAttribute raw = raw → (document.carry id name raw).ReadsBack

end Document

/-! ## Escaped values -/

theorem escapeAttributeChar_cases (c : Char) :
    (c ∈ ['&', '"', '<'] ∧ escapeAttributeChar c ∈
        ["&amp;".toList, "&quot;".toList, "&lt;".toList]) ∨
      c ∉ ['&', '"', '<'] ∧ escapeAttributeChar c = [c] := by
  unfold escapeAttributeChar
  by_cases ampersand : c = '&'
  · exact .inl (by simp [ampersand])
  · by_cases quote : c = '"'
    · exact .inl (by simp [quote])
    · by_cases angle : c = '<'
      · exact .inl (by simp [angle])
      · exact .inr (by simp [ampersand, quote, angle])

/-- An escaped value has no double quote and no angle bracket that opens. -/
theorem not_mem_of_mem_escapeAttribute (value : String) :
    ∀ c ∈ (escapeAttribute value).toList, c ∉ ['"', '<'] := by
  have forms : (["&amp;".toList, "&quot;".toList, "&lt;".toList].all
      (·.all (· ∉ ['"', '<']))) = true := by decide
  intro c member
  rw [escapeAttribute, String.toList_ofList] at member
  obtain ⟨origin, _, inside⟩ := List.mem_flatMap.mp member
  rcases escapeAttributeChar_cases origin with ⟨_, form⟩ | ⟨plain, form⟩
  · exact of_decide_eq_true (List.all_eq_true.mp (List.all_eq_true.mp forms _ form) c inside)
  · rw [form, List.mem_singleton] at inside
    rw [inside]
    exact List.not_mem_of_not_mem_cons plain

/-- An escaped value is a prepared text. -/
theorem isPrepared_escapeAttribute (value : String) :
    IsPrepared (escapeAttribute value).toList := by
  have forms : ∀ form ∈ ["&amp;".toList, "&quot;".toList, "&lt;".toList],
      AmpersandsRefer form ∧ AnglesOpen form := by decide
  rw [escapeAttribute, String.toList_ofList]
  induction value.toList with
  | nil => exact .of_not_mem List.not_mem_nil List.not_mem_nil
  | cons c text inductionHypothesis =>
      rw [List.flatMap_cons]
      refine .append ?_ inductionHypothesis
      rcases escapeAttributeChar_cases c with ⟨_, form⟩ | ⟨plain, form⟩
      · obtain ⟨refers, opens⟩ := forms _ form
        exact ⟨refers, opens⟩
      · simp only [List.mem_cons, List.not_mem_nil, not_or, or_false] at plain
        rw [form]
        refine .of_not_mem ?_ ?_ <;> simp [Ne.symm plain.1, Ne.symm plain.2.2]

theorem isPlain_escapeAttribute
    {name : String}
    (named : IsAttributeName name)
    (value : String) :
    Attribute.IsPlain ⟨name, escapeAttribute value⟩ := by
  refine ⟨named, fun quote => ?_, isPrepared_escapeAttribute value⟩
  exact not_mem_of_mem_escapeAttribute value '"' quote List.mem_cons_self

/-- A value needs no escaping when it has no ampersand, no double quote and no angle bracket that
opens. -/
theorem escapeAttribute_eq_self_iff
    {value : String} :
    escapeAttribute value = value ↔ ∀ c ∈ value.toList, c ∉ ['&', '"', '<'] := by
  have longer (text : List Char) : text.length ≤ (text.flatMap escapeAttributeChar).length := by
    induction text with
    | nil => exact Nat.le_refl _
    | cons c text inductionHypothesis =>
        have one : 1 ≤ (escapeAttributeChar c).length := by
          rcases escapeAttributeChar_cases c with ⟨_, form⟩ | ⟨_, form⟩
          · generalize escapeAttributeChar c = letters at form
            revert letters
            decide
          · rw [form]
            exact Nat.le_refl _
        rw [List.flatMap_cons, List.length_append, List.length_cons]
        omega
  have unescaped (text : List Char) :
      text.flatMap escapeAttributeChar = text ↔ ∀ c ∈ text, c ∉ ['&', '"', '<'] := by
    induction text with
    | nil => exact iff_of_true rfl nofun
    | cons c text inductionHypothesis =>
        rw [List.flatMap_cons, List.forall_mem_cons]
        rcases escapeAttributeChar_cases c with ⟨special, form⟩ | ⟨plain, form⟩
        · refine iff_of_false (fun same => ?_) fun both => both.1 special
          have lengths := congrArg List.length same
          have more := longer text
          have two : ∀ form ∈ ["&amp;".toList, "&quot;".toList, "&lt;".toList],
              2 ≤ form.length := by decide
          have long := two _ form
          rw [List.length_append, List.length_cons] at lengths
          omega
        · rw [form, List.singleton_append, List.cons_inj_right, inductionHypothesis,
            and_iff_right plain]
  rw [← unescaped, escapeAttribute]
  constructor
  · intro same
    have lists := congrArg String.toList same
    rwa [String.toList_ofList] at lists
  · intro same
    rw [same, String.ofList_toList]

/-! ## Plain documents -/

namespace Document

variable {document : Document} {id : Nat} {name : String}

/-- A document that can be written with an empty value can be written with a plain one. -/
theorem IsWritable.carry
    (forest : document.IsForest)
    (writable : (document.carry id name "").IsWritable)
    {raw : String}
    (attr : Attribute.IsPlain ⟨name, raw⟩) :
    (document.carry id name raw).IsWritable := by
  obtain ⟨trees, tree_eq, areWritable⟩ := writable
  rw [← carry_carry document id name "" raw]
  have emptyForest : (document.carry id name "").IsForest := forest.modifyElement _ _
  have mapped := emptyForest.tree_mapContents (emptyForest.modifyElement id _)
    (fun other => children_carry (document.carry id name "") id other name raw)
    (fun other => content_carry (document.carry id name "") id other name raw) root
  refine ⟨trees.map (Tree.mapContents fun other => Content.mapElement fun element =>
    if other = id then element.setAttr name raw else element), ?_, areWritable.mapElement ?_ ?_⟩
  · rw [Document.carry, mapped, tree_eq, Tree.mapContents, Tree.mapContentsOfAll_eq_map]
    rfl
  · intro other element
    split <;> exact ⟨rfl, rfl⟩
  · intro other element plain
    split
    · exact plain.setAttr attr
    · exact plain

/-- In a document that is plain throughout, the rest reads back around every attribute. -/
theorem IsWritable.readsBackAround
    (forest : document.IsForest)
    (named : IsAttributeName name)
    (writable : (document.carry id name "").IsWritable) :
    document.ReadsBackAround id name := by
  intro raw unescaped
  have attr := isPlain_escapeAttribute named raw
  rw [unescaped] at attr
  obtain ⟨back, reads, sameTree, _⟩ := read_write_sameTree (writable.carry forest attr)
  exact ⟨back, reads, sameTree⟩

end Document

/-!
## Where a value stands in the source

In the source of a document that carries a value, the value stands between double quotes behind
the name of its attribute, and what is around does not depend on it. Preparing the source prepares
both sides and leaves a prepared value as it is.
-/

/-- An attribute with a value in double quotes, and what follows. -/
def slot (name value back : List Char) : List Char :=
  ' ' :: (name ++ '=' :: '"' :: (value ++ '"' :: back))

theorem slot_append (name value back more : List Char) :
    slot name value back ++ more = slot name value (back ++ more) := by
  simp [slot]

/-! ### Written attributes -/

theorem toList_write_of_unquoted
    {name raw : String}
    (unquoted : '"' ∉ raw.toList) :
    (Attribute.write ⟨name, raw⟩).toList = slot name.toList raw.toList [] := by
  simp [Attribute.write, Text.substitute, replaceAll_of_not_mem unquoted, slot]

/-- Written attributes do not depend on the value of one of them, but where it stands. -/
theorem exists_writeAttributes_setAttribute
    (name : String)
    (attributes : List Attribute) :
    ∃ front back, ∀ raw : String, '"' ∉ raw.toList →
      (writeAttributes (setAttribute name raw attributes)).toList =
        front ++ slot name.toList raw.toList back := by
  induction attributes with
  | nil =>
      refine ⟨[], [], fun raw unquoted => ?_⟩
      rw [setAttribute, toList_writeAttributes_cons, toList_write_of_unquoted unquoted]
      simp [writeAttributes]
  | cons attr attributes inductionHypothesis =>
      by_cases same : attr.name = name
      · refine ⟨[], (writeAttributes attributes).toList, fun raw unquoted => ?_⟩
        rw [setAttribute, if_pos same, same, toList_writeAttributes_cons,
          toList_write_of_unquoted unquoted, slot_append]
        rfl
      · obtain ⟨front, back, written⟩ := inductionHypothesis
        refine ⟨attr.write.toList ++ front, back, fun raw unquoted => ?_⟩
        rw [setAttribute, if_neg same, toList_writeAttributes_cons, written raw unquoted,
          List.append_assoc]

/-! ### Written documents -/

/-- What can have nothing below it is written without what is there. -/
theorem write_node_congr
    {content : Content}
    (holdsNone : content.holdsChildren = false)
    (id : Nat)
    (first second : List Tree) :
    (Tree.node id content first).write = (Tree.node id content second).write := by
  cases content with
  | root | element => cases holdsNone
  | text | comment | verbatim => simp only [Tree.write]

/-- A family of texts that do not depend on a value, but where it stands. -/
def HasSlot (name : List Char) (family : String → List Char) : Prop :=
  ∃ front back, ∀ raw : String, '"' ∉ raw.toList → family raw = front ++ slot name raw.toList back

theorem HasSlot.append
    {name : List Char}
    {family : String → List Char}
    (hasSlot : HasSlot name family)
    (before after : List Char) :
    HasSlot name fun raw => before ++ family raw ++ after := by
  obtain ⟨front, back, split⟩ := hasSlot
  refine ⟨before ++ front, back ++ after, fun raw unquoted => ?_⟩
  dsimp only
  rw [split raw unquoted, ← List.append_assoc, List.append_assoc, slot_append]

namespace Document

variable {document : Document} {id : Nat} {name : String}

theorem IsForest.carry
    (forest : document.IsForest)
    (id : Nat)
    (name raw : String) :
    (document.carry id name raw).IsForest :=
  forest.modifyElement id _

theorem IsForest.tree_carry_of_not_mem
    (forest : document.IsForest)
    {top : Nat}
    (absent : id ∉ (document.tree top).ids)
    (name raw : String) :
    (document.carry id name raw).tree top = document.tree top := by
  refine forest.tree_congr (forest.carry id name raw) fun other member => ?_
  have different : other ≠ id := fun same => absent (same ▸ member)
  rw [content, children, Document.carry, node_modifyElement, if_neg different, content, children]
  exact ⟨rfl, rfl⟩

/-- The text of an element has a slot for a value of its own. -/
theorem IsForest.hasSlot_write_self
    (forest : document.IsForest)
    {element : Element}
    (known : document.element? id = some element)
    (name : String) :
    HasSlot name.toList fun raw => ((document.carry id name raw).tree id).write.toList := by
  have below (raw : String) :
      (document.children id).map (document.carry id name raw).tree =
        (document.children id).map document.tree := by
    refine List.map_congr_left fun child listed => ?_
    refine forest.tree_carry_of_not_mem (fun inChild => ?_) name raw
    exact Nat.lt_irrefl _ (Nat.lt_of_lt_of_le (forest.lt_of_mem_children listed).1
      (forest.le_of_mem_ids inChild))
  have content_eq (raw : String) :
      (document.carry id name raw).content id = .element (element.setAttr name raw) := by
    have content : document.content id = .element element := element?_eq_some_iff.mp known
    rw [content_carry, content, Content.mapElement, if_pos rfl]
  have end_eq (raw : String) :
      (element.setAttr name raw).written ((document.children id).map document.tree) =
        element.written ((document.children id).map document.tree) := rfl
  obtain ⟨front, back, written⟩ := exists_writeAttributes_setAttribute name element.attributes
  refine ⟨'<' :: (element.name.toList ++ front),
    back ++ element.written ((document.children id).map document.tree), fun raw unquoted => ?_⟩
  have tag_eq : (element.setAttr name raw).tagText =
      element.name.toList ++ (front ++ slot name.toList raw.toList back) := by
    rw [← written raw unquoted]
    rfl
  dsimp only
  rw [(forest.carry id name raw).tree_eq, children_carry, content_eq, below,
    toList_write_element, tag_eq, end_eq]
  simp [slot]

/-- Of the trees below a node, one at most depends on the value. -/
theorem IsForest.exists_tree_carry
    (forest : document.IsForest)
    {top child : Nat}
    (listed : child ∈ document.children top)
    (inChild : id ∈ (document.tree child).ids)
    (name : String) :
    ∃ front back, ∀ raw, (document.carry id name raw).tree top =
      .node top (document.content top)
        (front ++ (document.carry id name raw).tree child :: back) := by
  obtain ⟨front, back, split⟩ := List.append_of_mem listed
  have nodup := List.perm_middle.nodup_iff.mp (split ▸ forest.nodup_children top)
  have others {other : Nat} (inside : other ∈ front ++ back) (raw : String) :
      (document.carry id name raw).tree other = document.tree other := by
    have different : other ≠ child := by
      rintro rfl
      exact (List.nodup_cons.mp nodup).1 inside
    have otherListed : other ∈ document.children top := by
      rw [split, List.perm_middle.mem_iff]
      exact List.mem_cons_of_mem _ inside
    exact forest.tree_carry_of_not_mem
      (fun inOther => forest.disjoint_ids otherListed listed different inOther inChild) name raw
  have above : top ≠ id := Nat.ne_of_lt
    (Nat.lt_of_lt_of_le (forest.lt_of_mem_children listed).1 (forest.le_of_mem_ids inChild))
  refine ⟨front.map document.tree, back.map document.tree, fun raw => ?_⟩
  rw [(forest.carry id name raw).tree_eq, children_carry, split, List.map_append, List.map_cons,
    List.map_congr_left fun other inFront => others (by simp [inFront]) raw,
    List.map_congr_left fun other inBack => others (by simp [inBack]) raw, content,
    Document.carry, node_modifyElement, if_neg above, content]

/-- In the text of a tree that an element belongs to, a value of the element has its slot, or it
is not written at all. -/
theorem IsForest.hasSlot_write
    (forest : document.IsForest)
    {element : Element}
    (known : document.element? id = some element)
    (name : String)
    {top : Nat}
    (member : id ∈ (document.tree top).ids) :
    HasSlot name.toList (fun raw => ((document.carry id name raw).tree top).write.toList) ∨
      ∀ first second, ((document.carry id name first).tree top).write =
        ((document.carry id name second).tree top).write := by
  induction top using forest.induction with
  | node top inductionHypothesis =>
      rw [forest.ids_tree] at member
      rcases List.mem_cons.mp member with rfl | below
      · exact .inl (forest.hasSlot_write_self known name)
      · obtain ⟨child, listed, inChild⟩ := List.mem_flatMap.mp below
        obtain ⟨front, back, tree_eq⟩ := forest.exists_tree_carry listed inChild name
        cases holds : (document.content top).holdsChildren with
        | false =>
            refine .inr fun first second => ?_
            rw [tree_eq, tree_eq]
            exact write_node_congr holds _ _ _
        | true =>
            obtain ⟨before, after, written⟩ := exists_write_node_append holds top front back
            rcases inductionHypothesis child listed inChild with hasSlot | constant
            · left
              simp only [tree_eq, written, String.toList_append]
              exact hasSlot.append _ _
            · right
              intro first second
              rw [tree_eq, tree_eq, written, written, constant first second]

end Document

/-! ### The prepared source -/

/-- Preparing a source with a slot prepares what is around the value. -/
theorem prepare_append_slot
    {name : List Char}
    (named : IsPlainWord name)
    {value : List Char}
    (prepared : IsPrepared value)
    (front back : List Char) :
    prepare (front ++ slot name value back) = prepare front ++ slot name value (prepare back) := by
  have quoted (rest : List Char) : prepare ('"' :: rest) = '"' :: prepare rest :=
    prepare_append_cons (c := '"') rfl (by decide) (by decide) [] rest
  rw [slot, prepare_append_cons rfl (by decide) (by decide),
    prepare_append_cons rfl (by decide) (by decide), quoted,
    prepare_append_cons rfl (by decide) (by decide), prepare_eq_self prepared,
    prepare_eq_self named.isPrepared, slot]

theorem withoutMark_append_slot (name value front back : List Char) :
    withoutMark (front ++ slot name value back) = withoutMark front ++ slot name value back := by
  cases front with
  | nil => rfl
  | cons c front =>
      by_cases mark : c = '\ufeff'
      · subst mark
        rfl
      · simp [withoutMark, mark]

end Markup
end MailPress
