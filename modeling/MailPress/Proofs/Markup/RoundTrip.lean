import MailPress.Proofs.Markup.Growth
import MailPress.Proofs.Markup.RawText

/-!
# Written documents are read back

A document of elements, texts and comments is written and read back as the same tree, when
its names are plain and its texts, comments and values stand for themselves. The source is
then prepared already, so that preparing it changes nothing, and each part of it is read
into the events that build the part again.
-/

namespace MailPress
namespace Markup

/-! ## Documents that can be written -/

/-- A raw text that stands for itself between markup. -/
structure IsRawText (raw : String) : Prop where
  /-- There is a character. -/
  nonempty : raw.toList ≠ []
  /-- No markup starts in the text, and its ampersands start references. -/
  isText : IsText raw.toList
  /-- The text has no byte order mark. -/
  noMark : '\ufeff' ∉ raw.toList

/-- A body that stands for itself in a comment. -/
structure IsCommentBody (body : String) : Prop where
  /-- The body does not end the comment. -/
  unclosed : Text.occursIn ['-', '-', '>'] body.toList = false
  /-- The body is a prepared text. -/
  prepared : IsPrepared body.toList

/-- What an element requires of the trees below it. -/
structure Element.Fits (element : Element) (children : List Tree) : Prop where
  /-- A void element has no children and no slash. -/
  void : isVoid element.name = true → children = [] ∧ element.selfClosing = false
  /-- An element that was written closed has no children. -/
  closed : element.selfClosing = true → children = []
  /-- A raw text element has at most one child, and that is a text. -/
  raw : element.name ∈ rawTextNames →
    children.length ≤ 1 ∧ ∀ child ∈ children, child.isText = true

/-- Trees that can be written one after another and read back. -/
inductive AreWritable : List Tree → Prop
  | nil : AreWritable []
  | text
      {id : Nat}
      {raw : String}
      {trees : List Tree}
      (isRaw : IsRawText raw)
      (apart : trees.head?.any Tree.isText = false)
      (rest : AreWritable trees) :
      AreWritable (.node id (.text raw) [] :: trees)
  | comment
      {id : Nat}
      {body : String}
      {trees : List Tree}
      (isBody : IsCommentBody body)
      (rest : AreWritable trees) :
      AreWritable (.node id (.comment body) [] :: trees)
  | element
      {id : Nat}
      {element : Element}
      {children trees : List Tree}
      (plain : element.IsPlain)
      (fits : element.Fits children)
      (inner : AreWritable children)
      (rest : AreWritable trees) :
      AreWritable (.node id (.element element) children :: trees)

/-! ## The written text -/

theorem toList_writeTrees_cons
    (tree : Tree)
    (trees : List Tree) :
    (writeTrees (tree :: trees)).toList = tree.write.toList ++ (writeTrees trees).toList := by
  rw [writeTrees, String.toList_append]

theorem toList_write_comment
    (id : Nat)
    (body : String)
    (children : List Tree) :
    (Tree.node id (.comment body) children).write.toList =
      '<' :: '!' :: '-' :: '-' :: (body.toList ++ ['-', '-', '>']) := by
  simp [Tree.write]

/-- The end of a written element: a slash, nothing, or its children and an end tag. -/
def Element.written (element : Element) (children : List Tree) : List Char :=
  if children.isEmpty && element.selfClosing && !isVoid element.name then ['/', '>']
  else if children.isEmpty && isVoid element.name then ['>']
  else '>' :: ((writeTrees children).toList ++ '<' :: '/' :: (element.name.toList ++ ['>']))

theorem toList_write_element
    (id : Nat)
    (element : Element)
    (children : List Tree) :
    (Tree.node id (.element element) children).write.toList =
      '<' :: (element.tagText ++ element.written children) := by
  unfold Element.written Element.tagText
  rw [Tree.write]
  split
  · simp
  · split <;> simp

theorem exists_write_eq_angle
    {tree : Tree}
    {trees : List Tree}
    (writable : AreWritable (tree :: trees))
    (notText : tree.isText = false) :
    ∃ rest, tree.write.toList = '<' :: rest := by
  cases writable with
  | text => cases notText
  | comment => exact ⟨_, toList_write_comment ..⟩
  | element => exact ⟨_, toList_write_element ..⟩

theorem AreWritable.startsApart
    {trees : List Tree}
    (writable : AreWritable trees)
    (notText : trees.head?.any Tree.isText = false)
    {more : List Char}
    (apart : StartsApart more) :
    StartsApart ((writeTrees trees).toList ++ more) := by
  cases trees with
  | nil => exact apart
  | cons tree trees =>
      obtain ⟨rest, written⟩ := exists_write_eq_angle writable notText
      rw [toList_writeTrees_cons, written]
      exact .inr rfl

theorem isPrepared_cons
    {c : Char}
    (notAmpersand : c ≠ '&')
    (notAngle : c ≠ '<')
    {text : List Char}
    (prepared : IsPrepared text) :
    IsPrepared (c :: text) :=
  ⟨⟨fun same => absurd same notAmpersand, prepared.refers⟩,
    ⟨fun same => absurd same notAngle, prepared.opens⟩⟩

theorem isPrepared_angle
    {c : Char}
    (opens : opensMarkup c = true)
    {text : List Char}
    (prepared : IsPrepared (c :: text)) :
    IsPrepared ('<' :: c :: text) :=
  ⟨⟨nofun, prepared.refers⟩, ⟨fun _ => opens, prepared.opens⟩⟩

theorem IsPlainWord.isPrepared
    {word : List Char}
    (plain : IsPlainWord word) :
    IsPrepared word :=
  .of_not_mem (plain.not_mem rfl) (plain.not_mem rfl)

theorem isPrepared_writeAttributes
    {attributes : List Attribute}
    (plain : ∀ attr ∈ attributes, attr.IsPlain) :
    IsPrepared (writeAttributes attributes).toList := by
  induction attributes with
  | nil => exact .of_not_mem List.not_mem_nil List.not_mem_nil
  | cons attr attributes inductionHypothesis =>
      obtain ⟨here, rest⟩ := List.forall_mem_cons.mp plain
      rw [toList_writeAttributes_cons, here.toList_write]
      refine .append (.append ?_ ?_) (inductionHypothesis rest)
      · exact isPrepared_cons (by decide) (by decide) here.name.plain.isPrepared
      · refine isPrepared_cons (by decide) (by decide) (.append ?_ ?_)
        · exact isPrepared_cons (by decide) (by decide) here.prepared
        · exact .of_not_mem (by decide) (by decide)

theorem IsElementName.exists_eq_cons
    {name : String}
    (wellFormed : IsElementName name) :
    ∃ c rest, name.toList = c :: rest ∧ opensMarkup c = true := by
  have start := wellFormed.start
  cases name_eq : name.toList with
  | nil => simp [name_eq] at start
  | cons c rest =>
      refine ⟨c, rest, rfl, ?_⟩
      rw [name_eq] at start
      have small : ('a' ≤ c && c ≤ 'z') = true := start
      simp [opensMarkup, Text.isAsciiLetter, small]

theorem IsElementName.isPrepared_close
    {name : String}
    (wellFormed : IsElementName name) :
    IsPrepared ('<' :: '/' :: (name.toList ++ ['>'])) := by
  apply isPrepared_angle rfl
  apply isPrepared_cons (by decide) (by decide)
  exact .append wellFormed.plain.isPrepared (.of_not_mem (by decide) (by decide))

theorem Element.IsPlain.isPrepared_open
    {element : Element}
    (plain : element.IsPlain)
    {rest : List Char}
    (prepared : IsPrepared rest) :
    IsPrepared ('<' :: (element.tagText ++ rest)) := by
  obtain ⟨c, name, name_eq, opens⟩ := plain.name.exists_eq_cons
  have text_eq : element.tagText ++ rest =
      c :: (name ++ (writeAttributes element.attributes).toList ++ rest) := by
    rw [Element.tagText, name_eq]
    rfl
  have tag := (plain.name.plain.isPrepared.append
    (isPrepared_writeAttributes plain.attributes)).append prepared
  rw [text_eq]
  apply isPrepared_angle opens
  rwa [name_eq] at tag

theorem Element.isPrepared_written
    {element : Element}
    (wellFormed : IsElementName element.name)
    {children : List Tree}
    (prepared : IsPrepared (writeTrees children).toList) :
    IsPrepared (element.written children) := by
  unfold Element.written
  split
  · exact .of_not_mem (by decide) (by decide)
  · split
    · exact .of_not_mem (by decide) (by decide)
    · apply isPrepared_cons (by decide) (by decide)
      exact .append prepared wellFormed.isPrepared_close

/-- What is written is prepared. -/
theorem AreWritable.isPrepared
    {trees : List Tree}
    (writable : AreWritable trees) :
    IsPrepared (writeTrees trees).toList := by
  induction writable with
  | nil => exact .of_not_mem List.not_mem_nil List.not_mem_nil
  | text isRaw _ _ inductionHypothesis =>
      rw [toList_writeTrees_cons]
      exact .append isRaw.isText.isPrepared inductionHypothesis
  | comment isBody _ inductionHypothesis =>
      rw [toList_writeTrees_cons, toList_write_comment]
      refine .append (isPrepared_angle rfl ?_) inductionHypothesis
      apply isPrepared_cons (by decide) (by decide)
      apply isPrepared_cons (by decide) (by decide)
      apply isPrepared_cons (by decide) (by decide)
      exact .append isBody.prepared (.of_not_mem (by decide) (by decide))
  | element plain fits _ _ innerHypothesis inductionHypothesis =>
      rw [toList_writeTrees_cons, toList_write_element]
      exact .append (plain.isPrepared_open (Element.isPrepared_written plain.name innerHypothesis))
        inductionHypothesis

/-! ## Reading what was written -/

/-- The first mark that ends a comment stands behind its body, even when that ends in dashes. -/
theorem IsCommentBody.splitOnce_append
    {body : String}
    (isBody : IsCommentBody body)
    (rest : List Char) :
    Text.splitOnce ['-', '-', '>'] (body.toList ++ '-' :: '-' :: '>' :: rest) =
      some (body.toList, rest) := by
  have unclosed : Text.splitOnce ['-', '-', '>'] body.toList = none := by
    simpa [Text.occursIn] using isBody.unclosed
  generalize body.toList = text at unclosed ⊢
  induction text with
  | nil => simp [Text.splitOnce, Text.dropStart?]
  | cons c text inductionHypothesis =>
      rw [Text.splitOnce] at unclosed
      split at unclosed
      · cases unclosed
      · next notHere =>
          have later := inductionHypothesis (Option.map_eq_none_iff.mp unclosed)
          have notHereLonger : Text.dropStart? ['-', '-', '>']
              (c :: text ++ '-' :: '-' :: '>' :: rest) = none := by
            cases text with
            | nil => simp [Text.dropStart?]
            | cons second text =>
                cases text with
                | nil => simp [Text.dropStart?]
                | cons third text =>
                    rw [Text.dropStart?_append (by simp), notHere]
                    rfl
          rw [List.cons_append, Text.splitOnce, ← List.cons_append, notHereLonger]
          simp [later]

/-- The events restore the trees: they are read from the written trees, and they build them. -/
structure Restores (trees : List Tree) (events : List Event) : Prop where
  /-- The events are what the written trees are read into, whatever follows. -/
  reads : ∀ more moreEvents, StartsApart more → ReadsAs more moreEvents →
    ReadsAs ((writeTrees trees).toList ++ more) (events ++ moreEvents)
  /-- The events build the trees. -/
  builds : Builds trees events

theorem Restores.cons
    {tree : Tree}
    {trees : List Tree}
    {events moreEvents : List Event}
    (writable : AreWritable trees)
    (apart : tree.isText = true → trees.head?.any Tree.isText = false)
    (reads : ∀ more moreEvents, (tree.isText = true → StartsApart more) →
      ReadsAs more moreEvents → ReadsAs (tree.write.toList ++ more) (events ++ moreEvents))
    (builds : Builds [tree] events)
    (restores : Restores trees moreEvents) :
    Restores (tree :: trees) (events ++ moreEvents) := by
  refine ⟨?_, builds.cons restores.builds apart⟩
  intro more finalEvents moreApart moreReads
  rw [toList_writeTrees_cons, List.append_assoc, List.append_assoc]
  apply reads
  · intro isText
    exact writable.startsApart (apart isText) moreApart
  · exact restores.reads more finalEvents moreApart moreReads

/-- The events restore one element, whatever follows it. -/
structure RestoresElement
    (element : Element)
    (children : List Tree)
    (events : List Event) : Prop where
  /-- The events are what the written element is read into. -/
  reads : ∀ more moreEvents, ReadsAs more moreEvents →
    ReadsAs ('<' :: (element.tagText ++ (element.written children ++ more)))
      (events ++ moreEvents)
  /-- The events build the element. -/
  builds : ∀ id, Builds [.node id (.element element) children] events

section Elements

open Building (rawTextEvents)

variable {element : Element} {children : List Tree}

theorem restoresElement_of_closed
    (plain : element.IsPlain)
    (fits : element.Fits children)
    (closed : element.selfClosing = true) :
    RestoresElement element children [.empty element] := by
  have notVoid : isVoid element.name = false := by
    rw [← Bool.not_eq_true]
    intro void
    rw [(fits.void void).2] at closed
    cases closed
  obtain rfl := fits.closed closed
  have written : element.written [] = ['/', '>'] := by simp [Element.written, closed, notVoid]
  have element_eq : readElement true element.tagText = element := by
    rw [plain.readElement_tagText, ← closed]
  refine ⟨?_, fun id => .leaf (fun _ => rfl) id⟩
  intro more moreEvents moreReads
  rw [written]
  have reads := ReadsAs.token (plain.reads_empty more) rfl moreReads
  rwa [Event.ofToken, element_eq] at reads

theorem restoresElement_of_void
    (plain : element.IsPlain)
    (fits : element.Fits children)
    (void : isVoid element.name = true) :
    RestoresElement element children [.start element] := by
  obtain ⟨rfl, notClosed⟩ := fits.void void
  have written : element.written [] = ['>'] := by simp [Element.written, notClosed, void]
  have element_eq : readElement false element.tagText = element := by
    rw [plain.readElement_tagText, ← notClosed]
  have notRaw : startsRawText (.start element.tagText) = false := by
    rw [← Bool.not_eq_true, startsRawText_eq_true_iff]
    rintro ⟨_, ⟨⟩, raw⟩
    rw [element_eq] at raw
    rw [Building.isVoid_of_mem_rawTextNames raw] at void
    cases void
  refine ⟨?_, fun id => .leaf (fun building => ?_) id⟩
  · intro more moreEvents moreReads
    rw [written]
    have reads := ReadsAs.token (plain.reads_start more) notRaw moreReads
    rwa [Event.ofToken, element_eq] at reads
  · simp [Building.take, void]

theorem Element.written_eq
    (notVoid : isVoid element.name = false)
    (notClosed : element.selfClosing = false)
    (children : List Tree) :
    element.written children =
      '>' :: ((writeTrees children).toList ++ '<' :: '/' :: (element.name.toList ++ ['>'])) := by
  simp [Element.written, notVoid, notClosed]

theorem restoresElement_of_raw
    (plain : element.IsPlain)
    (fits : element.Fits children)
    (notClosed : element.selfClosing = false)
    (raw : element.name ∈ rawTextNames)
    (writable : AreWritable children) :
    ∃ events, RestoresElement element children events := by
  have notVoid := Building.isVoid_of_mem_rawTextNames raw
  obtain ⟨body, isText, body_eq, builds⟩ : ∃ body, IsText body ∧
      (writeTrees children).toList = body ∧ Builds children (bodyEvents body) := by
    obtain ⟨atMostOne, texts⟩ := fits.raw raw
    cases writable with
    | nil => exact ⟨[], ⟨List.not_mem_nil, trivial⟩, rfl, .nil⟩
    | comment | element => cases texts _ List.mem_cons_self
    | @text id text trees isRaw _ _ =>
        obtain rfl : trees = [] := by simpa using atMostOne
        refine ⟨text.toList, isRaw.isText, by simp [writeTrees, Tree.write], ?_⟩
        have events_eq : bodyEvents text.toList = [.text text] := by
          simp [bodyEvents, isRaw.nonempty]
        rw [events_eq]
        exact .text (.single rfl) id
  refine ⟨rawTextEvents element body, ?_, fun id => builds.element notVoid id⟩
  intro more moreEvents moreReads
  rw [Element.written_eq notVoid notClosed, body_eq]
  simpa using plain.readsAs_rawText raw notClosed isText moreReads

theorem restoresElement_of_inner
    (plain : element.IsPlain)
    (notClosed : element.selfClosing = false)
    (notVoid : isVoid element.name = false)
    (notRaw : element.name ∉ rawTextNames)
    {inner : List Event}
    (restores : Restores children inner) :
    RestoresElement element children
      (.start element :: (inner ++ [.finish element.name])) := by
  have element_eq : readElement false element.tagText = element := by
    rw [plain.readElement_tagText, ← notClosed]
  have name_eq : lowerName element.name.toList = element.name := by
    rw [plain.name.plain.lowerName_eq, String.ofList_toList]
  have startsNoRaw : startsRawText (.start element.tagText) = false := by
    rw [← Bool.not_eq_true, startsRawText_eq_true_iff]
    rintro ⟨_, ⟨⟩, raw⟩
    rw [element_eq] at raw
    exact notRaw raw
  refine ⟨?_, fun id => restores.builds.element notVoid id⟩
  intro more moreEvents moreReads
  have closing := ReadsAs.token (plain.name.reads_finish more) rfl moreReads
  have innerReads := restores.reads _ _ (.inr rfl) closing
  have reads := ReadsAs.token (plain.reads_start _) startsNoRaw innerReads
  rw [Event.ofToken, Event.ofToken, element_eq, name_eq] at reads
  rw [Element.written_eq notVoid notClosed]
  simpa using reads

theorem exists_restoresElement
    (plain : element.IsPlain)
    (fits : element.Fits children)
    (writable : AreWritable children)
    {inner : List Event}
    (restores : Restores children inner) :
    ∃ events, RestoresElement element children events := by
  cases closed : element.selfClosing with
  | true => exact ⟨_, restoresElement_of_closed plain fits closed⟩
  | false =>
      cases void : isVoid element.name with
      | true => exact ⟨_, restoresElement_of_void plain fits void⟩
      | false =>
          by_cases raw : element.name ∈ rawTextNames
          · exact restoresElement_of_raw plain fits closed raw writable
          · exact ⟨_, restoresElement_of_inner plain closed void raw restores⟩

end Elements

/-- Trees that can be written are restored by the events of their text. -/
theorem AreWritable.exists_restores
    {trees : List Tree}
    (writable : AreWritable trees) :
    ∃ events, Restores trees events := by
  induction writable with
  | nil => exact ⟨[], fun more moreEvents _ moreReads => moreReads, .nil⟩
  | @text id raw trees isRaw apart rest inductionHypothesis =>
      obtain ⟨moreEvents, restores⟩ := inductionHypothesis
      obtain ⟨events, adds, reads⟩ := isRaw.isText.exists_addRaw isRaw.nonempty
      rw [String.ofList_toList] at adds
      refine ⟨events ++ moreEvents, .cons rest (fun _ => apart) ?_ (.text adds id) restores⟩
      intro more finalEvents moreApart moreReads
      exact reads more finalEvents (moreApart rfl) moreReads
  | @comment id body trees isBody rest inductionHypothesis =>
      obtain ⟨moreEvents, restores⟩ := inductionHypothesis
      refine ⟨[.comment body] ++ moreEvents, .cons rest (by simp [Tree.isText]) ?_ ?_ restores⟩
      · intro more finalEvents _ moreReads
        rw [toList_write_comment]
        have reads := Reads.comment (isBody.splitOnce_append more)
        simpa [Event.ofToken] using ReadsAs.token reads rfl moreReads
      · exact .leaf (fun _ => rfl) id
  | @element id element children trees plain fits inner rest innerHypothesis inductionHypothesis =>
      obtain ⟨innerEvents, innerRestores⟩ := innerHypothesis
      obtain ⟨moreEvents, restores⟩ := inductionHypothesis
      obtain ⟨events, restoresElement⟩ := exists_restoresElement plain fits inner innerRestores
      refine ⟨events ++ moreEvents, .cons rest (by simp [Tree.isText]) ?_
        (restoresElement.builds id) restores⟩
      intro more finalEvents _ moreReads
      rw [toList_write_element, List.cons_append, List.append_assoc]
      exact restoresElement.reads more finalEvents moreReads

/-! ## Documents -/

mutual

/-- A tree is written without regard to the places of its nodes. -/
theorem write_withoutIds : (tree : Tree) → tree.withoutIds.write = tree.write
  | .node _ content children => by
      have inner := writeTrees_withoutIdsOfAll children
      have empty : (Tree.withoutIdsOfAll children).isEmpty = children.isEmpty := by
        cases children <;> rfl
      rw [Tree.withoutIds]
      cases content <;> simp only [Tree.write, inner, empty]

theorem writeTrees_withoutIdsOfAll :
    (trees : List Tree) → writeTrees (Tree.withoutIdsOfAll trees) = writeTrees trees
  | [] => rfl
  | tree :: trees => by
      rw [Tree.withoutIdsOfAll, writeTrees, writeTrees, write_withoutIds tree,
        writeTrees_withoutIdsOfAll trees]

end

theorem AreWritable.withoutMark_eq
    {trees : List Tree}
    (writable : AreWritable trees) :
    withoutMark (writeTrees trees).toList = (writeTrees trees).toList := by
  cases writable with
  | nil => rfl
  | comment =>
      rw [toList_writeTrees_cons, toList_write_comment]
      rfl
  | element =>
      rw [toList_writeTrees_cons, toList_write_element]
      rfl
  | @text id raw trees isRaw _ _ =>
      rw [toList_writeTrees_cons, Tree.write]
      obtain ⟨c, rest, raw_eq⟩ := List.exists_cons_of_ne_nil isRaw.nonempty
      have notMark : c ≠ '\ufeff' := by
        rintro rfl
        exact isRaw.noMark (raw_eq ▸ List.mem_cons_self)
      simp [raw_eq, withoutMark, notMark]

/-- The tree of a document is the root with trees that can be written. -/
def Document.IsWritable (document : Document) : Prop :=
  ∃ trees, document.tree Document.root = .node Document.root .root trees ∧ AreWritable trees

/-- What is built from nothing has the trees below its root. -/
theorem Builds.tree_ofEvents
    {trees : List Tree}
    {events : List Event}
    (builds : Builds trees events) :
    ((Document.ofEvents events).tree Document.root).withoutIds =
      .node 0 .root (trees.map Tree.withoutIds) := by
  have rooted := Document.IsRooted.ofEvents events
  have startApart : Building.EndsApart ⟨Document.empty, []⟩ := by
    intro last raw listed
    cases listed
  obtain ⟨_, grows⟩ := builds _ .start (fun _ => startApart)
  obtain ⟨ids, children_eq, _, trees_eq⟩ := grows.added
  have rootChildren : (Document.ofEvents events).children Document.root = ids := children_eq
  rw [rooted.forest.tree_eq, rooted.content_root, rootChildren, Tree.withoutIds,
    Tree.withoutIdsOfAll_eq_map, List.map_map, ← trees_eq]
  rfl

/-- A document that was written is read back with the same tree. -/
theorem read_write_sameTree
    {document : Document}
    (writable : document.IsWritable) :
    ∃ back, Document.read document.write = .ok back ∧
      (back.tree Document.root).withoutIds = (document.tree Document.root).withoutIds ∧
      back.write = document.write := by
  obtain ⟨trees, tree_eq, areWritable⟩ := writable
  obtain ⟨events, restores⟩ := areWritable.exists_restores
  have written : document.write = writeTrees trees := by
    rw [Document.write, tree_eq, Tree.write]
  have reads := restores.reads [] [] (.inl rfl) .done
  rw [List.append_nil, List.append_nil] at reads
  have sameTree : ((Document.ofEvents events).tree Document.root).withoutIds =
      (document.tree Document.root).withoutIds := by
    rw [restores.builds.tree_ofEvents, tree_eq, Tree.withoutIds,
      Tree.withoutIdsOfAll_eq_map]
  refine ⟨Document.ofEvents events, ?_, sameTree, ?_⟩
  · refine read_eq_ok_iff.mpr ⟨events, ?_, rfl⟩
    rwa [written, prepare_eq_self areWritable.isPrepared, areWritable.withoutMark_eq]
  · rw [Document.write, Document.write, ← write_withoutIds, sameTree, write_withoutIds]

/-- The theorem at a link whose address holds a reference and whose content ends in a slash. -/
theorem read_write_sameTree_link :
    ∃ back,
      Document.read
          (Document.mk #[⟨.root, none, [1]⟩,
            ⟨.element ⟨"a", [⟨"href", "/?b=1&amp;c=>"⟩], false⟩, some 0, [2, 3]⟩,
            ⟨.element ⟨"br", [], false⟩, some 1, []⟩,
            ⟨.text "x/", some 1, []⟩]).write = .ok back ∧
        (back.tree Document.root).withoutIds =
          .node 0 .root
            [.node 0 (.element ⟨"a", [⟨"href", "/?b=1&amp;c=>"⟩], false⟩)
              [.node 0 (.element ⟨"br", [], false⟩) [], .node 0 (.text "x/") []]] := by
  let document : Document := ⟨#[⟨.root, none, [1]⟩,
    ⟨.element ⟨"a", [⟨"href", "/?b=1&amp;c=>"⟩], false⟩, some 0, [2, 3]⟩,
    ⟨.element ⟨"br", [], false⟩, some 1, []⟩,
    ⟨.text "x/", some 1, []⟩]⟩
  have leaf (id : Nat) (childless : document.children id = []) :
      document.tree id = .node id (document.content id) [] := by
    rw [Document.tree_eq_of_lt (by simp [childless]), childless]
    rfl
  have tree_eq : document.tree Document.root =
      .node 0 .root
        [.node 1 (.element ⟨"a", [⟨"href", "/?b=1&amp;c=>"⟩], false⟩)
          [.node 2 (.element ⟨"br", [], false⟩) [], .node 3 (.text "x/") []]] := by
    rw [Document.tree_eq_of_lt (by decide), show document.children Document.root = [1] from rfl,
      List.map_singleton, Document.tree_eq_of_lt (by decide),
      show document.children 1 = [2, 3] from rfl, List.map_cons, List.map_singleton,
      leaf 2 rfl, leaf 3 rfl]
    rfl
  have linkPlain : Element.IsPlain ⟨"a", [⟨"href", "/?b=1&amp;c=>"⟩], false⟩ := by
    refine ⟨⟨by decide, List.all_eq_true.mp (by decide)⟩, ?_⟩
    rw [List.forall_mem_singleton]
    exact ⟨⟨by decide, List.all_eq_true.mp (by decide)⟩, by decide, by decide, by decide⟩
  have writable : document.IsWritable := by
    refine ⟨_, tree_eq, .element linkPlain ⟨by decide, by decide, by decide⟩ (.element ?_ ?_ .nil
      (.text ⟨by decide, ⟨by decide, by decide⟩, by decide⟩ rfl .nil)) .nil⟩
    · exact ⟨⟨by decide, List.all_eq_true.mp (by decide)⟩, nofun⟩
    · exact ⟨by decide, by decide, by decide⟩
  obtain ⟨back, read, sameTree, _⟩ := read_write_sameTree writable
  refine ⟨back, read, ?_⟩
  rw [sameTree, tree_eq]
  rfl

end Markup
end MailPress
