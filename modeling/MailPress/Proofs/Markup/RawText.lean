import MailPress.Markup.Reader
import MailPress.Proofs.Markup.Building
import MailPress.Proofs.Markup.Event
import MailPress.Proofs.Markup.Tag

/-!
# Raw text in documents

The body of a style or script element is read as one text. It is what stands between the
tags in the prepared source, so every ampersand in it that starts no reference has become
one there: a style sheet with a bare ampersand does not survive.
-/

namespace MailPress
namespace Markup

/-! ## Building an element with a raw text body -/

namespace Building

open Document

variable {building : Building}

theorem isVoid_of_mem_rawTextNames
    {name : String}
    (raw : name ∈ rawTextNames) :
    isVoid name = false := by
  rcases List.mem_pair.mp raw with rfl | rfl <;> decide

/-- The events of an element with a raw text body. -/
def rawTextEvents (element : Element) (body : List Char) : List Event :=
  .start element :: (bodyEvents body ++ [.finish element.name])

/-- The nodes below an element with a raw text body, given the place of the element. -/
def bodyNodes (body : List Char) (id : Nat) : List Nat :=
  if body.isEmpty then [] else [id + 1]

/-- An element with a raw text body becomes a node with at most one text below it. -/
theorem IsSound.foldl_rawTextEvents
    (sound : building.IsSound)
    {element : Element}
    (raw : element.name ∈ rawTextNames)
    (body : List Char) :
    let after := (rawTextEvents element body).foldl Building.take building
    after.opened = building.opened ∧
      after.document.node building.document.size =
        ⟨.element element, some building.top, bodyNodes body building.document.size⟩ ∧
      (body ≠ [] →
        after.document.node (building.document.size + 1) =
          ⟨.text (String.ofList body), some building.document.size, []⟩) := by
  obtain ⟨started, started_def⟩ : ∃ started, started = building.take (.start element) :=
    ⟨_, rfl⟩
  have started_eq := building.take_start (isVoid_of_mem_rawTextNames raw)
  rw [← started_def] at started_eq
  have startedSound := sound.take (.start element)
  rw [← started_def] at startedSound
  have node_eq : started.document.node building.document.size =
      ⟨.element element, some building.top, []⟩ := by
    rw [started_eq]
    dsimp only
    rw [appendChild_eq_attach, node_attach sound.top_lt_size, if_pos rfl]
  have opened_eq : started.opened = building.document.size :: building.opened := by
    rw [started_eq]
  have size_eq : started.document.size = building.document.size + 1 := by
    rw [started_eq, appendChild_eq_attach, size_attach]
  have top_eq : started.top = building.document.size := by
    rw [top, opened_eq]
    rfl
  by_cases empty : body = []
  · subst empty
    have fold_eq : (rawTextEvents element []).foldl Building.take building =
        started.finish element.name := by
      rw [started_def]
      rfl
    rw [fold_eq, finish_self opened_eq (congrArg Node.content node_eq)]
    exact ⟨rfl, node_eq, fun nonempty => absurd rfl nonempty⟩
  · have bodyEvents_eq : bodyEvents body = [.text (String.ofList body)] := by
      simp [bodyEvents, empty]
    have taken_eq : started.take (.text (String.ofList body)) =
        ⟨started.document.appendChild building.document.size (.text (String.ofList body)),
          building.document.size :: building.opened⟩ := by
      rw [Building.take, top_eq,
        appendText_of_children_eq_nil (congrArg Node.children node_eq), opened_eq]
    have inside : building.document.size < started.document.size := by
      rw [size_eq]
      exact Nat.lt_succ_self _
    have finalNode_eq := node_attach inside (.text (String.ofList body))
      (· ++ [started.document.size])
    rw [← appendChild_eq_attach] at finalNode_eq
    have fold_eq : (rawTextEvents element body).foldl Building.take building =
        (started.take (.text (String.ofList body))).finish element.name := by
      rw [rawTextEvents, bodyEvents_eq, started_def]
      rfl
    have elementNode := finalNode_eq building.document.size
    rw [if_neg (Nat.ne_of_lt inside), if_pos rfl] at elementNode
    have content_eq : (started.document.appendChild building.document.size
        (.text (String.ofList body))).content building.document.size = .element element := by
      rw [Document.content, elementNode, node_eq]
    rw [fold_eq, taken_eq, finish_self rfl content_eq]
    refine ⟨rfl, ?_, fun _ => ?_⟩
    · rw [elementNode, children, node_eq, size_eq]
      simp [bodyNodes, empty]
    · rw [← size_eq, finalNode_eq, if_pos rfl]

/-- Whatever comes behind it, an element with a raw text body stays as it is. -/
theorem IsSound.node_rawTextEvents
    (sound : building.IsSound)
    {element : Element}
    (raw : element.name ∈ rawTextNames)
    (body : List Char)
    (events : List Event) :
    let final := (rawTextEvents element body ++ events).foldl Building.take building
    final.document.node building.document.size =
        ⟨.element element, some building.top, bodyNodes body building.document.size⟩ ∧
      (body ≠ [] →
        final.document.node (building.document.size + 1) =
          ⟨.text (String.ofList body), some building.document.size, []⟩) := by
  obtain ⟨opened_eq, element_eq, text_eq⟩ := sound.foldl_rawTextEvents raw body
  have afterSound := sound.foldl (rawTextEvents element body)
  rw [List.foldl_append]
  generalize (rawTextEvents element body).foldl Building.take building = after at *
  have notOpen {id : Nat} (new : building.document.size ≤ id) : after.IsShut id := by
    refine ⟨?_, ?_⟩
    · rintro rfl
      exact Nat.not_lt.mpr new sound.rooted.forest.nonempty
    · rw [opened_eq]
      intro member
      exact Nat.not_lt.mpr new (lt_size_of_isElement (sound.opened id member))
  have inside {id : Nat} (content : after.document.content id ≠ .root) :
      id < after.document.size :=
    Nat.lt_of_not_le fun outside => content (content_of_size_le outside)
  have content : after.document.content building.document.size = .element element :=
    congrArg Node.content element_eq
  refine ⟨?_, fun nonempty => ?_⟩
  · have settled : after.IsSettled building.document.size := by
      refine ⟨inside ?_, notOpen (Nat.le_refl _), ?_⟩
      · rw [content]
        simp
      · intro raw isText
        rw [content] at isText
        cases isText
    rw [settled.foldl afterSound, element_eq]
  · have textContent := congrArg Node.content (text_eq nonempty)
    have settled : after.IsSettled (building.document.size + 1) := by
      refine ⟨inside ?_, notOpen (Nat.le_succ _), ?_⟩
      · rw [Document.content, textContent]
        simp
      · intro raw _
        exact ⟨building.document.size, congrArg Node.parent (text_eq nonempty),
          notOpen (Nat.le_refl _)⟩
    rw [settled.foldl afterSound, text_eq nonempty]

end Building

/-! ## Reading an element with a raw text body -/

open Building (rawTextEvents)

/-- A text between the tags of a raw text element is read as one body. -/
theorem Element.IsPlain.readsAs_rawText
    {element : Element}
    (plain : element.IsPlain)
    (raw : element.name ∈ rawTextNames)
    (notClosed : element.selfClosing = false)
    {body : List Char}
    (isText : IsText body)
    {more : List Char}
    {events : List Event}
    (moreReads : ReadsAs more events) :
    ReadsAs
      ('<' :: (element.tagText ++
        '>' :: (body ++ '<' :: '/' :: (element.name.toList ++ '>' :: more))))
      (rawTextEvents element body ++ events) := by
  have element_eq : readElement false element.tagText = element := by
    rw [plain.readElement_tagText, ← notClosed]
  have opening := plain.reads_start
    (body ++ '<' :: '/' :: (element.name.toList ++ '>' :: more))
  have closing := plain.name.reads_finish more
  have closes : depthAfter (tagName element.tagText) 0 (.finish element.name.toList) = none := by
    simp [depthAfter, plain.tagName_tagText]
  have starts : startsRawText (.start element.tagText) = true := by
    rw [startsRawText, element_eq]
    exact List.contains_iff_mem.mpr raw
  have ends := (endsBody_append_iff isText (.inr rfl)).mpr (.here closing closes)
  have reads := ReadsAs.body opening starts ends moreReads
  rw [element_eq] at reads
  simpa [rawTextEvents] using reads

theorem not_mem_escapeBareAmpersands
    {text : List Char}
    (noAngle : '<' ∉ text) :
    '<' ∉ escapeBareAmpersands text := by
  fun_induction escapeBareAmpersands text with
  | case1 => exact noAngle
  | case2 c rest bare inductionHypothesis =>
      have restFree := inductionHypothesis (List.not_mem_of_not_mem_cons noAngle)
      simpa using restFree
  | case3 c rest kept inductionHypothesis =>
      obtain ⟨different, restFree⟩ := List.ne_and_not_mem_of_not_mem_cons noAngle
      exact List.not_mem_cons_of_ne_of_not_mem different (inductionHypothesis restFree)

/-- Without markup in it, a prepared text differs from the text in its bare ampersands alone. -/
theorem isText_escapeBareAmpersands
    {text : List Char}
    (noAngle : '<' ∉ text) :
    IsText (escapeBareAmpersands text) :=
  ⟨not_mem_escapeBareAmpersands noAngle, ampersandsRefer_escapeBareAmpersands text⟩

theorem prepare_of_not_mem
    {text : List Char}
    (noAngle : '<' ∉ text) :
    prepare text = escapeBareAmpersands text := by
  rw [prepare, escapeBareAngles_of_opens (.of_not_mem (not_mem_escapeBareAmpersands noAngle))]

/-- A text is left alone exactly when every ampersand in it starts a reference. -/
theorem escapeBareAmpersands_eq_self_iff
    {text : List Char} :
    escapeBareAmpersands text = text ↔ AmpersandsRefer text := by
  constructor
  · intro same
    rw [← same]
    exact ampersandsRefer_escapeBareAmpersands text
  · exact escapeBareAmpersands_of_refers

theorem withoutMark_suffix (source : List Char) : withoutMark source <:+ source := by
  unfold withoutMark
  split
  · exact List.suffix_cons ..
  · exact List.suffix_rfl

theorem withoutMark_append
    {more : List Char}
    (apart : StartsApart more)
    (source : List Char) :
    withoutMark (source ++ more) = withoutMark source ++ more := by
  cases source with
  | nil =>
      rcases apart with rfl | angle
      · rfl
      · obtain ⟨tail, rfl⟩ := List.head?_eq_some_iff.mp angle
        rfl
  | cons c source =>
      by_cases mark : c = '\ufeff'
      · subst mark
        rfl
      · simp [withoutMark, mark]

/-- Behind its plain characters, a source that can be read can be read, too. -/
theorem ReadsAs.exists_dropWhile
    {source : List Char}
    {events : List Event}
    (reads : ReadsAs source events) :
    ∃ fewer, ReadsAs (source.dropWhile isPlain) fewer := by
  cases source with
  | nil => exact ⟨events, reads⟩
  | cons c source =>
      cases plain : isPlain c with
      | false =>
          rw [List.dropWhile_cons_of_neg (by simp [plain])]
          exact ⟨events, reads⟩
      | true =>
          have notAngle : c ≠ '<' := by
            rintro rfl
            cases plain
          have notAmpersand : c ≠ '&' := by
            rintro rfl
            cases plain
          rw [List.dropWhile_cons_of_pos plain]
          cases reads with
          | body read => exact absurd (Option.some.inj (read.head?_eq_angle rfl)) notAngle
          | token read notRaw restReads =>
              cases read with
              | text => exact ⟨_, restReads⟩
              | _ => contradiction

/-- A plain character in front of a source that can be read leaves it so. -/
theorem ReadsAs.exists_cons
    {source : List Char}
    {events : List Event}
    (reads : ReadsAs source events)
    {c : Char}
    (plain : isPlain c = true) :
    ∃ longer, ReadsAs (c :: source) longer := by
  obtain ⟨fewer, restReads⟩ := reads.exists_dropWhile
  exact ⟨_, .token (.text plain) rfl restReads⟩

/-- A document is built from the events of its source. -/
theorem read_eq_ok_iff
    {source : String}
    {document : Document} :
    Document.read source = .ok document ↔
      ∃ events, ReadsAs (withoutMark (prepare source.toList)) events ∧
        Document.ofEvents events = document := by
  unfold Document.read
  dsimp only
  split
  · next events read =>
      constructor
      · rintro ⟨⟩
        exact ⟨events, readEvents_eq_ok_iff.mp read, rfl⟩
      · rintro ⟨others, reads, rfl⟩
        rw [readEvents_eq_ok_iff.mpr reads] at read
        cases read
        rfl
  · next failure read =>
      constructor
      · exact nofun
      · rintro ⟨events, reads, rfl⟩
        rw [readEvents_eq_ok_iff.mpr reads] at read
        cases read

/-! ## The body in the document -/

/-- A node is an element without attributes that holds and is written with this raw text. -/
structure Document.BearsRawText
    (document : Document)
    (id : Nat)
    (name body : String) : Prop where
  /-- The node is the element. -/
  element : document.element? id = some ⟨name, [], false⟩
  /-- The element hangs below the root. -/
  listed : id ∈ document.elements
  /-- The raw text of the element is the body. -/
  rawText : document.rawText id = body
  /-- The body is written between the tags of the element. -/
  written : (document.tree id).write = "<" ++ name ++ ">" ++ body ++ "</" ++ name ++ ">"
  /-- The written element is part of the written document. -/
  placed : ∃ start finish, document.write = start ++ (document.tree id).write ++ finish

open Building (bodyNodes)

theorem Document.IsRooted.bearsRawText
    {document : Document}
    (rooted : document.IsRooted)
    {id : Nat}
    {parent : Option Nat}
    {name : String}
    (raw : name ∈ rawTextNames)
    {body : List Char}
    (node : document.node id = ⟨.element ⟨name, [], false⟩, parent, bodyNodes body id⟩)
    (text : body ≠ [] → document.node (id + 1) = ⟨.text (String.ofList body), some id, []⟩) :
    document.BearsRawText id name (String.ofList body) := by
  have forest := rooted.forest
  have content : document.content id = .element ⟨name, [], false⟩ := congrArg Node.content node
  have element : document.element? id = some ⟨name, [], false⟩ :=
    element?_eq_some_iff.mpr content
  have children : document.children id = bodyNodes body id := congrArg Node.children node
  have isElement : document.isElement id = true := isElement_eq_true_iff.mpr ⟨_, content⟩
  have notRoot : id ≠ root := by
    rintro rfl
    rw [rooted.content_root] at content
    cases content
  have member := forest.mem_ids_root rooted.attached (lt_size_of_isElement isElement)
  have listed : id ∈ document.elements := by
    refine List.mem_filter.mpr ⟨?_, isElement⟩
    rw [forest.ids_tree, ← forest.descendants_eq] at member
    exact List.mem_of_ne_of_mem notRoot member
  have inner : document.rawText id = String.ofList body ∧
      writeTrees ((document.children id).map document.tree) = String.ofList body := by
    by_cases empty : body = []
    · subst empty
      rw [Document.rawText, forest.descendants_eq, children]
      exact ⟨rfl, rfl⟩
    · have textNode := text empty
      have textContent : document.content (id + 1) = .text (String.ofList body) :=
        congrArg Node.content textNode
      have textChildren : document.children (id + 1) = [] := congrArg Node.children textNode
      rw [Document.rawText, forest.descendants_eq, children]
      simp [bodyNodes, empty, forest.tree_eq (id + 1), textChildren, textContent, text?,
        Tree.ids, Tree.idsOfAll, Tree.write, writeTrees]
  have notVoid := Building.isVoid_of_mem_rawTextNames raw
  refine ⟨element, listed, inner.1, ?_, forest.exists_write_eq rooted.holds member⟩
  rw [forest.tree_eq, content]
  simp [Tree.write, notVoid, inner.2, writeAttributes]

/-- Preparing a source with a raw text element in it prepares the body and what stands around
the element, each on its own. -/
theorem prepare_rawText
    {name : String}
    (raw : name ∈ rawTextNames)
    {body : List Char}
    (noAngle : '<' ∉ body)
    (before after : List Char) :
    prepare (before ++ '<' :: (name.toList ++
        '>' :: (body ++ '<' :: '/' :: (name.toList ++ '>' :: after)))) =
      prepare before ++ '<' :: (name.toList ++
        '>' :: (escapeBareAmpersands body ++ '<' :: '/' :: (name.toList ++ '>' :: prepare after))) := by
  have opening (rest : List Char) : prepare ('<' :: (name.toList ++ '>' :: rest)) =
      '<' :: (name.toList ++ '>' :: prepare rest) := by
    have front : '<' :: (name.toList ++ '>' :: rest) = ('<' :: name.toList ++ ['>']) ++ rest := by
      simp
    rw [front, prepare_append_of_opens]
    · simp
    all_goals rcases List.mem_pair.mp raw with rfl | rfl <;> decide
  have closing (rest : List Char) : prepare ('<' :: '/' :: (name.toList ++ '>' :: rest)) =
      '<' :: '/' :: (name.toList ++ '>' :: prepare rest) := by
    have front : '<' :: '/' :: (name.toList ++ '>' :: rest) =
        ('<' :: '/' :: name.toList ++ ['>']) ++ rest := by simp
    rw [front, prepare_append_of_opens]
    · simp
    all_goals rcases List.mem_pair.mp raw with rfl | rfl <;> decide
  rw [prepare_append_angle, opening, prepare_append_angle, closing, prepare_of_not_mem noAngle]

theorem plain_of_mem_rawTextNames
    {name : String}
    (raw : name ∈ rawTextNames) :
    Element.IsPlain ⟨name, [], false⟩ := by
  refine ⟨⟨?_, List.all_eq_true.mp ?_⟩, nofun⟩
  all_goals rcases List.mem_pair.mp raw with rfl | rfl <;> decide

theorem isPrepared_withoutMark (source : List Char) :
    IsPrepared (withoutMark (prepare source)) :=
  (isPrepared_prepare source).of_suffix (withoutMark_suffix _)

/-- A source that can be read on its own can be read behind another one, where a mark at its
start is part of the text. -/
theorem exists_readsAs_prepare
    {source : String}
    {document : Document}
    (read : Document.read source = .ok document) :
    ∃ events, ReadsAs (prepare source.toList) events := by
  obtain ⟨events, reads, _⟩ := read_eq_ok_iff.mp read
  unfold withoutMark at reads
  split at reads
  · next rest marked =>
      rw [marked]
      exact reads.exists_cons rfl
  · exact ⟨events, reads⟩

/-- A raw text element between two sources that can be read bears its body with the bare
ampersands escaped. -/
theorem exists_bearsRawText
    {before after body name : String}
    {front back : Document}
    (raw : name ∈ rawTextNames)
    (noAngle : '<' ∉ body.toList)
    (beforeReads : Document.read before = .ok front)
    (afterReads : Document.read after = .ok back) :
    ∃ document,
      Document.read
          (before ++ "<" ++ name ++ ">" ++ body ++ "</" ++ name ++ ">" ++ after) = .ok document ∧
        document.BearsRawText front.size name
          (String.ofList (escapeBareAmpersands body.toList)) := by
  obtain ⟨beforeEvents, beforeRead, rfl⟩ := read_eq_ok_iff.mp beforeReads
  obtain ⟨afterEvents, afterRead⟩ := exists_readsAs_prepare afterReads
  let element : Element := ⟨name, [], false⟩
  let written := escapeBareAmpersands body.toList
  let events := beforeEvents ++ (rawTextEvents element written ++ afterEvents)
  have isText := isText_escapeBareAmpersands noAngle
  have reads := (plain_of_mem_rawTextNames raw).readsAs_rawText raw rfl isText afterRead
  have whole := beforeRead.append (isPrepared_withoutMark before.toList) (.inr rfl) reads
  obtain ⟨element_eq, text_eq⟩ :=
    (Building.IsSound.start.foldl beforeEvents).node_rawTextEvents
      (show element.name ∈ rawTextNames from raw) written afterEvents
  rw [← List.foldl_append] at element_eq text_eq
  refine ⟨Document.ofEvents events, ?_,
    (Document.IsRooted.ofEvents events).bearsRawText raw element_eq text_eq⟩
  refine read_eq_ok_iff.mpr ⟨events, ?_, rfl⟩
  have source_eq :
      (before ++ "<" ++ name ++ ">" ++ body ++ "</" ++ name ++ ">" ++ after).toList =
        before.toList ++ '<' :: (name.toList ++
          '>' :: (body.toList ++ '<' :: '/' :: (name.toList ++ '>' :: after.toList))) := by
    simp
  rw [source_eq, prepare_rawText raw noAngle, withoutMark_append (.inr rfl)]
  simpa [Element.tagText, writeAttributes, element] using whole

/-- The body of a raw text element between two sources that can be read is kept as it stands
exactly when every ampersand in it starts a reference. -/
theorem read_rawText_verbatim_iff
    {before after body name : String}
    {front back : Document}
    (raw : name ∈ rawTextNames)
    (noAngle : '<' ∉ body.toList)
    (beforeReads : Document.read before = .ok front)
    (afterReads : Document.read after = .ok back) :
    ∃ document,
      Document.read
          (before ++ "<" ++ name ++ ">" ++ body ++ "</" ++ name ++ ">" ++ after) = .ok document ∧
        document.BearsRawText front.size name
          (String.ofList (escapeBareAmpersands body.toList)) ∧
        (document.BearsRawText front.size name body ↔ AmpersandsRefer body.toList) := by
  obtain ⟨document, read, bears⟩ := exists_bearsRawText raw noAngle beforeReads afterReads
  refine ⟨document, read, bears, ?_⟩
  rw [← escapeBareAmpersands_eq_self_iff]
  constructor
  · intro verbatim
    have same := bears.rawText.symm.trans verbatim.rawText
    exact String.ofList_injective (same.trans String.ofList_toList.symm)
  · intro same
    rwa [same, String.ofList_toList] at bears

theorem read_empty : Document.read "" = .ok Document.empty :=
  read_eq_ok_iff.mpr ⟨[], .done, rfl⟩

theorem read_letter : Document.read "x" = .ok (Document.ofEvents [.text "x"]) :=
  read_eq_ok_iff.mpr ⟨_, .token (.text rfl) rfl .done, rfl⟩

/-- The theorem at a sheet whose only ampersand starts a reference. -/
theorem read_rawText_verbatim_reference :
    ∃ document,
      Document.read ("x" ++ "<" ++ "style" ++ ">" ++ "a&lt;b" ++ "</" ++ "style" ++ ">" ++ "") =
          .ok document ∧
        document.BearsRawText 2 "style" "a&lt;b" := by
  have raw : "style" ∈ rawTextNames := by decide
  have noAngle : '<' ∉ "a&lt;b".toList := by decide
  obtain ⟨document, read, _, verbatim⟩ :=
    read_rawText_verbatim_iff raw noAngle read_letter read_empty
  exact ⟨document, read, verbatim.mpr (by decide)⟩

/-- The address of an imported sheet does not survive when it has a bare ampersand. -/
theorem import_address_escaped :
    ∃ document,
      Document.read "<style>@import url(x?a=1&b=2);</style>" = .ok document ∧
        document.element? 1 = some ⟨"style", [], false⟩ ∧
        document.rawText 1 = "@import url(x?a=1&amp;b=2);" ∧
        document.rawText 1 ≠ "@import url(x?a=1&b=2);" := by
  have raw : "style" ∈ rawTextNames := by decide
  have noAngle : '<' ∉ "@import url(x?a=1&b=2);".toList := by decide
  have escaped : String.ofList (escapeBareAmpersands "@import url(x?a=1&b=2);".toList) =
      "@import url(x?a=1&amp;b=2);" := by decide
  obtain ⟨document, read, bears⟩ := exists_bearsRawText raw noAngle read_empty read_empty
  rw [escaped] at bears
  refine ⟨document, read, bears.element, bears.rawText, ?_⟩
  rw [show document.rawText 1 = _ from bears.rawText]
  decide

end Markup
end MailPress
