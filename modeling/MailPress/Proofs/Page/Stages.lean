import MailPress.Proofs.Page.Alteration

/-!
# The stages of a page

A document that was read is orderly, and every stage between reading it and writing a page of
it is a chain of alterations.
-/

namespace MailPress

open Markup

namespace Page

/-! ## Documents that were read -/

theorem holdsBody_eq_any
    (document : Document)
    (id : Nat) :
    (document.content id).holdsBody =
      (document.element? id).any fun element => rawTextNames.contains element.name := by
  rw [Document.element?_eq]
  cases document.content id <;> rfl

/-- A document under construction between two events, none of the open elements a raw text
element. -/
structure IsTidy (building : Building) : Prop where
  /-- The document is one tree, and elements are open. -/
  sound : building.IsSound
  /-- The document so far is orderly. -/
  orderly : IsOrderly building.document
  /-- Markup may stand in every open element. -/
  opened : ∀ id ∈ building.opened, (building.document.content id).holdsBody = false

namespace IsTidy

variable {building : Building}

theorem start : IsTidy ⟨Document.empty, []⟩ := by
  refine ⟨.start, ⟨.empty, rfl, Document.IsRooted.empty.holds, fun {id parent} below => ?_⟩, nofun⟩
  have inside := Document.lt_size_of_parent? below
  obtain rfl := Nat.lt_one_iff.mp inside
  cases below

theorem holdsBody_top (tidy : IsTidy building) :
    (building.document.content building.top).holdsBody = false := by
  rcases building.top_eq with isRoot | listed
  · rw [isRoot, tidy.orderly.content_root]
    rfl
  · exact tidy.opened _ listed

/-- Where markup may stand, what starts plainly keeps the document orderly. -/
theorem isOrderly_take
    (tidy : IsTidy building)
    {event : Event}
    (plain : EventStartsPlainly event) :
    IsOrderly (building.take event).document := by
  have inside := tidy.sound.top_lt_size
  have holds := tidy.sound.holdsChildren_top
  have noBody := tidy.holdsBody_top
  have added {content : Content} (new : startsPlainly content) :
      IsOrderly (building.add content).document := by
    rw [Building.add, Document.appendChild_eq_attach]
    refine tidy.orderly.attach inside holds ?_ fun children => List.perm_append_singleton _ children
    rwa [FitsBelow, if_neg (by simp [noBody])]
  cases event with
  | start element =>
      unfold Building.take
      dsimp only
      split <;> exact added plain
  | empty element => exact added plain
  | finish name =>
      rw [Building.take, Building.finish_document]
      exact tidy.orderly
  | text raw => exact tidy.orderly.appendText inside holds fun _ => plain
  | reference name =>
      refine tidy.orderly.appendText inside holds fun _ => ?_
      have noAngle : '<' ∉ name.toList := plain
      simpa using noAngle
  | comment body => exact added trivial
  | cdata body =>
      refine added ⟨"CDATA[".toList ++ body.toList ++ "]]>".toList, .inr ?_⟩
      simp
  | instruction body =>
      refine added ⟨body.toList ++ "?>".toList, .inl ?_⟩
      simp
  | declaration => exact tidy.orderly

/-- Taking an event changes no element that is there. -/
theorem element?_take
    (sound : building.IsSound)
    {id : Nat}
    (inside : id < building.document.size)
    (event : Event) :
    (building.take event).document.element? id = building.document.element? id := by
  have topInside := sound.top_lt_size
  rcases building.take_cases event with ⟨content, eq⟩ | ⟨raw, eq⟩ | eq
  · rw [eq, Document.appendChild_eq_attach, Document.element?_eq,
      Document.content_attach topInside, if_neg (Nat.ne_of_lt inside), ← Document.element?_eq]
  · rw [eq, sound.rooted.forest.element?_appendText topInside]
  · rw [eq]

theorem element?_foldl
    (sound : building.IsSound)
    {id : Nat}
    (inside : id < building.document.size)
    (events : List Event) :
    (events.foldl Building.take building).document.element? id =
      building.document.element? id := by
  induction events generalizing building with
  | nil => rfl
  | cons event events inductionHypothesis =>
      rw [List.foldl_cons, inductionHypothesis (sound.take event)
        (Nat.lt_of_lt_of_le inside (building.size_le_take event)), element?_take sound inside]

theorem take
    (tidy : IsTidy building)
    {token : Token}
    (notRaw : startsRawText token = false)
    (plain : EventStartsPlainly (Event.ofToken token)) :
    IsTidy (building.take (Event.ofToken token)) := by
  refine ⟨tidy.sound.take _, tidy.isOrderly_take plain, fun id listed => ?_⟩
  rw [holdsBody_eq_any]
  rcases List.mem_cons.mp (building.take_opened_subset _ listed) with rfl | old
  · -- What is opened is the element of a start tag, and not one of a raw text element.
    have isNew := Document.content_attach tidy.sound.top_lt_size
    cases token with
    | start content =>
        have opens : (building.take (.start (readElement false content))).document =
            (building.add (.element (readElement false content))).document := by
          unfold Building.take
          dsimp only
          split <;> rfl
        rw [Event.ofToken, opens, Building.add, Document.element?_eq,
          Document.appendChild_eq_attach, isNew, if_pos rfl]
        exact notRaw
    | empty content =>
        have opened := tidy.sound.opened _ listed
        exact absurd (Document.lt_size_of_isElement opened) (Nat.lt_irrefl _)
    | finish name =>
        have opened := tidy.sound.opened _ (building.finish_opened_subset _ listed)
        exact absurd (Document.lt_size_of_isElement opened) (Nat.lt_irrefl _)
    | _ =>
        have opened := tidy.sound.opened _ listed
        exact absurd (Document.lt_size_of_isElement opened) (Nat.lt_irrefl _)
  · have inside := Document.lt_size_of_isElement (tidy.sound.opened id old)
    rw [element?_take tidy.sound inside, ← holdsBody_eq_any]
    exact tidy.opened id old

open Building in
/-- Reading a raw text element leaves open what was open, and puts its body below it. -/
theorem foldl_rawTextEvents
    (tidy : IsTidy building)
    {element : Element}
    (raw : element.name ∈ rawTextNames)
    (plain : startsPlainly (.element element))
    (body : List Char) :
    IsTidy ((rawTextEvents element body).foldl Building.take building) := by
  have sound := tidy.sound.foldl (rawTextEvents element body)
  obtain ⟨opened_eq, _, _⟩ := tidy.sound.foldl_rawTextEvents raw body
  refine ⟨sound, ?_, fun id listed => ?_⟩
  · have startedOrderly : IsOrderly (building.take (.start element)).document :=
      tidy.isOrderly_take plain
    have startedSound := tidy.sound.take (.start element)
    have startedBody : ((building.take (.start element)).document.content
        (building.take (.start element)).top).holdsBody = true := by
      rw [building.take_start (isVoid_of_mem_rawTextNames raw)]
      show ((building.document.appendChild building.top (.element element)).content
        building.document.size).holdsBody = true
      rw [Document.appendChild_eq_attach, Document.content_attach tidy.sound.top_lt_size,
        if_pos rfl]
      exact List.contains_iff_mem.mpr raw
    rw [rawTextEvents, List.foldl_cons, List.foldl_append, List.foldl_cons, List.foldl_nil]
    generalize building.take (.start element) = started at *
    show IsOrderly (finish _ _).document
    rw [finish_document]
    unfold bodyEvents
    split
    · exact startedOrderly
    · refine startedOrderly.appendText startedSound.top_lt_size startedSound.holdsChildren_top ?_
      rw [startedBody]
      rintro ⟨⟩
  · rw [opened_eq] at listed
    rw [holdsBody_eq_any, element?_foldl tidy.sound
      (Document.lt_size_of_isElement (tidy.sound.opened id listed)), ← holdsBody_eq_any]
    exact tidy.opened id listed

open Building in
/-- Reading a prepared source keeps the document orderly. -/
theorem foldl
    {source : List Char}
    {events : List Event}
    (reads : ReadsAs source events)
    (prepared : IsPrepared source)
    (tidy : IsTidy building) :
    IsTidy (events.foldl Building.take building) := by
  induction reads generalizing building with
  | done => exact tidy
  | token reads notRaw _ inductionHypothesis =>
      exact inductionHypothesis (prepared.of_suffix reads.suffix)
        (tidy.take notRaw (eventStartsPlainly_ofToken reads prepared))
  | @body source content body finish after events reads raw ends restReads inductionHypothesis =>
      have afterPrepared : IsPrepared after :=
        prepared.of_suffix ((ends.suffix.2.trans ends.suffix.1).trans reads.suffix)
      obtain ⟨_, ⟨⟩, isRaw⟩ := startsRawText_eq_true_iff.mp raw
      have plain : EventStartsPlainly (.start (readElement false content)) :=
        eventStartsPlainly_ofToken reads prepared
      have split : Event.start (readElement false content) ::
          (bodyEvents body ++ .finish (readElement false content).name :: events) =
            rawTextEvents (readElement false content) body ++ events := by
        simp [rawTextEvents]
      rw [split, List.foldl_append]
      exact inductionHypothesis afterPrepared (tidy.foldl_rawTextEvents isRaw plain body)

end IsTidy

/-- A document that was read is orderly. -/
theorem isOrderly_read
    {source : String}
    {document : Document}
    (read : Document.read source = .ok document) :
    IsOrderly document := by
  obtain ⟨events, reads, rfl⟩ := read_eq_ok_iff.mp read
  exact (IsTidy.foldl reads (isPrepared_withoutMark _) .start).orderly

/-! ## Stages that set attributes -/

variable {document : Document}

theorem altered_foldl_modifyElement
    {Entry : Type}
    (entries : List Entry)
    (place : Entry → Nat)
    {change : Entry → Element → Element}
    (keeps : ∀ entry, KeepsTag (change entry))
    (spares : ∀ entry element, Element.Spares element (change entry element))
    (document : Document) :
    Altered document
      (entries.foldl
        (fun changed entry => changed.modifyElement (place entry) (change entry)) document) := by
  induction entries generalizing document with
  | nil => exact .refl
  | cons entry entries inductionHypothesis =>
      exact .head (.attributes (place entry) (keeps entry) (spares entry)) (inductionHypothesis _)

theorem spares_withDefaults (target : Option String) (element : Element) :
    element.Spares (withDefaults target element) :=
  withDefaults_induction element.Spares (.refl element)
    (fun _ value given other spares => spares.trans (.setAttrIfMissing other value given)) target

theorem altered_applyDefaults
    (document : Document)
    (target : Option String) :
    Altered document (applyDefaults document target) :=
  altered_foldl_modifyElement document.elements (fun id => id)
    (fun _ => keepsTag_withDefaults target) (fun _ => spares_withDefaults target) document

theorem spares_promoteSize (element : Element) (declared : String × String) :
    element.Spares (Style.promoteSize element declared) := by
  unfold Style.promoteSize
  split
  · next isSide =>
      split
      · refine .setAttrIfMissing ?_ _ element
        rintro same
        rw [same] at isSide
        revert isSide
        decide
      · exact .refl element
  · exact .refl element

theorem spares_restyle
    (sizeNames : List String)
    (candidates : List Style.Candidate)
    (element : Element) :
    element.Spares (Style.restyle sizeNames candidates element) := by
  unfold Style.restyle
  dsimp only
  generalize Style.resolve (candidates ++ Style.ownCandidates element) = resolved
  have styled : element.Spares
      (element.setAttr "style" (escapeAttribute (Style.styleText resolved))) :=
    .setAttr (by decide) _ element
  split
  · generalize element.setAttr "style" _ = started at styled
    induction resolved generalizing started with
    | nil => exact styled
    | cons declared resolved inductionHypothesis =>
        exact inductionHypothesis _ (styled.trans (spares_promoteSize started declared))
  · exact styled

theorem altered_inlineStyles
    (document : Document)
    (css : String)
    (sizeNames : List String) :
    Altered document (Style.inlineStyles document css sizeNames) :=
  altered_foldl_modifyElement (Style.matchedElements document css) Prod.fst
    (fun entry => Style.keepsTag_restyle sizeNames entry.2)
    (fun entry => spares_restyle sizeNames entry.2) document

theorem spares_withSize
    (production : Bool)
    (size : Image.Size)
    (element : Element) :
    element.Spares (Image.withSize production size element) := by
  refine Image.withSize_induction element.Spares (.refl element)
    (fun name isSide value given spares => spares.trans (.setAttrIfMissing ?_ value given))
    (fun _ value given spares => spares.trans (.setAttr (by decide) value given)) size
  rintro rfl
  revert isSide
  decide

theorem altered_annotate
    (document : Document)
    (resolved : Image.Resolved)
    (production : Bool) :
    Altered document (Image.annotate document resolved production) := by
  unfold Image.annotate
  generalize Image.unsized document = images
  induction images generalizing document with
  | nil => exact .refl
  | cons image images inductionHypothesis =>
      rw [List.foldl_cons]
      refine .trans ?_ (inductionHypothesis _)
      split
      · exact .single (.attributes image.1 (Image.keepsTag_withSize production _)
          (spares_withSize production _))
      · exact .refl

/-! ## Stages that add content -/

theorem Spares.isNamed
    {before after : Document}
    (spares : Spares before after)
    {name : String}
    {id : Nat}
    (named : before.isNamed name id = true) :
    after.isNamed name id = true := by
  obtain ⟨element, found, isName⟩ : ∃ element, before.element? id = some element ∧
      element.name = name := by
    simpa [Document.isNamed, Option.any_eq_true] using named
  obtain ⟨later, foundLater, kept⟩ := spares.kept id element found
  rw [Document.isNamed, foundLater, Option.any_some, kept.name_eq, isName, beq_self_eq_true]

theorem altered_fillEmptyCells (orderly : IsOrderly document) :
    Altered document (fillEmptyCells document) := by
  unfold fillEmptyCells
  have cells : ∀ id ∈ document.elements.filter (isEmptyCell document),
      document.isElement id = true :=
    fun id member => (List.mem_filter.mp (List.mem_filter.mp member).1).2
  generalize document.elements.filter (isEmptyCell document) = ids at cells
  induction ids generalizing document with
  | nil => exact .refl
  | cons id ids inductionHypothesis =>
      obtain ⟨here, rest⟩ := List.forall_mem_cons.mp cells
      have fills : Alters document (document.appendText id "&nbsp;") :=
        .text here fun _ => by decide
      refine .head fills (inductionHypothesis (fills.isOrderly orderly) fun other member => ?_)
      exact (fills.spares orderly).isElement (rest other member)

theorem altered_prepared (orderly : IsOrderly document) (finish : Settings.Finish) :
    Altered document (prepared finish document) := by
  have filled := altered_applyDefaults document finish.linkTarget
  unfold prepared
  dsimp only
  split
  · exact filled.trans (altered_fillEmptyCells (isOrderly_of_altered filled orderly))
  · exact filled

/-- Where markup may stand in an element of a name, it is one that takes it. -/
theorem takesMarkup_of_isNamed
    {name : String}
    {id : Nat}
    (named : document.isNamed name id = true)
    (markup : name ∉ rawTextNames) :
    id < document.size ∧ (document.content id).holdsChildren = true ∧
      (document.content id).holdsBody = false := by
  have isElement := Document.isElement_of_isNamed named
  refine ⟨Document.lt_size_of_isElement isElement, IsPage.holdsChildren_of_isElement isElement, ?_⟩
  obtain ⟨element, content, rfl⟩ := Document.isNamed_eq_true_iff.mp named
  rw [content, Content.holdsBody]
  simpa using markup

/-- A node that is added below a head. -/
theorem alters_attach_head
    {head : Nat}
    (isHead : document.isNamed "head" head = true)
    {content : Content}
    (addable : IsAddable content)
    {place : List Nat → List Nat}
    (places : ∀ children, (place children).Perm (document.size :: children)) :
    Alters document (document.attach head content place) := by
  obtain ⟨inside, holds, noBody⟩ := takesMarkup_of_isNamed isHead (by decide)
  exact .add inside holds noBody addable places

theorem name_make (name : String) (attributes : List (String × String)) :
    (Element.make name attributes).name = Text.lower name := by
  unfold Element.make
  generalize isStart : Element.mk (Text.lower name) [] false = start
  have startName : start.name = Text.lower name := by rw [← isStart]
  clear isStart
  induction attributes generalizing start with
  | nil => exact startName
  | cons pair attributes inductionHypothesis => exact inductionHypothesis _ startName

theorem isAddable_newElement
    {name : String}
    (letter : (Text.lower name).toList.head?.any Text.isAsciiLetter = true)
    (noImage : Text.lower name ≠ "img")
    (attributes : List (String × String)) :
    IsAddable (newElement name attributes) := by
  refine ⟨?_, ?_⟩
  · rw [newElement, startsPlainly, name_make]
    exact letter
  · rintro element ⟨⟩
    rw [name_make]
    exact noImage

theorem isAddable_comment (body : String) : IsAddable (.comment body) :=
  ⟨trivial, nofun⟩

theorem perm_insert (index new : Nat) (children : List Nat) :
    (children.take index ++ new :: children.drop index).Perm (new :: children) := by
  refine List.perm_middle.trans ?_
  rw [List.take_append_drop]

/-- There is a head, and a new one stands where markup may stand. -/
theorem altered_ensureHead (orderly : IsOrderly document) :
    Altered document (ensureHead document).1 ∧
      (ensureHead document).1.isNamed "head" (ensureHead document).2 = true := by
  unfold ensureHead
  split
  · next head found => exact ⟨.refl, Document.isNamed_of_findFirst? found⟩
  · have place : (document.findFirst? "html").getD Document.root < document.size ∧
        (document.content ((document.findFirst? "html").getD Document.root)).holdsChildren = true ∧
        (document.content ((document.findFirst? "html").getD Document.root)).holdsBody = false := by
      cases found : document.findFirst? "html" with
      | none =>
          rw [Option.getD_none, orderly.content_root]
          exact ⟨orderly.forest.nonempty, rfl, rfl⟩
      | some html =>
          exact takesMarkup_of_isNamed (Document.isNamed_of_findFirst? found) (by decide)
    dsimp only
    generalize (document.findFirst? "html").getD Document.root = parent at place
    obtain ⟨inside, holds, noBody⟩ := place
    rw [Document.insertChild_eq_attach]
    refine ⟨.single (.add inside holds noBody (isAddable_newElement rfl (by decide) [])
      (perm_insert 0 document.size)), ?_⟩
    rw [Document.isNamed_eq_true_iff, Document.content_attach inside, if_pos rfl]
    exact ⟨_, rfl, rfl⟩

theorem altered_insertFrom
    (orderly : IsOrderly document)
    {head : Nat}
    (isHead : document.isNamed "head" head = true)
    (index : Nat)
    {contents : List Content}
    (addable : ∀ content ∈ contents, IsAddable content) :
    Altered document (insertFrom head index contents document) := by
  induction contents generalizing document index with
  | nil => exact .refl
  | cons content contents inductionHypothesis =>
      obtain ⟨here, rest⟩ := List.forall_mem_cons.mp addable
      have inserts : Alters document (document.insertChild head index content) := by
        rw [Document.insertChild_eq_attach]
        exact alters_attach_head isHead here (perm_insert index document.size)
      exact .head inserts (inductionHypothesis (inserts.isOrderly orderly)
        ((inserts.spares orderly).isNamed isHead) (index + 1) rest)

/-- Whether a content is a meta element that passes a test. -/
def isMeta (test : Element → Bool) : Content → Bool
  | .element element => element.name == "meta" && test element
  | _ => false

/-- Whether a content is the comment with the settings. -/
def isSettingsComment : Content → Bool
  | .comment body => Text.holds "o:OfficeDocumentSettings" body
  | _ => false

/-- What a head is to hold: how it is recognised, and what is put in when nothing is. -/
def headMarks : List ((Content → Bool) × Content) :=
  [(isMeta fun element => hasValue "http-equiv" "Content-Type" element || element.hasAttr "charset",
      newElement "meta" [("http-equiv", "Content-Type"), ("content", "text/html; charset=utf-8")]),
    (isMeta (hasValue "name" "viewport"),
      newElement "meta"
        [("name", "viewport"), ("content", "width=device-width, initial-scale=1.0")]),
    (isMeta (hasValue "http-equiv" "X-UA-Compatible"),
      newElement "meta" [("http-equiv", "X-UA-Compatible"), ("content", "IE=edge")]),
    (isSettingsComment, .comment settingsComment)]

/-- What is put in is recognised, and it is no head. -/
theorem headMarks_recognised :
    ∀ mark ∈ headMarks, mark.1 mark.2 = true ∧
      ∀ element, mark.2 = .element element → element.name ≠ "head" := by
  simp only [headMarks, List.forall_mem_cons, List.not_mem_nil, false_implies, implies_true]
  refine ⟨⟨by decide, ?_⟩, ⟨by decide, ?_⟩, ⟨by decide, ?_⟩, ⟨by decide +kernel, nofun⟩, trivial⟩
  all_goals rintro _ ⟨⟩; decide

theorem any_metaElements (document : Document) (head : Nat) (test : Element → Bool) :
    (metaElements document head).any test =
      (document.children head).any fun id => isMeta test (document.content id) := by
  rw [metaElements, List.any_filter, List.any_filterMap]
  congr 1
  funext id
  rw [Document.element?_eq]
  cases document.content id <;> rfl

/-- A head lacks what nothing in it is recognised as. -/
theorem missingMeta_eq (document : Document) (head : Nat) :
    missingMeta document head =
      (headMarks.filter fun mark =>
        !(document.children head).any fun id => mark.1 (document.content id)).map Prod.snd := by
  have settings : (document.children head).any (isSettings document) =
      (document.children head).any fun id => isSettingsComment (document.content id) := by
    congr 1
  have charset : ((metaElements document head).any (hasValue "http-equiv" "Content-Type") ||
      (metaElements document head).any (·.hasAttr "charset")) =
        (metaElements document head).any fun element =>
          hasValue "http-equiv" "Content-Type" element || element.hasAttr "charset" := by
    rw [Bool.eq_iff_iff]
    simp only [Bool.or_eq_true, List.any_eq_true]
    grind
  unfold missingMeta
  dsimp only
  rw [charset, settings]
  simp only [any_metaElements, headMarks, List.filter_cons, List.filter_nil]
  clear charset settings
  generalize (document.children head).any _ = charset
  generalize (document.children head).any _ = viewport
  generalize (document.children head).any _ = compatibility
  generalize (document.children head).any _ = settings
  cases charset <;> cases viewport <;> cases compatibility <;> cases settings <;> rfl

theorem isAddable_missingMeta (document : Document) (head : Nat) :
    ∀ content ∈ missingMeta document head, IsAddable content := by
  have marks : ∀ mark ∈ headMarks, IsAddable mark.2 := by
    simp only [headMarks, List.forall_mem_cons, List.not_mem_nil, false_implies, implies_true]
    exact ⟨isAddable_newElement rfl (by decide) _, isAddable_newElement rfl (by decide) _,
      isAddable_newElement rfl (by decide) _, isAddable_comment settingsComment, trivial⟩
  intro content member
  rw [missingMeta_eq] at member
  obtain ⟨mark, listed, rfl⟩ := List.mem_map.mp member
  exact marks mark (List.mem_filter.mp listed).1

theorem altered_addMetaTags (orderly : IsOrderly document) :
    Altered document (addMetaTags document) := by
  obtain ⟨headed, isHead⟩ := altered_ensureHead orderly
  exact headed.trans (altered_insertFrom (isOrderly_of_altered headed orderly) isHead 0
    (isAddable_missingMeta _ _))

theorem alters_appendText_style
    {style : Nat}
    (isStyle : document.isNamed "style" style = true)
    (css : String) :
    Alters document (document.appendText style css) := by
  refine .text (Document.isElement_of_isNamed isStyle) fun noBody => ?_
  rw [holdsBody_of_isNamed_style isStyle] at noBody
  cases noBody

theorem altered_addHeadCss (orderly : IsOrderly document) (css : String) :
    Altered document (addHeadCss document css) := by
  unfold addHeadCss
  split
  · exact .refl
  · obtain ⟨headed, isHead⟩ := altered_ensureHead orderly
    dsimp only
    refine headed.trans ?_
    generalize (ensureHead document).1 = document, (ensureHead document).2 = head at isHead
    split
    · next style found =>
        exact .single (alters_appendText_style (List.find?_some found) css)
    · rw [Document.appendChild_eq_attach]
      refine .head (alters_attach_head isHead (isAddable_newElement rfl (by decide) _)
        fun children => List.perm_append_singleton _ children)
        (.single (alters_appendText_style ?_ css))
      rw [Document.isNamed_eq_true_iff,
        Document.content_attach (takesMarkup_of_isNamed isHead (by decide)).1, if_pos rfl]
      exact ⟨_, rfl, rfl⟩

theorem altered_appendLine
    {head : Nat}
    (isHead : document.isNamed "head" head = true) :
    Altered document (document.appendText head "\n") :=
  .single (.text (Document.isElement_of_isNamed isHead) fun _ => by decide)

theorem altered_appendChild
    {head : Nat}
    (isHead : document.isNamed "head" head = true)
    {content : Content}
    (addable : IsAddable content) :
    Altered document (document.appendChild head content) := by
  rw [Document.appendChild_eq_attach]
  exact .single (alters_attach_head isHead addable
    fun children => List.perm_append_singleton _ children)

theorem altered_addLink
    {head : Nat}
    (orderly : IsOrderly document)
    (isHead : document.isNamed "head" head = true)
    (href : String) :
    Altered document (addLink head document href) := by
  have lined := altered_appendLine isHead
  have later := (spares_of_altered lined orderly).isNamed isHead
  exact lined.trans (altered_appendChild later (isAddable_newElement rfl (by decide) _))

theorem altered_addLinks (orderly : IsOrderly document) (hrefs : List String) :
    Altered document (addLinks document hrefs) := by
  obtain ⟨headed, isHead⟩ := altered_ensureHead orderly
  unfold addLinks
  dsimp only
  refine headed.trans ?_
  replace orderly := (isOrderly_of_altered headed orderly)
  clear headed
  generalize (ensureHead document).1 = document, (ensureHead document).2 = head at *
  have line {document : Document} (orderly : IsOrderly document)
      (isHead : document.isNamed "head" head = true) (body : String) :
      Altered document ((document.appendText head "\n").appendChild head (.comment body)) := by
    have lined := altered_appendLine isHead
    have later := (spares_of_altered lined orderly).isNamed isHead
    exact lined.trans (altered_appendChild later (isAddable_comment body))
  have links {document : Document} (orderly : IsOrderly document)
      (isHead : document.isNamed "head" head = true) :
      Altered document (hrefs.foldl (addLink head) document) := by
    induction hrefs generalizing document with
    | nil => exact .refl
    | cons href hrefs inductionHypothesis =>
        have linked := altered_addLink orderly isHead href
        exact linked.trans (inductionHypothesis (isOrderly_of_altered linked orderly)
          ((spares_of_altered linked orderly).isNamed isHead))
  -- The head stays one after every step, and so markup may stand in it.
  have headed {later : Document} (altered : Altered document later) :
      later.isNamed "head" head = true :=
    (spares_of_altered altered orderly).isNamed isHead
  have opened := line orderly isHead linksBegin
  have linked := opened.trans (links (isOrderly_of_altered opened orderly) (headed opened))
  have closed := linked.trans (line (isOrderly_of_altered linked orderly) (headed linked) linksEnd)
  exact closed.trans (altered_appendLine (headed closed))

/-! ## Stages that take away -/

theorem altered_removeUnused (orderly : IsOrderly document) (kept : List String) :
    Altered document (Style.removeUnused document kept) := by
  unfold Style.removeUnused
  split
  · exact .refl
  · next head found =>
      have styles : ∀ id ∈ (document.descendants head).filter (document.isNamed "style"),
          document.isNamed "style" id = true :=
        fun id member => (List.mem_filter.mp member).2
      generalize (document.descendants head).filter (document.isNamed "style") = ids at styles
      clear found
      induction ids generalizing document with
      | nil => exact .refl
      | cons id ids inductionHypothesis =>
          obtain ⟨here, rest⟩ := List.forall_mem_cons.mp styles
          have rewrites : Alters document (Style.rewriteStyle kept document id) :=
            .rewrite here _
          refine .head rewrites (inductionHypothesis (rewrites.isOrderly orderly)
            fun other member => ?_)
          exact (rewrites.spares orderly).isNamed (rest other member)

theorem altered_stripComments (document : Document) :
    Altered document (stripComments document) := by
  unfold stripComments
  have comments : ∀ id ∈ (document.descendants Document.root).filter (isAuthorComment document),
      ∃ body, document.content id = .comment body :=
    fun id member => exists_comment_of_mem_authorComments member
  generalize (document.descendants Document.root).filter (isAuthorComment document) = ids
    at comments
  induction ids generalizing document with
  | nil => exact .refl
  | cons id ids inductionHypothesis =>
      obtain ⟨⟨body, isComment⟩, rest⟩ := List.forall_mem_cons.mp comments
      refine .head (.uncomment isComment) (inductionHypothesis _ fun other member => ?_)
      rw [Document.content_detach]
      exact rest other member

/-! ## Whole pages -/

/-- The document of a page for production when its images are given their sizes. -/
def styledDocument
    (finish : Settings.Finish)
    (document : Document)
    (styles : Styles) :
    Document :=
  let document := prepared finish document
  let document := if finish.metaTags then addMetaTags document else document
  Style.inlineStyles (addHeadCss document styles.head) styles.inline finish.sizeAttributes

/-- The document of a page for production from one whose images have their sizes. -/
def finishedDocument (finish : Settings.Finish) (document : Document) : Document :=
  stripComments
    (if finish.removeUnusedCss then Style.removeUnused document finish.whitelist else document)

theorem productionDocument_eq
    (finish : Settings.Finish)
    (document : Document)
    (styles : Styles)
    (resolved : Image.Resolved) :
    productionDocument finish document styles resolved =
      finishedDocument finish
        (Image.annotate (styledDocument finish document styles) resolved true) := rfl

theorem altered_styledDocument
    (orderly : IsOrderly document)
    (finish : Settings.Finish)
    (styles : Styles) :
    Altered document (styledDocument finish document styles) := by
  have filled := altered_prepared orderly finish
  have tagged : Altered document (if finish.metaTags then addMetaTags (prepared finish document)
      else prepared finish document) := by
    split
    · exact filled.trans (altered_addMetaTags (isOrderly_of_altered filled orderly))
    · exact filled
  exact (tagged.trans (altered_addHeadCss (isOrderly_of_altered tagged orderly) _)).trans
    (altered_inlineStyles _ _ _)

theorem altered_finishedDocument (orderly : IsOrderly document) (finish : Settings.Finish) :
    Altered document (finishedDocument finish document) := by
  unfold finishedDocument
  refine .trans ?_ (altered_stripComments _)
  split
  · exact altered_removeUnused orderly _
  · exact .refl

/-- The document of a page for production comes about by alterations. -/
theorem altered_productionDocument
    (orderly : IsOrderly document)
    (finish : Settings.Finish)
    (styles : Styles)
    (resolved : Image.Resolved) :
    Altered document (productionDocument finish document styles resolved) := by
  rw [productionDocument_eq]
  have sized := (altered_styledDocument orderly finish styles).trans
    (altered_annotate _ resolved true)
  exact sized.trans (altered_finishedDocument (isOrderly_of_altered sized orderly) finish)

/-- The document of a page for development when its images are given their sizes. -/
def linkedDocument
    (finish : Settings.Finish)
    (document : Document)
    (styles : Styles) :
    Document :=
  addLinks (prepared finish document) styles.links

theorem altered_linkedDocument
    (orderly : IsOrderly document)
    (finish : Settings.Finish)
    (styles : Styles) :
    Altered document (linkedDocument finish document styles) := by
  have filled := altered_prepared orderly finish
  exact filled.trans (altered_addLinks (isOrderly_of_altered filled orderly) _)

/-- So does the document of a page for development. -/
theorem altered_developmentDocument
    (orderly : IsOrderly document)
    (finish : Settings.Finish)
    (styles : Styles)
    (resolved : Image.Resolved) :
    Altered document (developmentDocument finish document styles resolved) :=
  (altered_linkedDocument orderly finish styles).trans (altered_annotate _ resolved false)

end Page
end MailPress
