import Mathlib.Data.List.Permutation
import MailPress.Proofs.Page.Stages
import MailPress.Proofs.Project.Stage

/-!
# Sizes of images in finished pages

The sizes of images are searched for in the document that was read, and written into one that
has gone through other stages since. No stage adds an image or takes a source or a size from
one, so whatever is to be given a size then was looked at before, and what its author sized
stays as it was.
-/

namespace MailPress

open Markup

namespace Image

/-! ## Writing sizes -/

theorem hasAttr_setAttr_self (name value : String) (element : Element) :
    (element.setAttr name value).hasAttr name = true := by
  unfold Element.setAttr Element.hasAttr
  dsimp only
  induction element.attributes with
  | nil => simp [setAttribute]
  | cons first rest inductionHypothesis =>
      by_cases same : first.name = name
      · simp [setAttribute, same]
      · simp [setAttribute, same, inductionHypothesis]

theorem hasAttr_setAttrIfMissing_self (name value : String) (element : Element) :
    (element.setAttrIfMissing name value).hasAttr name = true := by
  unfold Element.setAttrIfMissing
  split
  · assumption
  · exact hasAttr_setAttr_self name value element

/-- Whether an element has both size attributes. -/
def isSized (element : Element) : Bool :=
  element.hasAttr "width" && element.hasAttr "height"

theorem isSized_of_spares
    {element later : Element}
    (spares : element.Spares later)
    (sized : isSized element = true) :
    isSized later = true := by
  obtain ⟨width, height⟩ := Bool.and_eq_true_iff.mp sized
  exact Bool.and_eq_true_iff.mpr
    ⟨spares.hasAttr (by decide) width, spares.hasAttr (by decide) height⟩

/-- An element that is given a size has both size attributes. -/
theorem isSized_withSize
    (production : Bool)
    (size : Size)
    (element : Element) :
    isSized (withSize production size element) = true := by
  unfold withSize
  dsimp only
  have width := hasAttr_setAttrIfMissing_self "width" (toString size.width) element
  generalize element.setAttrIfMissing "width" (toString size.width) = widened at width
  have spares : widened.Spares (widened.setAttrIfMissing "height" (toString size.height)) :=
    .setAttrIfMissing (by decide) _ widened
  have sized : isSized (widened.setAttrIfMissing "height" (toString size.height)) = true :=
    Bool.and_eq_true_iff.mpr ⟨spares.hasAttr (by decide) width,
      hasAttr_setAttrIfMissing_self "height" _ widened⟩
  split
  · refine isSized_of_spares ?_ sized
    unfold withStyledSize
    dsimp only
    split
    · exact .refl _
    · exact .setAttr (by decide) _ _
  · exact sized

/-- The images to be sized are those without both size attributes whose source is not skipped. -/
theorem mem_unsized_iff
    {document : Document}
    {image : Nat × String} :
    image ∈ unsized document ↔
      image.1 ∈ document.findAll "img" ∧
        ∃ element raw, document.element? image.1 = some element ∧ isSized element = false ∧
          element.decodedAttr? "src" = some raw ∧ Text.trimmed raw = image.2 ∧
            isSkipped image.2 = false := by
  obtain ⟨id, source⟩ := image
  unfold unsized
  simp only [List.mem_filterMap, Option.map_eq_some_iff, Option.bind_eq_some_iff, Prod.mk.injEq]
  constructor
  · rintro ⟨other, listed, found, ⟨element, isElement, isSource⟩, rfl, rfl⟩
    unfold unsizedSource? at isSource
    split at isSource
    · cases isSource
    · next unsized =>
        obtain ⟨mapped, notSkipped⟩ := Option.filter_eq_some_iff.mp isSource
        obtain ⟨raw, hasSource, trimmed⟩ := Option.map_eq_some_iff.mp mapped
        exact ⟨listed, element, raw, isElement, by simpa [isSized] using unsized, hasSource,
          trimmed, by simpa using notSkipped⟩
  · rintro ⟨listed, element, raw, isElement, unsized, hasSource, trimmed, notSkipped⟩
    refine ⟨id, listed, source, ⟨element, isElement, ?_⟩, rfl, rfl⟩
    unfold unsizedSource?
    unfold isSized at unsized
    rw [if_neg (by simp [unsized]), hasSource, Option.map_some, trimmed, Option.filter_some,
      if_pos (by simp [notSkipped])]

/-- The steps of writing sizes, one for every image. -/
def annotateAll
    (resolved : Resolved)
    (production : Bool)
    (document : Document)
    (images : List (Nat × String)) :
    Document :=
  images.foldl (fun sized image =>
    match resolved.get? image.2 with
    | some size => sized.modifyElement image.1 (withSize production size)
    | none => sized) document

section Steps

variable {resolved : Resolved} {production : Bool}

/-- A node whose size is not asked for is left as it is. -/
theorem node_annotateAll_of_not_mem
    {images : List (Nat × String)}
    {id : Nat}
    (absent : id ∉ images.map Prod.fst)
    (document : Document) :
    (annotateAll resolved production document images).node id = document.node id := by
  induction images generalizing document with
  | nil => rfl
  | cons image images inductionHypothesis =>
      obtain ⟨different, rest⟩ := List.ne_and_not_mem_of_not_mem_cons absent
      refine (inductionHypothesis rest _).trans ?_
      dsimp only
      split
      · rw [Document.node_modifyElement, if_neg different]
      · rfl

/-- Whoever is given a size keeps it, and whoever has one is not worse off. -/
theorem spares_annotateAll
    (document : Document)
    (images : List (Nat × String))
    {id : Nat}
    {element : Element}
    (found : document.element? id = some element) :
    ∃ later, (annotateAll resolved production document images).element? id = some later ∧
      element.Spares later := by
  induction images generalizing document element with
  | nil => exact ⟨element, found, .refl element⟩
  | cons image images inductionHypothesis =>
      have step : ∃ next, (annotateAll resolved production document [image]).element? id =
          some next ∧ element.Spares next := by
        unfold annotateAll
        rw [List.foldl_cons, List.foldl_nil]
        split
        · next size _ =>
            have node_eq := Document.node_modifyElement document image.1 id
              (withSize production size)
            by_cases same : id = image.1
            · refine ⟨_, ?_, Page.spares_withSize production size element⟩
              rw [Document.element?_of_node_eq_mapElement (node_eq.trans (if_pos same)), found]
              rfl
            · refine ⟨element, ?_, .refl element⟩
              rw [Document.element?, Document.content, node_eq, if_neg same]
              exact found
        · exact ⟨element, found, .refl element⟩
      obtain ⟨next, foundNext, spares⟩ := step
      obtain ⟨later, foundLater, sparesOn⟩ := inductionHypothesis _ foundNext
      exact ⟨later, foundLater, spares.trans sparesOn⟩

/-- An image whose size was found has both size attributes in the end. -/
theorem isSized_annotateAll
    (document : Document)
    {images : List (Nat × String)}
    {image : Nat × String}
    (member : image ∈ images)
    {size : Size}
    (answer : resolved.get? image.2 = some size)
    {element : Element}
    (found : document.element? image.1 = some element) :
    ∃ later, (annotateAll resolved production document images).element? image.1 = some later ∧
      element.Spares later ∧ isSized later = true := by
  obtain ⟨before, after, rfl⟩ := List.append_of_mem member
  obtain ⟨middle, foundMiddle, spares⟩ := spares_annotateAll document before found
  have sized : (annotateAll resolved production
      (annotateAll resolved production document before) [image]).element? image.1 =
        some (withSize production size middle) := by
    rw [annotateAll, List.foldl_cons, List.foldl_nil]
    simp only [answer]
    rw [Document.element?_of_node_eq_mapElement
      ((Document.node_modifyElement _ image.1 image.1 _).trans (if_pos rfl)), foundMiddle]
    rfl
  obtain ⟨later, foundLater, sparesOn⟩ := spares_annotateAll _ after sized
  refine ⟨later, ?_, (spares.trans (Page.spares_withSize production size middle)).trans sparesOn,
    isSized_of_spares sparesOn (isSized_withSize production size middle)⟩
  rw [← foundLater, annotateAll, annotateAll, annotateAll, annotateAll, List.foldl_append]
  rfl

end Steps

theorem annotate_eq
    (document : Document)
    (resolved : Resolved)
    (production : Bool) :
    annotate document resolved production =
      annotateAll resolved production document (unsized document) := rfl

/-- An image that has a source, not a skipped one, whose size was found. -/
def IsResolved (resolved : Resolved) (element : Element) : Prop :=
  ∃ raw, element.decodedAttr? "src" = some raw ∧ isSkipped (Text.trimmed raw) = false ∧
    (resolved.get? (Text.trimmed raw)).isSome = true

theorem isResolved_iff_of_spares
    {resolved : Resolved}
    {element later : Element}
    (spares : element.Spares later) :
    IsResolved resolved later ↔ IsResolved resolved element := by
  rw [IsResolved, IsResolved, spares.decodedAttr?_eq]

/-- When sizes have been written, every image whose size was found has both size attributes. -/
theorem isSized_annotate
    {document : Document}
    {resolved : Resolved}
    {id : Nat}
    {element : Element}
    (listed : id ∈ document.findAll "img")
    (found : document.element? id = some element)
    (isResolved : IsResolved resolved element)
    (production : Bool) :
    ∃ later, (annotate document resolved production).element? id = some later ∧
      element.Spares later ∧ isSized later = true := by
  obtain ⟨raw, source, notSkipped, answer⟩ := isResolved
  obtain ⟨size, answer⟩ := Option.isSome_iff_exists.mp answer
  rw [annotate_eq]
  cases sized : isSized element with
  | true =>
      obtain ⟨later, foundLater, spares⟩ := spares_annotateAll document (unsized document) found
      exact ⟨later, foundLater, spares, isSized_of_spares spares sized⟩
  | false =>
      have member : (id, Text.trimmed raw) ∈ unsized document :=
        mem_unsized_iff.mpr ⟨listed, element, raw, found, sized, source, rfl, notSkipped⟩
      exact isSized_annotateAll document member answer found

/-! ## What is searched for -/

theorem mem_insertSource
    {source other : String}
    {sources : List String} :
    other ∈ insertSource source sources ↔ other = source ∨ other ∈ sources := by
  induction sources with
  | nil => simp [insertSource]
  | cons first rest inductionHypothesis =>
      unfold insertSource
      split
      · simp
      · split
        · next same => simp [same]
        · simp [inductionHypothesis, or_left_comm]

/-- The sources that are searched for are those of the images without both size attributes. -/
theorem mem_unsizedSources_iff
    {document : Document}
    {source : String} :
    source ∈ unsizedSources document ↔ ∃ id, (id, source) ∈ unsized document := by
  have collected (images : List (Nat × String)) (sources : List String) :
      source ∈ images.foldl (fun sources image => insertSource image.2 sources) sources ↔
        source ∈ sources ∨ ∃ id, (id, source) ∈ images := by
    induction images generalizing sources with
    | nil => simp
    | cons image images inductionHypothesis =>
        rw [List.foldl_cons, inductionHypothesis, mem_insertSource]
        simp only [List.mem_cons]
        constructor
        · rintro ((rfl | old) | ⟨id, later⟩)
          · exact .inr ⟨image.1, .inl rfl⟩
          · exact .inl old
          · exact .inr ⟨id, .inr later⟩
        · rintro (old | ⟨id, rfl | later⟩)
          · exact .inl (.inr old)
          · exact .inl (.inl rfl)
          · exact .inr ⟨id, later⟩
  rw [unsizedSources, collected]
  simp

/-- Searching for one more size takes no warning back, and warns when there is none. -/
theorem warnings_find
    (search : Search)
    (network : Network)
    (template : Template)
    (source : String) :
    search.warnings ⊆ (search.find network template source).2.warnings ∧
      ((search.find network template source).1 = none →
        ∃ fault : Fault, fault.message ∈ (search.find network template source).2.warnings) := by
  have natural : search.warnings ⊆ (search.findNatural network template source).2.warnings := by
    unfold Search.findNatural
    split
    · exact List.Subset.refl _
    · split
      · unfold Search.findRemote
        split
        · exact List.Subset.refl _
        · dsimp only
          split <;> exact List.Subset.refl _
      · unfold Search.findLocal
        dsimp only
        split
        · exact List.Subset.refl _
        · unfold Search.copyLocal
          dsimp only
          split
          · exact List.Subset.refl _
          · exact List.subset_append_left _ _
  unfold Search.find
  split
  · next fault after found =>
      rw [found] at natural
      exact ⟨List.Subset.trans natural (List.subset_append_left _ _),
        fun _ => ⟨fault, by simp [Search.warn]⟩⟩
  · next size after found =>
      rw [found] at natural
      exact ⟨List.Subset.trans natural (List.subset_append_left _ _), nofun⟩

/-- A source for which no size was found was warned about. -/
theorem exists_warning_sizeAll
    {network : Network}
    {template : Template}
    {sources : List String}
    {sizes : List (String × Size)}
    {search : Search}
    {source : String}
    (listed : source ∈ sources)
    (unresolved :
      (Session.sizeAll network template sources (sizes, search)).1.lookup source = none) :
    ∃ fault : Fault,
      fault.message ∈ (Session.sizeAll network template sources (sizes, search)).2.warnings := by
  -- What was found and what was warned about stays through the rest of the search.
  have goesOn (sources : List String) (sizes : List (String × Size)) (search : Search) :
      sizes ⊆ (Session.sizeAll network template sources (sizes, search)).1 ∧
        search.warnings ⊆
          (Session.sizeAll network template sources (sizes, search)).2.warnings := by
    induction sources generalizing sizes search with
    | nil => exact ⟨List.Subset.refl _, List.Subset.refl _⟩
    | cons other sources inductionHypothesis =>
        obtain ⟨found, warned⟩ := inductionHypothesis
          (((search.find network template other).1.map fun size => (other, size)).toList ++ sizes)
          (search.find network template other).2
        exact ⟨List.Subset.trans (List.subset_append_right _ _) found,
          List.Subset.trans (warnings_find search network template other).1 warned⟩
  induction sources generalizing sizes search with
  | nil => cases listed
  | cons other sources inductionHypothesis =>
      rcases List.mem_cons.mp listed with rfl | rest
      · obtain ⟨kept, warned⟩ := goesOn sources
          (((search.find network template source).1.map fun size => (source, size)).toList ++ sizes)
          (search.find network template source).2
        cases answer : (search.find network template source).1 with
        | none =>
            obtain ⟨fault, member⟩ := (warnings_find search network template source).2 answer
            exact ⟨fault, warned member⟩
        | some size =>
            have found : (source, size) ∈
                (Session.sizeAll network template (source :: sources) (sizes, search)).1 :=
              kept (by simp [answer])
            rw [List.lookup_eq_none_iff] at unresolved
            exact absurd (unresolved _ found) (by simp)
      · exact inductionHypothesis rest unresolved

/-- When the images of a document are searched for, a source without a size is warned about. -/
theorem exists_warning_resolve
    (network : Network)
    (sizer : Sizer)
    (space : Workspace)
    (template : Template)
    {document : Document}
    {source : String}
    (listed : source ∈ unsizedSources document)
    (unresolved : (resolve network sizer space document template).1.get? source = none) :
    ∃ fault : Fault,
      fault.message ∈ (resolve network sizer space document template).1.warnings := by
  have eq := Session.resolve_eq network sizer space document template
  dsimp only at eq
  rw [eq] at unresolved ⊢
  obtain ⟨fault, member⟩ := exists_warning_sizeAll listed unresolved
  exact ⟨fault, List.mem_mergeSort.mpr member⟩

end Image

namespace Page

open Image

/-! ## Whole pages -/

/-- Every image whose size was found has both size attributes. -/
def IsComplete (resolved : Resolved) (document : Document) : Prop :=
  ∀ id ∈ document.findAll "img", ∀ element, document.element? id = some element →
    IsResolved resolved element → isSized element = true

/-- What a page makes of the images of a document: the document as it was read, as it is when
the sizes are written, and as it is written in the end. -/
structure SizesImages
    (read before final : Document)
    (resolved : Resolved)
    (production : Bool) :
    Prop where
  /-- The images are those of the document that was read. -/
  images : ∀ id, id ∈ final.findAll "img" ↔ id ∈ read.findAll "img"
  /-- What is to be given a size was to be sized from the start, with the same source. -/
  considered : ∀ image ∈ unsized before, image ∈ unsized read ∧ image.2 ∈ unsizedSources read
  /-- An image that has both sizes when sizes are written is left as it is. -/
  untouched : ∀ id element, before.element? id = some element → isSized element = true →
    (annotate before resolved production).node id = before.node id
  /-- An image without both sizes has no source, a skipped one, or one that was not found. -/
  left : ∀ later ∈ [annotate before resolved production, final],
    ∀ id ∈ later.findAll "img", ∀ element, later.element? id = some element →
      isSized element = false → ∀ raw, element.decodedAttr? "src" = some raw →
        isSkipped (Text.trimmed raw) = true ∨ resolved.get? (Text.trimmed raw) = none
  /-- Every image whose size was found has both sizes. -/
  complete : IsComplete resolved final
  /-- Every element is there with its source, and each size that its author gave it has its
  value. -/
  kept : ∀ id ∈ read.elements, ∀ element, read.element? id = some element →
    id ∈ final.elements ∧ ∃ later, final.element? id = some later ∧
      later.named "src" = element.named "src" ∧
        ∀ side ∈ Element.sides, element.hasAttr side = true →
          later.named side = element.named side

theorem IsComplete.unresolved
    {resolved : Resolved}
    {document : Document}
    (complete : IsComplete resolved document)
    {id : Nat}
    (listed : id ∈ document.findAll "img")
    {element : Element}
    (found : document.element? id = some element)
    (unsized : isSized element = false)
    {raw : String}
    (source : element.decodedAttr? "src" = some raw) :
    isSkipped (Text.trimmed raw) = true ∨ resolved.get? (Text.trimmed raw) = none := by
  by_contra considered
  obtain ⟨notSkipped, answer⟩ := not_or.mp considered
  have isResolved : IsResolved resolved element :=
    ⟨raw, source, by simpa using notSkipped, by simpa using Option.isSome_iff_ne_none.mpr answer⟩
  rw [complete id listed element found isResolved] at unsized
  cases unsized

section

variable {read before final : Document} {resolved : Resolved} {production : Bool}

/-- The images of an altered document are those of the document. -/
theorem mem_findAll_of_altered
    (orderly : IsOrderly read)
    (rooted : read.IsRooted)
    (altered : Altered read final)
    (id : Nat) :
    id ∈ final.findAll "img" ↔ id ∈ read.findAll "img" := by
  have spares := spares_of_altered altered orderly
  have forest := (isOrderly_of_altered altered orderly).forest
  constructor
  · intro member
    exact rooted.mem_findAll (spares.old id (Document.mem_findAll_iff.mp member).2)
  · intro member
    obtain ⟨listed, isImage⟩ := List.mem_filter.mp member
    exact List.mem_filter.mpr ⟨spares.mem_elements orderly forest listed, spares.isNamed isImage⟩

/-- Behind an image of an altered document stands one of the document, with the same source and
with no more sizes. -/
theorem exists_image_of_altered
    (orderly : IsOrderly read)
    (rooted : read.IsRooted)
    (altered : Altered read final)
    {id : Nat}
    (listed : id ∈ final.findAll "img")
    {later : Element}
    (found : final.element? id = some later) :
    id ∈ read.findAll "img" ∧
      ∃ element, read.element? id = some element ∧ element.Spares later := by
  have listedBefore := (mem_findAll_of_altered orderly rooted altered id).mp listed
  refine ⟨listedBefore, ?_⟩
  obtain ⟨element, foundBefore⟩ := Option.isSome_iff_exists.mp
    (Document.isElement_of_isNamed (Document.mem_findAll_iff.mp listedBefore).2)
  obtain ⟨last, isLast, spares⟩ := (spares_of_altered altered orderly).kept id element foundBefore
  rw [found] at isLast
  cases isLast
  exact ⟨element, foundBefore, spares⟩

theorem isComplete_annotate
    (orderly : IsOrderly read)
    (rooted : read.IsRooted)
    (styled : Altered read before)
    (resolved : Resolved)
    (production : Bool) :
    IsComplete resolved (annotate before resolved production) := by
  intro id listed later found isResolved
  have sized := styled.trans (altered_annotate before resolved production)
  have listedRead := (mem_findAll_of_altered orderly rooted sized id).mp listed
  have listedBefore := (mem_findAll_of_altered orderly rooted styled id).mpr listedRead
  obtain ⟨element, foundBefore⟩ := Option.isSome_iff_exists.mp
    (Document.isElement_of_isNamed (Document.mem_findAll_iff.mp listedBefore).2)
  obtain ⟨last, isLast, spares⟩ : ∃ last,
      (annotate before resolved production).element? id = some last ∧ element.Spares last :=
    spares_annotateAll before (unsized before) foundBefore
  rw [found] at isLast
  cases isLast
  obtain ⟨last, isLast, _, done⟩ := isSized_annotate listedBefore foundBefore
    ((isResolved_iff_of_spares spares).mp isResolved) production
  rw [found] at isLast
  cases isLast
  exact done

/-- Stages that alter a document in front of the sizes and behind them size its images. -/
theorem sizesImages_of_altered
    (orderly : IsOrderly read)
    (rooted : read.IsRooted)
    (styled : Altered read before)
    (finished : Altered (annotate before resolved production) final) :
    SizesImages read before final resolved production := by
  have sized := styled.trans (altered_annotate before resolved production)
  have whole := sized.trans finished
  have spares := spares_of_altered whole orderly
  have done := isComplete_annotate orderly rooted styled resolved production
  have complete : IsComplete resolved final := by
    intro id listed later found isResolved
    have listedSized := (mem_findAll_of_altered orderly rooted sized id).mpr
      ((mem_findAll_of_altered orderly rooted whole id).mp listed)
    obtain ⟨element, foundSized⟩ := Option.isSome_iff_exists.mp
      (Document.isElement_of_isNamed (Document.mem_findAll_iff.mp listedSized).2)
    obtain ⟨last, isLast, sparesOn⟩ :=
      (spares_of_altered finished (isOrderly_of_altered sized orderly)).kept id element foundSized
    rw [found] at isLast
    cases isLast
    exact isSized_of_spares sparesOn (done id listedSized element foundSized
      ((isResolved_iff_of_spares sparesOn).mp isResolved))
  refine ⟨mem_findAll_of_altered orderly rooted whole, fun image member => ?_,
    fun id element found isBoth => ?_, fun later among id listed element found unsized raw => ?_,
    complete, fun id listed element found => ?_⟩
  · obtain ⟨listed, later, raw, found, unsized, source, trimmed, notSkipped⟩ :=
      mem_unsized_iff.mp member
    obtain ⟨listedRead, element, foundRead, sparesOn⟩ :=
      exists_image_of_altered orderly rooted styled listed found
    have unsizedRead : isSized element = false := by
      by_contra sized
      rw [isSized_of_spares sparesOn (by simpa using sized)] at unsized
      cases unsized
    have considered : image ∈ Image.unsized read := mem_unsized_iff.mpr
      ⟨listedRead, element, raw, foundRead, unsizedRead, sparesOn.decodedAttr?_eq ▸ source,
        trimmed, notSkipped⟩
    exact ⟨considered, mem_unsizedSources_iff.mpr ⟨image.1, considered⟩⟩
  · rw [annotate_eq]
    refine node_annotateAll_of_not_mem ?_ before
    rintro listed
    obtain ⟨image, member, rfl⟩ := List.mem_map.mp listed
    obtain ⟨_, other, _, isOther, unsized, _⟩ := mem_unsized_iff.mp member
    rw [found] at isOther
    cases isOther
    rw [isBoth] at unsized
    cases unsized
  · rcases List.mem_pair.mp among with rfl | rfl
    · exact done.unresolved listed found unsized
    · exact complete.unresolved listed found unsized
  · obtain ⟨later, foundLater, kept⟩ := spares.kept id element found
    exact ⟨spares.mem_elements orderly (isOrderly_of_altered whole orderly).forest listed, later,
      foundLater, kept.source_eq, kept.sides_eq⟩

end

/-- In both pages of a document, every image whose size was found has both size attributes, an
image that has both is not touched, and whatever size its author gave an element has its value.
An image that is left without a size has no source, a skipped one, or one whose size was not
found. Only what was looked for is given a size, although other stages ran in between; and a
source that was looked for in vain was warned about. -/
theorem pages_size_images
    {source : String}
    {document : Document}
    (read : Document.read source = .ok document)
    (finish : Settings.Finish)
    (styles : Styles)
    (resolved : Resolved) :
    (productionDocument finish document styles resolved =
        finishedDocument finish
          (annotate (styledDocument finish document styles) resolved true) ∧
      SizesImages document (styledDocument finish document styles)
        (productionDocument finish document styles resolved) resolved true) ∧
    (developmentDocument finish document styles resolved =
        annotate (linkedDocument finish document styles) resolved false ∧
      SizesImages document (linkedDocument finish document styles)
        (developmentDocument finish document styles resolved) resolved false) ∧
    ∀ network sizer space template, resolved = (resolve network sizer space document template).1 →
      ∀ source ∈ unsizedSources document, resolved.get? source = none →
        ∃ fault : Image.Fault, fault.message ∈ resolved.warnings := by
  have orderly := isOrderly_read read
  have rooted := (IsPage.read read).rooted
  have styled := altered_styledDocument orderly finish styles
  have sized := styled.trans (altered_annotate _ resolved true)
  have linked := altered_linkedDocument orderly finish styles
  refine ⟨⟨productionDocument_eq finish document styles resolved, ?_⟩, ⟨rfl, ?_⟩, ?_⟩
  · exact sizesImages_of_altered orderly rooted styled
      (altered_finishedDocument (isOrderly_of_altered sized orderly) finish)
  · exact sizesImages_of_altered orderly rooted linked .refl
  · rintro network sizer space template rfl source listed unresolved
    exact exists_warning_resolve network sizer space template listed unresolved

/-- A page that is an image with one size. -/
def photo : Document :=
  ⟨#[⟨.root, none, [1]⟩,
    ⟨.element ⟨"img", [⟨"src", "a.png"⟩, ⟨"height", "7"⟩], false⟩, some Document.root, []⟩]⟩

/-- The theorem at an image that lacks a width: both pages give it one, and keep its height. -/
theorem pages_size_images_photo :
    Document.read "<img src=\"a.png\" height=\"7\">" = .ok photo ∧
      ∀ page ∈ [productionDocument {} photo ⟨"", "", []⟩ ⟨[("a.png", ⟨4, 2⟩)], []⟩,
          developmentDocument {} photo ⟨"", "", []⟩ ⟨[("a.png", ⟨4, 2⟩)], []⟩],
        ∃ later, page.element? 1 = some later ∧ isSized later = true ∧
          later.named "height" = [⟨"height", "7"⟩] := by
  have read : Document.read "<img src=\"a.png\" height=\"7\">" = .ok photo := by cbv
  obtain ⟨⟨_, production⟩, ⟨_, development⟩, _⟩ :=
    pages_size_images read {} ⟨"", "", []⟩ ⟨[("a.png", ⟨4, 2⟩)], []⟩
  refine ⟨read, ?_⟩
  have both {before final : Document} {production : Bool}
      (sizes : SizesImages photo before final ⟨[("a.png", ⟨4, 2⟩)], []⟩ production) :
      ∃ later, final.element? 1 = some later ∧ isSized later = true ∧
        later.named "height" = [⟨"height", "7"⟩] := by
    have isImage : 1 ∈ photo.findAll "img" := by
      rw [show photo.findAll "img" = [1] by cbv]
      exact List.mem_singleton_self 1
    obtain ⟨_, later, found, source, kept⟩ :=
      sizes.kept 1 (List.mem_filter.mp isImage).1 _ rfl
    have isResolved : IsResolved ⟨[("a.png", ⟨4, 2⟩)], []⟩ later := by
      refine ⟨"a.png", ?_, by decide, by decide⟩
      rw [Element.decodedAttr?, Element.attr?_eq_head?, source]
      cbv
    exact ⟨later, found, sizes.complete 1 ((sizes.images 1).mpr isImage) later found isResolved,
      kept "height" (by decide) rfl⟩
  intro page among
  rcases List.mem_pair.mp among with rfl | rfl
  · exact both production
  · exact both development

end Page

end MailPress
