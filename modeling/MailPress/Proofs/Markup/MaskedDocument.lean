import MailPress.Proofs.Markup.Carried
import MailPress.Proofs.Markup.Appending
import MailPress.Proofs.Markup.Event
import MailPress.Proofs.Markup.Mask

/-!
# What is read from sources that are alike

Prepared sources that are alike are read into events that are alike. A text can fall into other
pieces, where an ampersand starts a reference, but the pieces add up to texts that are alike.
The name of an end tag can have a space in it, and then it need not be the same. No element has
such a name.

Events that are alike build documents that are alike: the same tree of nodes, with the same names,
and with values and texts that unmasking makes one. What is alike under two masks is the same.
-/

namespace MailPress
namespace Markup

/-! ## Texts and markup -/

/-- The characters of a source in front of markup are a text. -/
theorem IsPrepared.isText
    {text more : List Char}
    (prepared : IsPrepared (text ++ more))
    (apart : StartsApart more)
    (noAngle : '<' ∉ text) :
    IsText text := by
  refine ⟨noAngle, ?_⟩
  have refers := prepared.refers
  rcases apart with rfl | angle
  · rwa [List.append_nil] at refers
  · obtain ⟨tail, rfl⟩ := List.head?_eq_some_iff.mp angle
    clear prepared noAngle angle
    induction text with
    | nil => trivial
    | cons c text inductionHypothesis =>
        refine ⟨fun ampersand => ?_, inductionHypothesis refers.2⟩
        rw [← hasReferenceForm_append_cons (c := '<') rfl (by decide) text tail]
        exact refers.1 ampersand

/-- A source is a text in front of markup. -/
theorem exists_text_append (source : List Char) :
    ∃ text more, source = text ++ more ∧ '<' ∉ text ∧ StartsApart more := by
  refine ⟨source.takeWhile (· ≠ '<'), source.dropWhile (· ≠ '<'),
    List.takeWhile_append_dropWhile.symm, ?_, ?_⟩
  · intro member
    simpa using List.mem_takeWhile_imp member
  · cases left : source.dropWhile (· ≠ '<') with
    | nil => exact .inl rfl
    | cons c more =>
        have stops := List.head?_dropWhile_not (· ≠ '<') source
        rw [left] at stops
        exact .inr (by simpa using stops)

section Masked

variable {mask : Char} (isMask : mask ∈ masks)

include isMask

/-- Induction over two prepared sources that are alike, from text to text and from one mark up
to the next. -/
theorem Alike.induction
    {motive : List Char → List Char → Prop}
    (nil : motive [] [])
    (text : ∀ {text other more otherMore : List Char}, IsText text → text ≠ [] → IsText other →
      text.map (unmask mask) = other.map (unmask mask) → StartsApart more →
      StartsApart otherMore → motive more otherMore → motive (text ++ more) (other ++ otherMore))
    (markup : ∀ {first second : List Char}, first.head? = some '<' → Alike mask first second →
      (∀ {rest otherRest : List Char}, rest.length < first.length → rest <:+ first →
        otherRest <:+ second → Alike mask rest otherRest → motive rest otherRest) →
      motive first second)
    {first second : List Char}
    (alike : Alike mask first second)
    (prepared : IsPrepared first)
    (otherPrepared : IsPrepared second) :
    motive first second := by
  induction length : first.length using Nat.strongRecOn generalizing first second with
  | ind _ inductionHypothesis =>
      obtain ⟨front, more, rfl, noAngle, apart⟩ := exists_text_append first
      have same := alike.map_eq
      rw [List.map_append, eq_comm] at same
      obtain ⟨other, otherMore, rfl, frontSame, moreSame⟩ := List.map_eq_append_iff.mp same
      have lengths : front.length = other.length := by
        simpa using congrArg List.length frontSame.symm
      have moreAlike := alike.of_append lengths
      have otherApart : StartsApart otherMore := by
        rcases apart with rfl | angle
        · exact .inl (by simpa using moreSame)
        · exact .inr ((moreAlike.head?_eq_some_iff isMask (by decide)).mp angle)
      have otherFree : '<' ∉ other := by
        intro member
        have unmasked := List.mem_map_of_mem (f := unmask mask) member
        rw [frontSame, unmask_eq_self isMask (by decide)] at unmasked
        obtain ⟨c, inFront, angle⟩ := List.mem_map.mp unmasked
        exact noAngle ((unmask_eq_iff isMask (by decide)).mp angle ▸ inFront)
      by_cases empty : front = []
      · obtain rfl : other = [] := List.eq_nil_of_length_eq_zero (by rw [← lengths, empty]; rfl)
        subst empty
        rcases apart with rfl | angle
        · rw [List.map_eq_nil_iff.mp moreSame]
          exact nil
        · refine markup angle alike fun shorter isSuffix otherSuffix restAlike => ?_
          exact inductionHypothesis _ (length ▸ shorter) restAlike (prepared.of_suffix isSuffix)
            (otherPrepared.of_suffix otherSuffix) rfl
      · have shorter : more.length < (front ++ more).length := by
          simpa using List.length_pos_iff.mpr empty
        exact text (prepared.isText apart noAngle) empty
          (otherPrepared.isText otherApart otherFree) frontSame.symm apart otherApart
          (inductionHypothesis _ (length ▸ shorter) moreAlike
            (prepared.of_suffix (List.suffix_append front more))
            (otherPrepared.of_suffix (List.suffix_append other otherMore)) rfl)

end Masked

/-! ## Names -/

/-- A name with a space of tags in it. -/
def IsSpaced (name : List Char) : Prop :=
  ∃ c ∈ name, isTagSpace c = true

theorem tagName_eq_self
    {name : List Char}
    (notSpaced : ¬IsSpaced name) :
    tagName name = name := by
  refine List.takeWhile_eq_self_iff.mpr fun c member => ?_
  have notSpace : isTagSpace c ≠ true := fun space => notSpaced ⟨c, member, space⟩
  simp [notSpace]

theorem not_isSpaced_tagName (content : List Char) : ¬IsSpaced (tagName content) := by
  rintro ⟨c, member, space⟩
  have word := List.mem_takeWhile_imp member
  rw [space] at word
  cases word

theorem isTagSpace_lowerChar (c : Char) : isTagSpace (Text.lowerChar c) = isTagSpace c := by
  have same {space : Char} (small : ¬(97 ≤ space.toNat ∧ space.toNat ≤ 122))
      (kept : Text.lowerChar space = space) : Text.lowerChar c = space ↔ c = space :=
    ⟨Text.eq_of_lowerChar_eq small, fun same => same ▸ kept⟩
  rw [Bool.eq_iff_iff]
  simp only [isTagSpace, Bool.or_eq_true, beq_iff_eq]
  rw [same (by decide) (by decide), same (by decide) (by decide), same (by decide) (by decide),
    same (by decide) (by decide)]

theorem isSpaced_lowerName_iff
    {name : List Char} :
    IsSpaced (lowerName name).toList ↔ IsSpaced name := by
  rw [lowerName, Text.toList_lower, String.toList_ofList]
  simp [IsSpaced, isTagSpace_lowerChar]

/-- Names with the same first word are the same, or both have a space. -/
theorem eq_or_isSpaced_of_tagName_eq
    {mask : Char}
    {first second : List Char}
    (same : first.map (unmask mask) = second.map (unmask mask))
    (named : tagName first = tagName second) :
    first = second ∨ IsSpaced first ∧ IsSpaced second := by
  have lengths := congrArg List.length same
  rw [List.length_map, List.length_map] at lengths
  have unspaced {first second : List Char} (notSpaced : ¬IsSpaced first)
      (named : tagName first = tagName second) (lengths : first.length = second.length) :
      first = second := by
    rw [tagName_eq_self notSpaced] at named
    have whole := List.takeWhile_prefix (p := (!isTagSpace ·)) (l := second)
    exact (List.IsPrefix.eq_of_length (named ▸ whole) lengths)
  by_cases spaced : IsSpaced first
  · by_cases otherSpaced : IsSpaced second
    · exact .inr ⟨spaced, otherSpaced⟩
    · exact .inl (unspaced otherSpaced named.symm lengths.symm).symm
  · exact .inl (unspaced spaced named lengths)

/-! ## Raw text bodies -/

theorem depthAfter_eq_of_alike
    {mask : Char}
    {name : List Char}
    (unspaced : ¬IsSpaced name)
    (depth : Nat)
    {first second : Token}
    (alike : Token.Alike mask first second) :
    depthAfter name depth first = depthAfter name depth second := by
  cases alike with
  | start _ named => rw [depthAfter, depthAfter, named]
  | finish same named =>
      rcases eq_or_isSpaced_of_tagName_eq same named with rfl | ⟨spaced, otherSpaced⟩
      · rfl
      · have different {found : List Char} (spaced : IsSpaced found) : found ≠ name := by
          rintro rfl
          exact unspaced spaced
        simp [depthAfter, different spaced, different otherSpaced]
  | _ => rfl

section Masked

variable {mask : Char} (isMask : mask ∈ masks)

include isMask

/-- In sources that are alike, raw text bodies end at places that are alike. -/
theorem EndsBody.exists_alike
    {name : List Char}
    (unspaced : ¬IsSpaced name)
    {depth : Nat}
    {first second finish after : List Char}
    (ends : EndsBody name depth first finish after)
    (alike : Alike mask first second)
    (prepared : IsPrepared first)
    (otherPrepared : IsPrepared second) :
    ∃ otherFinish otherAfter, EndsBody name depth second otherFinish otherAfter ∧
      Alike mask finish otherFinish ∧ Alike mask after otherAfter := by
  revert depth
  refine Alike.induction isMask (motive := fun first second => ∀ {depth : Nat},
    EndsBody name depth first finish after → ∃ otherFinish otherAfter,
      EndsBody name depth second otherFinish otherAfter ∧ Alike mask finish otherFinish ∧
        Alike mask after otherAfter) ?nil ?text ?markup alike prepared otherPrepared
  case nil =>
    intro depth ends
    cases ends with
    | here reads | further reads => cases reads
  case text =>
    intro text other more otherMore isText nonempty otherText same apart otherApart
      inductionHypothesis depth ends
    obtain ⟨otherFinish, otherAfter, otherEnds, both⟩ :=
      inductionHypothesis ((endsBody_append_iff isText apart).mp ends)
    exact ⟨otherFinish, otherAfter, (endsBody_append_iff otherText otherApart).mpr otherEnds, both⟩
  case markup =>
    intro first second markup alike inductionHypothesis depth ends
    cases ends with
    | here reads ends =>
        obtain ⟨other, otherRest, otherReads, tokenAlike, restAlike⟩ :=
          reads.exists_alike isMask markup alike
        rw [depthAfter_eq_of_alike unspaced depth tokenAlike] at ends
        exact ⟨_, _, .here otherReads ends, alike, restAlike⟩
    | further reads goesOn restEnds =>
        obtain ⟨other, otherRest, otherReads, tokenAlike, restAlike⟩ :=
          reads.exists_alike isMask markup alike
        rw [depthAfter_eq_of_alike unspaced depth tokenAlike] at goesOn
        obtain ⟨otherFinish, otherAfter, otherEnds, both⟩ :=
          inductionHypothesis reads.length_lt reads.suffix otherReads.suffix restAlike restEnds
        exact ⟨otherFinish, otherAfter, .further otherReads goesOn otherEnds, both⟩

end Masked

/-! ## Events -/

/-- An element with the characters of its attributes unmasked. -/
def Element.unmask (mask : Char) (element : Element) : Element :=
  { element with attributes := element.attributes.map (Attribute.unmask mask) }

/-- Two events whose texts unmasking makes one, with the same names. Names of end tags may differ
when they have spaces. -/
inductive Event.Alike (mask : Char) : (first second : Event) → Prop
  | start
      {first second : Element}
      (same : first.unmask mask = second.unmask mask) :
      Alike mask (.start first) (.start second)
  | empty
      {first second : Element}
      (same : first.unmask mask = second.unmask mask) :
      Alike mask (.empty first) (.empty second)
  | finish (name : String) : Alike mask (.finish name) (.finish name)
  | spaced
      {first second : String}
      (firstSpaced : IsSpaced first.toList)
      (secondSpaced : IsSpaced second.toList) :
      Alike mask (.finish first) (.finish second)
  | comment
      {first second : String}
      (same : unmaskText mask first = unmaskText mask second) :
      Alike mask (.comment first) (.comment second)
  | cdata
      {first second : String}
      (same : unmaskText mask first = unmaskText mask second) :
      Alike mask (.cdata first) (.cdata second)
  | instruction
      {first second : String}
      (same : unmaskText mask first = unmaskText mask second) :
      Alike mask (.instruction first) (.instruction second)
  | declaration (first second : String) : Alike mask (.declaration first) (.declaration second)

/-- Two lists of events that are alike, but for the pieces that texts fall into. -/
inductive AreAlike (mask : Char) : (first second : List Event) → Prop
  | nil : AreAlike mask [] []
  | text
      {texts otherTexts first second : List Event}
      {raw other : String}
      (adds : AddRaw texts raw)
      (otherAdds : AddRaw otherTexts other)
      (same : unmaskText mask raw = unmaskText mask other)
      (rest : AreAlike mask first second) :
      AreAlike mask (texts ++ first) (otherTexts ++ second)
  | cons
      {event other : Event}
      {first second : List Event}
      (alike : Event.Alike mask event other)
      (rest : AreAlike mask first second) :
      AreAlike mask (event :: first) (other :: second)

theorem unmaskText_ofList_eq
    {mask : Char}
    {first second : List Char}
    (same : first.map (unmask mask) = second.map (unmask mask)) :
    unmaskText mask (String.ofList first) = unmaskText mask (String.ofList second) := by
  rw [unmaskText, unmaskText, String.toList_ofList, String.toList_ofList, same]

section Masked

variable {mask : Char} (isMask : mask ∈ masks)

include isMask

/-- Tags that are alike start elements that are. -/
theorem unmask_readElement_eq
    (selfClosing : Bool)
    {first second : List Char}
    (same : first.map (unmask mask) = second.map (unmask mask))
    (named : tagName first = tagName second) :
    (readElement selfClosing first).unmask mask = (readElement selfClosing second).unmask mask := by
  rw [readElement, readElement, Element.unmask, Element.unmask, named]
  dsimp only
  rw [← readAttributes_map_unmask isMask, ← readAttributes_map_unmask isMask,
    ← dropWhile_map_unmask (!isTagSpace ·) (inWord_unmask isMask),
    ← dropWhile_map_unmask (!isTagSpace ·) (inWord_unmask isMask), same]

/-- Tokens that are alike become events that are. -/
theorem Token.Alike.ofToken
    {first second : Token}
    (alike : Token.Alike mask first second) :
    Event.Alike mask (Event.ofToken first) (Event.ofToken second) := by
  cases alike with
  | start same named => exact .start (unmask_readElement_eq isMask false same named)
  | empty same named => exact .empty (unmask_readElement_eq isMask true same named)
  | finish same named =>
      rcases eq_or_isSpaced_of_tagName_eq same named with rfl | ⟨spaced, otherSpaced⟩
      · exact .finish _
      · exact .spaced (isSpaced_lowerName_iff.mpr spaced) (isSpaced_lowerName_iff.mpr otherSpaced)
  | comment same => exact .comment (unmaskText_ofList_eq same)
  | cdata same => exact .cdata (unmaskText_ofList_eq same)
  | instruction same => exact .instruction (unmaskText_ofList_eq same)
  | declaration => exact .declaration _ _

omit isMask in
theorem startsRawText_eq_of_alike
    {first second : Token}
    (alike : Token.Alike mask first second) :
    startsRawText first = startsRawText second := by
  cases alike with
  | start _ named => rw [startsRawText, startsRawText, readElement, readElement, named]
  | _ => rfl

omit isMask in
/-- Bodies that are alike become texts that are. -/
theorem areAlike_bodyEvents
    {first second : List Char}
    (same : first.map (unmask mask) = second.map (unmask mask))
    {events others : List Event}
    (areAlike : AreAlike mask events others) :
    AreAlike mask (bodyEvents first ++ events) (bodyEvents second ++ others) := by
  cases first with
  | nil =>
      rw [List.map_eq_nil_iff.mp same.symm]
      exact areAlike
  | cons c first =>
      cases second with
      | nil => cases same
      | cons d second =>
          exact .text (.single rfl) (.single rfl) (unmaskText_ofList_eq same) areAlike

/-- Prepared sources that are alike are read into events that are. -/
theorem ReadsAs.exists_alike
    {first second : List Char}
    {events : List Event}
    (reads : ReadsAs first events)
    (alike : Alike mask first second)
    (prepared : IsPrepared first)
    (otherPrepared : IsPrepared second) :
    ∃ others, ReadsAs second others ∧ AreAlike mask events others := by
  revert events
  refine Alike.induction isMask (motive := fun first second => ∀ {events : List Event},
    IsPrepared first → IsPrepared second → ReadsAs first events →
      ∃ others, ReadsAs second others ∧ AreAlike mask events others)
    ?nil ?text ?markup alike prepared otherPrepared prepared otherPrepared
  case nil =>
    intro events _ _ reads
    cases reads with
    | done => exact ⟨[], .done, .nil⟩
    | token reads | body reads => cases reads
  case text =>
    intro text other more otherMore isText nonempty otherText same apart otherApart
      inductionHypothesis events prepared otherPrepared reads
    have otherNonempty : other ≠ [] := by
      rintro rfl
      exact nonempty (List.map_eq_nil_iff.mp same)
    obtain ⟨texts, moreEvents, adds, moreReads, rfl⟩ :=
      isText.exists_of_readsAs_append nonempty apart reads
    obtain ⟨otherTexts, otherAdds, otherRead⟩ := otherText.exists_addRaw otherNonempty
    obtain ⟨others, otherReads, areAlike⟩ := inductionHypothesis
      (prepared.of_suffix (List.suffix_append ..)) (otherPrepared.of_suffix (List.suffix_append ..))
      moreReads
    exact ⟨otherTexts ++ others, otherRead _ _ otherApart otherReads,
      .text adds otherAdds (unmaskText_ofList_eq same) areAlike⟩
  case markup =>
    intro first second markup alike inductionHypothesis events prepared otherPrepared reads
    cases reads with
    | done => cases markup
    | token reads notRaw restReads =>
        obtain ⟨other, otherRest, otherReads, tokenAlike, restAlike⟩ :=
          reads.exists_alike isMask markup alike
        rw [startsRawText_eq_of_alike tokenAlike] at notRaw
        obtain ⟨others, restOther, areAlike⟩ := inductionHypothesis reads.length_lt reads.suffix
          otherReads.suffix restAlike (prepared.of_suffix reads.suffix)
          (otherPrepared.of_suffix otherReads.suffix) restReads
        exact ⟨_, .token otherReads notRaw restOther, .cons (tokenAlike.ofToken isMask) areAlike⟩
    | @body _ content body finish after events reads raw ends restReads =>
        obtain ⟨other, otherRest, otherReads, tokenAlike, restAlike⟩ :=
          reads.exists_alike isMask markup alike
        rw [startsRawText_eq_of_alike tokenAlike] at raw
        have restPrepared := prepared.of_suffix reads.suffix
        have otherRestPrepared := otherPrepared.of_suffix otherReads.suffix
        obtain ⟨otherFinish, otherAfter, otherEnds, finishAlike, afterAlike⟩ :=
          ends.exists_alike isMask (not_isSpaced_tagName content) restAlike restPrepared
            otherRestPrepared
        obtain ⟨⟨otherBody, rfl⟩, otherAfterSuffix⟩ := otherEnds.suffix
        have afterSuffix := ends.suffix.2.trans ends.suffix.1
        have otherSuffix := otherAfterSuffix.trans (List.suffix_append otherBody otherFinish)
        obtain ⟨others, restOther, areAlike⟩ := inductionHypothesis
          (Nat.lt_of_le_of_lt afterSuffix.length_le reads.length_lt)
          (afterSuffix.trans reads.suffix) (otherSuffix.trans otherReads.suffix) afterAlike
          (restPrepared.of_suffix afterSuffix)
          (otherRestPrepared.of_suffix otherSuffix) restReads
        have same := restAlike.map_eq
        have finishSame := finishAlike.map_eq
        rw [List.map_append, List.map_append, finishSame] at same
        have bodySame := List.append_cancel_right same
        cases tokenAlike with
        | start contentSame named =>
            rw [named] at otherEnds
            refine ⟨_, .body otherReads raw otherEnds restOther,
              .cons (.start (unmask_readElement_eq isMask false contentSame named)) ?_⟩
            have name_eq : (readElement false content).name = (readElement false _).name :=
              congrArg lowerName named
            rw [name_eq]
            exact areAlike_bodyEvents bodySame (.cons (.finish _) areAlike)

end Masked

/-! ## Documents that are alike -/

/-- What a node stands for, with the characters of values and texts unmasked. -/
def Content.unmask (mask : Char) : Content → Content
  | .root => .root
  | .element tag => .element (tag.unmask mask)
  | .text raw => .text (unmaskText mask raw)
  | .comment body => .comment (unmaskText mask body)
  | .verbatim raw => .verbatim (unmaskText mask raw)

theorem Element.name_eq_of_unmask_eq
    {mask : Char}
    {first second : Element}
    (same : first.unmask mask = second.unmask mask) :
    first.name = second.name := by
  change (first.unmask mask).name = (second.unmask mask).name
  rw [same]

theorem unmaskText_append (mask : Char) (first second : String) :
    unmaskText mask (first ++ second) = unmaskText mask first ++ unmaskText mask second := by
  rw [unmaskText, unmaskText, unmaskText, String.toList_append, List.map_append,
    String.ofList_append]

namespace Document

variable {mask : Char} {first second : Document}

/-- Two documents with the same links whose values and texts unmasking makes one. -/
structure IsAlike (mask : Char) (first second : Document) : Prop where
  /-- There are as many nodes. -/
  size_eq : first.size = second.size
  /-- The nodes have the same children. -/
  children_eq : ∀ id, first.children id = second.children id
  /-- Unmasking makes one of what the nodes stand for. -/
  content_eq : ∀ id, (first.content id).unmask mask = (second.content id).unmask mask

namespace IsAlike

theorem refl (mask : Char) (document : Document) : IsAlike mask document document :=
  ⟨rfl, fun _ => rfl, fun _ => rfl⟩

theorem isNamed_eq
    (alike : IsAlike mask first second)
    (name : String)
    (id : Nat) :
    first.isNamed name id = second.isNamed name id := by
  have same := alike.content_eq id
  rw [isNamed, isNamed, element?_eq, element?_eq]
  cases content : first.content id <;> cases other : second.content id <;>
    simp_all [Content.unmask, Content.element?, Element.unmask]

theorem appendChild
    (alike : IsAlike mask first second)
    {parent : Nat}
    (inside : parent < first.size)
    {content other : Content}
    (same : content.unmask mask = other.unmask mask) :
    IsAlike mask (first.appendChild parent content) (second.appendChild parent other) := by
  have otherInside := alike.size_eq ▸ inside
  rw [appendChild_eq_attach, appendChild_eq_attach]
  refine ⟨by rw [size_attach, size_attach, alike.size_eq], fun id => ?_, fun id => ?_⟩
  · rw [children_attach inside, children_attach otherInside, alike.size_eq, alike.children_eq,
      alike.children_eq]
  · rw [content_attach inside, content_attach otherInside, alike.size_eq]
    split
    · exact same
    · exact alike.content_eq id

theorem setContent
    (alike : IsAlike mask first second)
    {id : Nat}
    (inside : id < first.size)
    {content other : Content}
    (same : content.unmask mask = other.unmask mask) :
    IsAlike mask (first.setContent id content) (second.setContent id other) := by
  refine ⟨by rw [size_setContent, size_setContent, alike.size_eq], fun inner => ?_, fun inner => ?_⟩
  · rw [children_setContent, children_setContent, alike.children_eq]
  · rw [content_setContent inside, content_setContent (alike.size_eq ▸ inside)]
    split
    · exact same
    · exact alike.content_eq inner

theorem appendText
    (alike : IsAlike mask first second)
    (forest : first.IsForest)
    {parent : Nat}
    (inside : parent < first.size)
    {raw other : String}
    (same : unmaskText mask raw = unmaskText mask other) :
    IsAlike mask (first.appendText parent raw) (second.appendText parent other) := by
  have added : IsAlike mask (first.appendChild parent (.text raw))
      (second.appendChild parent (.text other)) :=
    alike.appendChild inside (congrArg Content.text same)
  unfold Document.appendText
  rw [← alike.children_eq]
  cases listed : (first.children parent).getLast? with
  | none => exact added
  | some last =>
      have lastInside := (forest.lt_of_mem_children (List.mem_of_getLast? listed)).2
      have lastSame := alike.content_eq last
      dsimp only
      cases content : first.content last <;> cases otherContent : second.content last <;>
        rw [content, otherContent] at lastSame <;>
        simp only [Content.unmask, reduceCtorEq] at lastSame
      case text before otherBefore =>
        refine alike.setContent lastInside (congrArg Content.text ?_)
        rw [unmaskText_append, unmaskText_append, same, Content.text.inj lastSame]
      all_goals exact added

end IsAlike

end Document

/-! ## Building -/

namespace Building

open Document

variable {mask : Char} {building other : Building}

/-- What is built is alike, and the same elements are open. -/
structure IsAlike (mask : Char) (building other : Building) : Prop where
  /-- The documents are alike. -/
  document : Document.IsAlike mask building.document other.document
  /-- The same elements are open. -/
  opened_eq : building.opened = other.opened

/-- No element that was built has a name with a space. -/
def HasWords (building : Building) : Prop :=
  ∀ element ∈ stored building.document, ¬IsSpaced element.name.toList

theorem HasWords.take
    (words : building.HasWords)
    (sound : building.IsSound)
    {event : Event}
    (word : ∀ element, event.element? = some element → ¬IsSpaced element.name.toList) :
    (building.take event).HasWords := by
  intro element member
  rw [stored_take sound, List.mem_append, Option.mem_toList] at member
  rcases member with old | new
  · exact words element old
  · exact word element new

/-- No element is closed by a name with a space. -/
theorem HasWords.finish_of_isSpaced
    (words : building.HasWords)
    {name : String}
    (spaced : IsSpaced name.toList) :
    building.finish name = building := by
  have unnamed (id : Nat) : building.document.isNamed name id = false := by
    rw [isNamed]
    cases known : building.document.element? id with
    | none => rfl
    | some element =>
        have inside : id < building.document.size :=
          lt_size_of_isElement (by rw [isElement, known]; rfl)
        have word := words element
          (List.mem_filterMap.mpr ⟨id, List.mem_range.mpr inside, known⟩)
        have different : element.name ≠ name := fun same => word (same ▸ spaced)
        simpa using different
  have none : building.opened.dropWhile (fun id => !building.document.isNamed name id) = [] :=
    List.dropWhile_eq_nil_iff.mpr fun id _ => by rw [unnamed]; rfl
  rw [finish, none]

namespace IsAlike

theorem top_eq (alike : IsAlike mask building other) : building.top = other.top := by
  rw [top, top, alike.opened_eq]

theorem hasWords
    (alike : IsAlike mask building other)
    (words : building.HasWords) :
    other.HasWords := by
  intro element member
  obtain ⟨id, inside, known⟩ := List.mem_filterMap.mp member
  have same := alike.document.content_eq id
  rw [element?_eq] at known
  cases otherContent : other.document.content id with
  | element tag =>
      rw [otherContent] at known same
      cases content : building.document.content id with
      | element first =>
          rw [content] at same
          have name_eq := Element.name_eq_of_unmask_eq (Content.element.inj same)
          have old : first ∈ stored building.document :=
            List.mem_filterMap.mpr ⟨id, by rwa [alike.document.size_eq], by
              rw [element?_eq, content]
              rfl⟩
          rw [← Option.some.inj known, ← name_eq]
          exact words first old
      | _ =>
          rw [content] at same
          cases same
  | _ =>
      rw [otherContent] at known
      cases known

theorem add
    (alike : IsAlike mask building other)
    (sound : building.IsSound)
    {content otherContent : Content}
    (same : content.unmask mask = otherContent.unmask mask) :
    IsAlike mask (building.add content) (other.add otherContent) := by
  refine ⟨?_, alike.opened_eq⟩
  rw [Building.add, Building.add, ← alike.top_eq]
  exact alike.document.appendChild sound.top_lt_size same

theorem text
    (alike : IsAlike mask building other)
    (sound : building.IsSound)
    {raw otherRaw : String}
    (same : unmaskText mask raw = unmaskText mask otherRaw) :
    IsAlike mask (building.take (.text raw)) (other.take (.text otherRaw)) := by
  refine ⟨?_, alike.opened_eq⟩
  rw [Building.take, Building.take, ← alike.top_eq]
  exact alike.document.appendText sound.rooted.forest sound.top_lt_size same

theorem finish
    (alike : IsAlike mask building other)
    (name : String) :
    IsAlike mask (building.finish name) (other.finish name) := by
  have sameNames : (fun id => !building.document.isNamed name id) =
      fun id => !other.document.isNamed name id :=
    funext fun id => congrArg _ (alike.document.isNamed_eq name id)
  unfold Building.finish
  rw [sameNames, alike.opened_eq]
  split
  · exact alike
  · exact ⟨alike.document, rfl⟩

theorem take
    (alike : IsAlike mask building other)
    (sound : building.IsSound)
    (words : building.HasWords)
    {event otherEvent : Event}
    (eventAlike : Event.Alike mask event otherEvent) :
    IsAlike mask (building.take event) (other.take otherEvent) := by
  cases eventAlike with
  | @start first second same =>
      have sameContent :
          (Content.element first).unmask mask = (Content.element second).unmask mask :=
        congrArg Content.element same
      have grown := alike.add sound sameContent
      have name_eq := Element.name_eq_of_unmask_eq same
      simp only [Building.take, name_eq]
      split
      · exact grown
      · refine ⟨grown.document, ?_⟩
        dsimp only
        rw [alike.document.size_eq]
        exact congrArg (other.document.size :: ·) grown.opened_eq
  | empty same => exact alike.add sound (congrArg Content.element same)
  | finish name => exact alike.finish name
  | spaced spaced otherSpaced =>
      rw [Building.take, Building.take, words.finish_of_isSpaced spaced,
        (alike.hasWords words).finish_of_isSpaced otherSpaced]
      exact alike
  | comment same => exact alike.add sound (congrArg Content.comment same)
  | cdata same | instruction same =>
      refine alike.add sound (congrArg Content.verbatim ?_)
      rw [unmaskText_append, unmaskText_append, same, ← unmaskText_append, ← unmaskText_append]
  | declaration => exact alike

/-- Events that are alike build what is alike. -/
theorem foldl
    {events others : List Event}
    (areAlike : AreAlike mask events others)
    (alike : IsAlike mask building other)
    (sound : building.IsSound)
    (otherSound : other.IsSound)
    (words : building.HasWords)
    (named : ∀ element ∈ events.filterMap Event.element?, ¬IsSpaced element.name.toList) :
    IsAlike mask (events.foldl Building.take building) (others.foldl Building.take other) := by
  induction areAlike generalizing building other with
  | nil => exact alike
  | @text texts otherTexts first second raw otherRaw adds otherAdds same rest
      inductionHypothesis =>
      rw [List.foldl_append, List.foldl_append, sound.foldl_of_addRaw adds,
        otherSound.foldl_of_addRaw otherAdds]
      refine inductionHypothesis (alike.text sound same) (sound.take _) (otherSound.take _)
        (words.take sound nofun) fun element member => named element ?_
      rw [List.filterMap_append]
      exact List.mem_append_right _ member
  | @cons event otherEvent first second eventAlike rest inductionHypothesis =>
      refine inductionHypothesis (alike.take sound words eventAlike) (sound.take _)
        (otherSound.take _) (words.take sound fun element own => named element ?_)
        fun element member => named element ?_
      · exact List.mem_filterMap.mpr ⟨event, List.mem_cons_self, own⟩
      · obtain ⟨event, listed, own⟩ := List.mem_filterMap.mp member
        exact List.mem_filterMap.mpr ⟨event, List.mem_cons_of_mem _ listed, own⟩

end IsAlike

end Building

theorem Document.IsAlike.ofEvents
    {mask : Char}
    {events others : List Event}
    (areAlike : AreAlike mask events others)
    (named : ∀ element ∈ events.filterMap Event.element?, ¬IsSpaced element.name.toList) :
    IsAlike mask (ofEvents events) (ofEvents others) :=
  (Building.IsAlike.foldl areAlike ⟨.refl mask empty, rfl⟩ .start .start nofun named).document

/-- The name of an element that was read is one word. -/
theorem ReadsAs.not_isSpaced
    {source : List Char}
    {events : List Event}
    (reads : ReadsAs source events) :
    ∀ element ∈ events.filterMap Event.element?, ¬IsSpaced element.name.toList := by
  have word (selfClosing : Bool) (content : List Char) :
      ¬IsSpaced (readElement selfClosing content).name.toList := by
    rw [readElement, isSpaced_lowerName_iff]
    exact not_isSpaced_tagName content
  induction reads with
  | done =>
      intro element member
      cases member
  | @token source rest token events _ _ _ inductionHypothesis =>
      cases token with
      | start content | empty content =>
          exact List.forall_mem_cons.mpr ⟨word _ content, inductionHypothesis⟩
      | _ => exact inductionHypothesis
  | @body source content body finish after events _ _ _ _ inductionHypothesis =>
      have noElement : (bodyEvents body).filterMap Event.element? = [] := by
        unfold bodyEvents
        split <;> rfl
      rw [List.filterMap_cons, List.filterMap_append, noElement]
      exact List.forall_mem_cons.mpr ⟨word false content, inductionHypothesis⟩

/-! ## Trees -/

/-- A tree with the characters of its values and texts unmasked. -/
def Tree.unmask (mask : Char) (tree : Tree) : Tree :=
  tree.mapContents fun _ => Content.unmask mask

/-- Unmasking makes one of the trees of documents that are alike. -/
theorem Document.IsAlike.unmask_tree_eq
    {mask : Char}
    {first second : Document}
    (alike : IsAlike mask first second)
    (forest : first.IsForest)
    (otherForest : second.IsForest)
    (top : Nat) :
    (first.tree top).unmask mask = (second.tree top).unmask mask := by
  induction top using forest.induction with
  | node top inductionHypothesis =>
      rw [forest.tree_eq, otherForest.tree_eq, Tree.unmask, Tree.unmask, Tree.mapContents,
        Tree.mapContents, Tree.mapContentsOfAll_eq_map, Tree.mapContentsOfAll_eq_map,
        alike.content_eq, ← alike.children_eq, List.map_map, List.map_map]
      exact congrArg _ (List.map_congr_left inductionHypothesis)

mutual

theorem Tree.unmask_withoutIds (mask : Char) :
    (tree : Tree) → tree.withoutIds.unmask mask = (tree.unmask mask).withoutIds
  | .node _ content children => by
      have inner := unmask_withoutIdsOfAll mask children
      rw [Tree.unmask, Tree.withoutIds, Tree.mapContents, inner]
      rfl

theorem Tree.unmask_withoutIdsOfAll (mask : Char) :
    (trees : List Tree) →
      Tree.mapContentsOfAll (fun _ => Content.unmask mask) (Tree.withoutIdsOfAll trees) =
        Tree.withoutIdsOfAll (Tree.mapContentsOfAll (fun _ => Content.unmask mask) trees)
  | [] => rfl
  | tree :: trees => by
      have here := unmask_withoutIds mask tree
      have rest := unmask_withoutIdsOfAll mask trees
      rw [Tree.withoutIdsOfAll, Tree.mapContentsOfAll, rest]
      exact congrArg (· :: _) here

end

/-! ## All masks together -/

theorem eq_of_unmask_eq
    {c d : Char}
    (same : ∀ mask ∈ masks, unmask mask c = unmask mask d) :
    c = d := by
  have star := same '*' (by decide)
  have plus := same '+' (by decide)
  unfold unmask at star plus
  grind

/-- What every mask makes one, item by item, is the same when the items are. -/
theorem eq_of_map_eq
    {Item Image : Type}
    {change : Char → Item → Image}
    (told : ∀ {first second : Item},
      (∀ mask ∈ masks, change mask first = change mask second) → first = second)
    {first second : List Item}
    (same : ∀ mask ∈ masks, first.map (change mask) = second.map (change mask)) :
    first = second := by
  induction first generalizing second with
  | nil => exact (List.map_eq_nil_iff.mp (same '*' (by decide)).symm).symm
  | cons item first inductionHypothesis =>
      cases second with
      | nil => cases same '*' (by decide)
      | cons other second =>
          rw [told fun mask isMask => (List.cons.inj (same mask isMask)).1,
            inductionHypothesis fun mask isMask => (List.cons.inj (same mask isMask)).2]

theorem eq_of_unmaskText_eq
    {first second : String}
    (same : ∀ mask ∈ masks, unmaskText mask first = unmaskText mask second) :
    first = second :=
  String.toList_injective <| eq_of_map_eq eq_of_unmask_eq fun mask isMask =>
    String.ofList_injective (same mask isMask)

theorem Attribute.eq_of_unmask_eq
    {first second : Attribute}
    (same : ∀ mask ∈ masks, first.unmask mask = second.unmask mask) :
    first = second := by
  have names : first.name = second.name :=
    eq_of_unmaskText_eq fun mask isMask => congrArg Attribute.name (same mask isMask)
  have values : first.value = second.value :=
    eq_of_unmaskText_eq fun mask isMask => congrArg Attribute.value (same mask isMask)
  cases first
  cases second
  cases names
  cases values
  rfl

theorem Element.eq_of_unmask_eq
    {first second : Element}
    (same : ∀ mask ∈ masks, first.unmask mask = second.unmask mask) :
    first = second := by
  have attributes : first.attributes = second.attributes :=
    eq_of_map_eq Attribute.eq_of_unmask_eq fun mask isMask =>
      congrArg Element.attributes (same mask isMask)
  have star := same '*' (by decide)
  obtain ⟨name, attributes, selfClosing⟩ := first
  cases second
  cases attributes
  cases star
  rfl

theorem Content.eq_of_unmask_eq
    {first second : Content}
    (same : ∀ mask ∈ masks, first.unmask mask = second.unmask mask) :
    first = second := by
  have star := same '*' (by decide)
  cases first <;> cases second <;> first | rfl | cases star | skip
  case element.element =>
    exact congrArg _ (Element.eq_of_unmask_eq fun mask isMask =>
      Content.element.inj (same mask isMask))
  all_goals
    refine congrArg _ (eq_of_unmaskText_eq fun mask isMask => ?_)
    have here := same mask isMask
    simpa only [Content.unmask, Content.text.injEq, Content.comment.injEq,
      Content.verbatim.injEq] using here

mutual

/-- Trees that every mask makes one are the same. -/
theorem Tree.eq_of_unmask_eq :
    {first second : Tree} →
      (∀ mask ∈ masks, first.unmask mask = second.unmask mask) → first = second
  | .node id content children, .node otherId otherContent otherChildren, same => by
      have parts (mask : Char) (isMask : mask ∈ masks) := Tree.node.inj (same mask isMask)
      rw [(parts '*' (by decide)).1,
        Content.eq_of_unmask_eq fun mask isMask => (parts mask isMask).2.1,
        Tree.eq_of_unmaskOfAll_eq fun mask isMask => (parts mask isMask).2.2]

theorem Tree.eq_of_unmaskOfAll_eq :
    {first second : List Tree} →
      (∀ mask ∈ masks, Tree.mapContentsOfAll (fun _ => Content.unmask mask) first =
        Tree.mapContentsOfAll (fun _ => Content.unmask mask) second) → first = second
  | [], [], _ => rfl
  | [], _ :: _, same => by cases same '*' (by decide)
  | _ :: _, [], same => by cases same '*' (by decide)
  | tree :: trees, other :: others, same => by
      rw [Tree.eq_of_unmask_eq fun mask isMask => (List.cons.inj (same mask isMask)).1,
        Tree.eq_of_unmaskOfAll_eq fun mask isMask => (List.cons.inj (same mask isMask)).2]

end

end Markup
end MailPress
