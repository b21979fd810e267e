import MailPress.Proofs.Css.Shape
import MailPress.Proofs.Style.Media

/-!
# What both sides of a partition say

Parting a style sheet and writing both sides loses no declaration and doubles none.
What is read of the written inline side are the rules that can be inlined, in order
and with their marks. What is read of the written head side is all the rest, marked
where a mark has a place, with the media queries merged and behind everything else.

The texts have to be closed, as the writer repairs nothing; and no rule may have a
first selector that starts like an at-rule, since it would be read as one.
-/

namespace MailPress
namespace Style

/-! ## Demands on a sheet that was read -/

/-- The texts of a declaration stay what they are when they are read again. -/
structure HasClosedTexts (declaration : Css.Declaration) : Prop where
  /-- The property is a word of letters, digits, hyphens and underscores. -/
  property : ∀ c ∈ declaration.property.toList,
    Css.isAtNameChar c = true ∨ (Text.isAscii c = false ∧ Text.isBlank c = false)
  /-- The value is closed. -/
  value : Css.IsClosed ['{', '}', ';'] declaration.value.toList
  /-- The value does not end in an importance mark. -/
  unmarked : ¬Css.EndsMarked declaration.value.toList

instance (declaration : Css.Declaration) : Decidable (HasClosedTexts declaration) :=
  decidable_of_iff
    ((declaration.property.toList.all fun c =>
        Css.isAtNameChar c || (!Text.isAscii c && !Text.isBlank c)) = true ∧
      Css.IsClosed ['{', '}', ';'] declaration.value.toList ∧
      ¬Css.EndsMarked declaration.value.toList)
    ⟨fun ⟨property, value, unmarked⟩ => ⟨by simpa using property, value, unmarked⟩,
      fun closed => ⟨by simpa using closed.property, closed.value, closed.unmarked⟩⟩

/-- All selectors, preludes and values are closed, and properties are words. -/
def closedTexts : Css.Demand where
  rule rule :=
    (∀ selector ∈ rule.selectors, Css.IsClosed ['{', '}', ';'] selector.toList) ∧
      ∀ declaration ∈ rule.declarations, HasClosedTexts declaration
  statement _ prelude := Css.IsClosed ['{', '}', ';'] prelude.toList
  group _ prelude _ := Css.IsClosed ['{', '}', ';'] prelude.toList
  descriptors _ prelude declarations :=
    Css.IsClosed ['{', '}', ';'] prelude.toList ∧
      ∀ declaration ∈ declarations, HasClosedTexts declaration

instance : closedTexts.IsDecidable where
  rule _ := inferInstanceAs (Decidable (_ ∧ _))
  statement _ prelude := inferInstanceAs (Decidable (Css.IsClosed _ prelude.toList))
  group _ prelude _ := inferInstanceAs (Decidable (Css.IsClosed _ prelude.toList))
  descriptors _ _ _ := inferInstanceAs (Decidable (_ ∧ _))

/-- No rule starts like an at-rule. -/
def plainStart : Css.Demand where
  rule rule := ∀ first ∈ rule.selectors.head?, (Text.trim first.toList).head? ≠ some '@'
  statement _ _ := True
  group _ _ _ := True
  descriptors _ _ _ := True

instance : plainStart.IsDecidable where
  rule rule := inferInstanceAs
    (Decidable (∀ first ∈ rule.selectors.head?, (Text.trim first.toList).head? ≠ some '@'))
  statement _ _ := .isTrue trivial
  group _ _ _ := .isTrue trivial
  descriptors _ _ _ := .isTrue trivial

theorem isLegible_of_hasClosedTexts
    {declaration : Css.Declaration}
    (shaped : declaration.IsShaped)
    (closed : HasClosedTexts declaration) :
    declaration.IsLegible where
  property_ne := shaped.property_ne
  property_word c member := by
    have small := shaped.property_lower c member
    rcases closed.property c member with named | ⟨beyond, nonblank⟩
    · simp [Css.isPropertyChar, Css.isWordChar, named, small]
    · simp [Css.isPropertyChar, beyond, nonblank]
  value_closed := closed.value
  value_ne := shaped.value_ne
  value_unmarked := closed.unmarked

/-- A sheet that was read is readable when its texts are closed and no rule starts like an
at-rule. -/
theorem readable_followsFrom_shaped :
    Css.readable.FollowsFrom Css.shaped (closedTexts.both plainStart) where
  rule {rule} shaped met := by
    obtain ⟨⟨selectorsClosed, declarationsClosed⟩, start⟩ := met
    refine ⟨⟨fun selector member => ?_, start, fun declaration member => ?_⟩, shaped.selectors_ne⟩
    · have closed := selectorsClosed selector member
      have noComma := shaped.unbarred selector member closed.unbarred.not_mem_backslash
      exact ⟨⟨closed.run_eq, closed.unbarred.append noComma, closed.uncommented⟩,
        shaped.nonblank selector member⟩
    · exact isLegible_of_hasClosedTexts (shaped.declarations declaration member)
        (declarationsClosed declaration member)
  statement shaped met := ⟨shaped.name_ne, shaped.name_word, met.1⟩
  group shaped met := ⟨⟨shaped.1.name_ne, shaped.1.name_word, met.1⟩, shaped.2⟩
  descriptors shaped met :=
    ⟨⟨shaped.1.name_ne, shaped.1.name_word, met.1.1⟩, shaped.2.1, fun declaration member =>
      isLegible_of_hasClosedTexts (shaped.2.2 declaration member) (met.1.2 declaration member)⟩

theorem hasNoMediaDescriptors_of_readable
    {items : List Css.Item}
    (met : Css.AllMeet Css.readable items) :
    HasNoMediaDescriptors items := by
  rintro name prelude declarations member rfl
  have notGrouping := (Css.allMeet_iff.mp met _ member).2.1
  exact absurd notGrouping (by decide)

/-! ## The inline side -/

/-- What is read back of rules are rules. -/
theorem exists_rule_of_mem_readBackAll
    {items : List Css.Item}
    (rules : ∀ item ∈ items, ∃ rule, item = .rule rule)
    {item : Css.Item}
    (member : item ∈ Css.readBackAll items) :
    ∃ rule, item = .rule rule := by
  rw [Css.readBackAll_eq_flatMap] at member
  obtain ⟨original, present, inReadBack⟩ := List.mem_flatMap.mp member
  obtain ⟨rule, rfl⟩ := rules original present
  rw [Css.Item.readBack] at inReadBack
  split at inReadBack
  · cases inReadBack
  · exact ⟨_, List.mem_singleton.mp inReadBack⟩

theorem exists_rule_of_not_isHeadBound
    {item : Css.Item}
    (inlineBound : (!isHeadBound item) = true) :
    ∃ rule, item = .rule rule := by
  cases item with
  | rule rule => exact ⟨rule, rfl⟩
  | statement name prelude => cases inlineBound
  | group name prelude items => cases inlineBound
  | descriptors name prelude declarations => cases inlineBound

theorem isMedia_of_inlineBound
    (item : Css.Item)
    (inlineBound : (!isHeadBound item) = true) :
    isMedia item = false := by
  obtain ⟨rule, rfl⟩ := exists_rule_of_not_isHeadBound inlineBound
  rfl

/-! ## The head side -/

theorem isMedia_forceImportant (item : Css.Item) :
    isMedia item.forceImportant = isMedia item := by
  cases item with
  | rule rule => rfl
  | statement name prelude => rfl
  | group name prelude items =>
      rw [Css.Item.forceImportant]
      split <;> rfl
  | descriptors name prelude declarations =>
      rw [Css.Item.forceImportant]
      split <;> rfl

theorem filter_forceImportantAll
    {keep : Css.Item → Bool}
    (same : ∀ item, keep item.forceImportant = keep item)
    (items : List Css.Item) :
    (Css.forceImportantAll items).filter keep = Css.forceImportantAll (items.filter keep) := by
  rw [Css.forceImportantAll_eq_map, Css.forceImportantAll_eq_map, List.filter_map]
  exact congrArg _ (List.filter_congr fun item _ => same item)

theorem mediaQueries_group_cons
    (name query : String)
    (inner items : List Css.Item) :
    mediaQueries (.group name query inner :: items) =
      (if name = mediaName then [query] else []) ++ mediaQueries items := by
  by_cases media : name = mediaName <;> simp [mediaQueries, media]

/-- The head side holds all media queries of a sheet, and forcing importance keeps them. -/
theorem mediaQueries_forceImportantAll (items : List Css.Item) :
    mediaQueries (Css.forceImportantAll (items.filter isHeadBound)) = mediaQueries items := by
  induction items with
  | nil => rfl
  | cons item items inductionHypothesis =>
      cases item with
      | rule rule =>
          rw [List.filter_cons]
          split
          · exact inductionHypothesis
          · exact inductionHypothesis
      | statement name prelude => exact inductionHypothesis
      | descriptors name prelude declarations =>
          rw [List.filter_cons_of_pos rfl, Css.forceImportantAll, Css.Item.forceImportant]
          split
          · exact inductionHypothesis
          · exact inductionHypothesis
      | group name query inner =>
          rw [List.filter_cons_of_pos rfl, Css.forceImportantAll, Css.Item.forceImportant]
          split
          · rw [mediaQueries_group_cons, mediaQueries_group_cons, inductionHypothesis]
          · rw [mediaQueries_group_cons, mediaQueries_group_cons, inductionHypothesis]

theorem isHeadBound_of_isMedia
    {item : Css.Item}
    (media : isMedia item = true) :
    isHeadBound item = true := by
  cases item with
  | rule rule => cases media
  | statement name prelude => rfl
  | group name prelude items => rfl
  | descriptors name prelude declarations => rfl

theorem filter_head_media (items : List Css.Item) :
    (items.filter isHeadBound).filter isMedia = items.filter isMedia := by
  rw [List.filter_filter]
  refine List.filter_congr fun item _ => ?_
  cases media : isMedia item with
  | false => rfl
  | true => rw [isHeadBound_of_isMedia media, Bool.and_true]

theorem filter_head_others (items : List Css.Item) :
    (items.filter isHeadBound).filter (!isMedia ·) =
      items.filter fun item => isHeadBound item && !isMedia item := by
  rw [List.filter_filter]
  exact List.filter_congr fun item _ => Bool.and_comm ..

theorem isMedia_of_other
    (item : Css.Item)
    (other : (isHeadBound item && !isMedia item) = true) :
    isMedia item = false := by
  simpa using (Bool.and_eq_true_iff.mp other).2

/-- What the written head side says: first all but the media queries, in order, and then the
media queries. -/
theorem allOccurrences_read_headCss
    {items : List Css.Item}
    (met : Css.AllMeet Css.readable items) :
    ∃ media, Css.allOccurrences (Css.Sheet.read (Partition.split ⟨items⟩).headCss).items =
        (Css.allOccurrences (items.filter fun item => isHeadBound item && !isMedia item)).map
          (fun occurrence => occurrence.forced.minified) ++ media ∧
      media.Perm ((Css.allOccurrences (items.filter isMedia)).map fun occurrence =>
        (underFirst (mediaQueries items) occurrence).forced.minified) := by
  have headMet := (met.filter isHeadBound).forceImportantAll Css.readable_isStable
  have mergedMet := allMeet_mergeMediaQueries Css.readable_isStable headMet
  have read : Css.allOccurrences (Css.Sheet.read (Partition.split ⟨items⟩).headCss).items =
      (Css.allOccurrences (mergeMediaQueries
        (Css.forceImportantAll (items.filter isHeadBound)))).map Css.Occurrence.minified :=
    Css.allOccurrences_read_write mergedMet
  obtain ⟨merged, merge_eq, merged_perm⟩ :=
    allOccurrences_mergeMediaQueries (hasNoMediaDescriptors_of_readable headMet)
  refine ⟨merged.map Css.Occurrence.minified, ?_, ?_⟩
  · rw [read, merge_eq, List.map_append,
      filter_forceImportantAll (fun item => congrArg (!·) (isMedia_forceImportant item)),
      filter_head_others,
      Css.allOccurrences_forceImportantAll, List.map_map]
    rfl
  · rw [filter_forceImportantAll isMedia_forceImportant, filter_head_media,
      Css.allOccurrences_forceImportantAll, mediaQueries_forceImportantAll, List.map_map]
      at merged_perm
    refine (merged_perm.map Css.Occurrence.minified).trans (.of_eq ?_)
    rw [List.map_map]
    refine List.map_congr_left fun occurrence _ => ?_
    simp only [Function.comp_apply, forced_underFirst]

/-! ## Both sides -/

/-- Importance aside, a forced occurrence is the same. -/
theorem unmarked_minified_forced (occurrence : Css.Occurrence) :
    occurrence.forced.minified.unmarked = occurrence.minified.unmarked := by
  rw [Css.Occurrence.unmarked_minified, Css.Occurrence.unmarked_forced,
    Css.Occurrence.unmarked_minified]

theorem map_underFirst_filter
    {keep : Css.Item → Bool}
    (others : ∀ item, keep item = true → isMedia item = false)
    (queries : List String)
    (items : List Css.Item) :
    (Css.allOccurrences (items.filter keep)).map (underFirst queries) =
      Css.allOccurrences (items.filter keep) := by
  rw [Css.allOccurrences_eq_flatMap, List.map_flatMap]
  refine List.flatMap_congr fun item member => ?_
  exact map_underFirst_of_not_isMedia (others item (List.of_mem_filter member)) queries

/-- Importance aside, items that are no media queries say the same under any queries. -/
theorem map_unmarked_filter
    {keep : Css.Item → Bool}
    (others : ∀ item, keep item = true → isMedia item = false)
    (queries : List String)
    (items : List Css.Item) :
    (Css.allOccurrences (items.filter keep)).map (fun occurrence => occurrence.minified.unmarked) =
      (Css.allOccurrences (items.filter keep)).map fun occurrence =>
        (underFirst queries occurrence).minified.unmarked := by
  conv_lhs => rw [← map_underFirst_filter others queries items]
  rw [List.map_map]
  rfl

/-- Every item is on exactly one side, and on the head side it is a media query or not. -/
theorem filter_sides_perm (items : List Css.Item) :
    (items.filter (!isHeadBound ·) ++
      ((items.filter fun item => isHeadBound item && !isMedia item) ++
        items.filter isMedia)).Perm items := by
  rw [← filter_head_media, ← filter_head_others]
  have headSide := List.perm_append_comm.trans
    (List.filter_append_perm isMedia (items.filter isHeadBound))
  have bothSides := List.perm_append_comm.trans (List.filter_append_perm isHeadBound items)
  exact (headSide.append_left _).trans bothSides

/-- What the sides say together, under one change of occurrences. -/
theorem allOccurrences_sides_perm
    (items : List Css.Item)
    (change : Css.Occurrence → Css.Occurrence) :
    ((Css.allOccurrences (items.filter (!isHeadBound ·))).map change ++
      ((Css.allOccurrences (items.filter fun item => isHeadBound item && !isMedia item)).map
          change ++
        (Css.allOccurrences (items.filter isMedia)).map change)).Perm
      ((Css.allOccurrences items).map change) := by
  have sides := ((filter_sides_perm items).flatMap_right Css.Item.occurrences).map change
  simpa only [← Css.allOccurrences_eq_flatMap, Css.allOccurrences_append, List.map_append]
    using sides

/-- The two sides as they are read again say what the items say, and nothing twice. -/
structure IsFaithful (items inlined headed : List Css.Item) : Prop where
  /-- The inline side holds rules. -/
  inline_rules : ∀ item ∈ inlined, ∃ rule, item = .rule rule
  /-- The inline side says what the rules say that can be inlined, in order, marks included. -/
  inline_says : Css.allOccurrences inlined =
    (Css.allOccurrences (items.filter (!isHeadBound ·))).map Css.Occurrence.minified
  /-- The head side says what all other items say, marked where a mark has a place: first all
  but the media queries, in order, then these, each under the first query that is the same. -/
  head_says : ∃ media, Css.allOccurrences headed =
      (Css.allOccurrences (items.filter fun item => isHeadBound item && !isMedia item)).map
        (fun occurrence => occurrence.forced.minified) ++ media ∧
    media.Perm ((Css.allOccurrences (items.filter isMedia)).map fun occurrence =>
      (underFirst (mediaQueries items) occurrence).forced.minified)
  /-- Importance aside, both sides together say what the items say. -/
  together : ((Css.allOccurrences inlined ++ Css.allOccurrences headed).map
    Css.Occurrence.unmarked).Perm ((Css.allOccurrences items).map fun occurrence =>
      (underFirst (mediaQueries items) occurrence).minified.unmarked)

/-- What both sides say together follows from what each of them says. -/
theorem unmarked_sides_perm
    {items inlined headed : List Css.Item}
    (inlineSays : Css.allOccurrences inlined =
      (Css.allOccurrences (items.filter (!isHeadBound ·))).map Css.Occurrence.minified)
    {media : List Css.Occurrence}
    (headSays : Css.allOccurrences headed =
      (Css.allOccurrences (items.filter fun item => isHeadBound item && !isMedia item)).map
        (fun occurrence => occurrence.forced.minified) ++ media)
    (mediaSays : media.Perm ((Css.allOccurrences (items.filter isMedia)).map fun occurrence =>
      (underFirst (mediaQueries items) occurrence).forced.minified)) :
    ((Css.allOccurrences inlined ++ Css.allOccurrences headed).map
      Css.Occurrence.unmarked).Perm ((Css.allOccurrences items).map fun occurrence =>
        (underFirst (mediaQueries items) occurrence).minified.unmarked) := by
  have inlineUnmarked : (Css.allOccurrences inlined).map Css.Occurrence.unmarked =
      (Css.allOccurrences (items.filter (!isHeadBound ·))).map fun occurrence =>
        (underFirst (mediaQueries items) occurrence).minified.unmarked := by
    rw [inlineSays, List.map_map]
    exact map_unmarked_filter isMedia_of_inlineBound (mediaQueries items) items
  have othersUnmarked : ((Css.allOccurrences
        (items.filter fun item => isHeadBound item && !isMedia item)).map
          fun occurrence => occurrence.forced.minified).map Css.Occurrence.unmarked =
      (Css.allOccurrences (items.filter fun item => isHeadBound item && !isMedia item)).map
        fun occurrence => (underFirst (mediaQueries items) occurrence).minified.unmarked := by
    rw [List.map_map, ← map_unmarked_filter isMedia_of_other]
    exact List.map_congr_left fun occurrence _ => unmarked_minified_forced occurrence
  have mediaUnmarked : (media.map Css.Occurrence.unmarked).Perm
      ((Css.allOccurrences (items.filter isMedia)).map fun occurrence =>
        (underFirst (mediaQueries items) occurrence).minified.unmarked) := by
    refine (mediaSays.map Css.Occurrence.unmarked).trans (.of_eq ?_)
    rw [List.map_map]
    exact List.map_congr_left fun occurrence _ => unmarked_minified_forced _
  rw [List.map_append, inlineUnmarked, headSays, List.map_append, othersUnmarked]
  exact ((mediaUnmarked.append_left _).append_left _).trans (allOccurrences_sides_perm items _)

/-- Parting readable items loses no declaration and doubles none. -/
theorem isFaithful_of_readable
    {items : List Css.Item}
    (met : Css.AllMeet Css.readable items) :
    IsFaithful items (Css.Sheet.read (Partition.split ⟨items⟩).inlineCss).items
      (Css.Sheet.read (Partition.split ⟨items⟩).headCss).items := by
  have inlineMet : Css.AllMeet Css.readable (items.filter (!isHeadBound ·)) :=
    met.filter (!isHeadBound ·)
  have inlineSays : Css.allOccurrences
        (Css.Sheet.read (Partition.split ⟨items⟩).inlineCss).items =
      (Css.allOccurrences (items.filter (!isHeadBound ·))).map Css.Occurrence.minified :=
    Css.allOccurrences_read_write inlineMet
  obtain ⟨media, headSays, mediaSays⟩ := allOccurrences_read_headCss met
  refine ⟨fun item member => ?_, inlineSays, ⟨media, headSays, mediaSays⟩,
    unmarked_sides_perm inlineSays headSays mediaSays⟩
  have read : (Css.Sheet.read (Partition.split ⟨items⟩).inlineCss).items =
      Css.readBackAll (items.filter (!isHeadBound ·)) :=
    congrArg Css.Sheet.items
      (Css.read_write (.of_both Css.legible_followsFrom_readable inlineMet inlineMet))
  rw [read] at member
  refine exists_rule_of_mem_readBackAll (fun original present => ?_) member
  exact exists_rule_of_not_isHeadBound (List.mem_filter.mp present).2

/-- Parting a sheet that was read loses no declaration and doubles none, when its texts are
closed and no rule starts like an at-rule. -/
theorem isFaithful_split
    (css : String)
    (closed : Css.AllMeet closedTexts (Css.Sheet.read css).items)
    (start : Css.AllMeet plainStart (Css.Sheet.read css).items) :
    IsFaithful (Css.Sheet.read css).items
      (Css.Sheet.read (Partition.split (Css.Sheet.read css)).inlineCss).items
      (Css.Sheet.read (Partition.split (Css.Sheet.read css)).headCss).items :=
  isFaithful_of_readable (.of_both readable_followsFrom_shaped (Css.allMeet_read css)
    (.of_both (Css.Demand.both_followsFrom closedTexts plainStart) closed start))

theorem isFaithful_split_mixed :
    let css := "a,b > c\x7bcolor:red;margin:0 !important\x7da:hover\x7bx:y\x7d" ++
      "@media print\x7bp\x7bq:r\x7d\x7d@font-face\x7bsrc:url(x)\x7d@media PRINT\x7bs\x7bt:u\x7d\x7d"
    (Css.AllMeet closedTexts (Css.Sheet.read css).items ∧
      Css.AllMeet plainStart (Css.Sheet.read css).items) ∧
    IsFaithful (Css.Sheet.read css).items
      (Css.Sheet.read (Partition.split (Css.Sheet.read css)).inlineCss).items
      (Css.Sheet.read (Partition.split (Css.Sheet.read css)).headCss).items := by
  intro css
  have closed : Css.AllMeet closedTexts (Css.Sheet.read css).items := by decide +kernel
  have start : Css.AllMeet plainStart (Css.Sheet.read css).items := by decide +kernel
  exact ⟨⟨closed, start⟩, isFaithful_split css closed start⟩

/-- A first selector that starts like an at-rule is written in front, and read as the name of an
at-rule; only its commas kept it from being one before. And a media query without a block lends
its query to none that has one. -/
theorem not_isFaithful_split_of_at :
    (Css.AllMeet closedTexts (Css.Sheet.read ",@x\x7ba:b\x7d").items ∧
      ¬IsFaithful (Css.Sheet.read ",@x\x7ba:b\x7d").items
        (Css.Sheet.read (Partition.split (Css.Sheet.read ",@x\x7ba:b\x7d")).inlineCss).items
        (Css.Sheet.read (Partition.split (Css.Sheet.read ",@x\x7ba:b\x7d")).headCss).items) ∧
    Css.allOccurrences (Css.Sheet.read (Partition.split
      (Css.Sheet.read "@media PRINT;@media print\x7ba\x7bb:c\x7d\x7d")).headCss).items =
        [⟨[("media", "print")], ["a"], ⟨"b", "c", true⟩⟩] := by
  refine ⟨⟨by decide +kernel, fun faithful => ?_⟩, by decide +kernel⟩
  exact absurd faithful.together (by decide +kernel)

end Style
end MailPress
