import MailPress.Proofs.Css.Item

/-!
# Reading written style sheets

Reading undoes writing. A legible sheet is read back from its written form with all
its texts in their written forms, and without the rules and groups that have no
content. A sheet whose rules and groups are all filled is read back whole, two
written sheets one behind the other are read as the two sheets one behind the
other, and writing what was read gives the same text again.
-/

namespace MailPress
namespace Css

/-! ## Demands on sheets -/

/-- All texts can be read back, and the block of an at-rule is of the kind that its name asks
for. -/
def legible : Demand where
  rule := Rule.IsLegible
  statement := IsLegibleHead
  group name prelude _ := IsLegibleHead name prelude ∧ isGrouping name = true
  descriptors name prelude declarations :=
    IsLegibleHead name prelude ∧ isGrouping name = false ∧
      ∀ declaration ∈ declarations, declaration.IsLegible

instance : legible.IsDecidable where
  rule rule := inferInstanceAs (Decidable rule.IsLegible)
  statement name prelude := inferInstanceAs (Decidable (IsLegibleHead name prelude))
  group _ _ _ := inferInstanceAs (Decidable (_ ∧ _))
  descriptors _ _ _ := inferInstanceAs (Decidable (_ ∧ _ ∧ _))

/-- All texts are taken as they are when they are read back, and the block of an at-rule is of
the kind that its name asks for. -/
def restorable : Demand where
  rule := Rule.IsRestorable
  statement := IsLegibleHead
  group name prelude _ := IsLegibleHead name prelude ∧ isGrouping name = true
  descriptors name prelude declarations :=
    IsLegibleHead name prelude ∧ isGrouping name = false ∧
      ∀ declaration ∈ declarations, declaration.IsRestorable

/-- What is legible is restorable. -/
theorem restorable_followsFrom_legible : restorable.FollowsFrom legible legible where
  rule met _ := Rule.IsLegible.isRestorable met
  statement met _ := met
  group met _ := met
  descriptors met _ :=
    ⟨met.1, met.2.1, fun declaration member => (met.2.2 declaration member).isRestorable⟩

/-- Every rule has a selector and a declaration, and every group an item. -/
def filled : Demand where
  rule rule := rule.selectors ≠ [] ∧ rule.declarations ≠ []
  statement _ _ := True
  group _ _ items := items ≠ []
  descriptors _ _ _ := True

instance : filled.IsDecidable where
  rule _ := inferInstanceAs (Decidable (_ ∧ _))
  statement _ _ := .isTrue trivial
  group _ _ items := inferInstanceAs (Decidable (items ≠ []))
  descriptors _ _ _ := .isTrue trivial

/-- A prelude that is its own written form once it is written: no string in it holds a space
just inside a parenthesis, and it does not consist of blanks alone. -/
structure IsTidyPrelude (prelude : String) : Prop where
  /-- No string holds a space after an opening or before a closing parenthesis. -/
  spares : SparesStrings none prelude.toList
  /-- A prelude of blanks alone is none. The reader, which trims preludes, yields none such. -/
  nonblank (present : prelude ≠ "") : Text.trim prelude.toList ≠ []

instance (prelude : String) : Decidable (IsTidyPrelude prelude) :=
  decidable_of_iff
    (SparesStrings none prelude.toList ∧ (prelude ≠ "" → Text.trim prelude.toList ≠ []))
    ⟨fun ⟨spares, nonblank⟩ => ⟨spares, nonblank⟩, fun tidy => ⟨tidy.spares, tidy.nonblank⟩⟩

/-- All preludes are tidy. -/
def tidy : Demand where
  rule _ := True
  statement _ prelude := IsTidyPrelude prelude
  group _ prelude _ := IsTidyPrelude prelude
  descriptors _ prelude _ := IsTidyPrelude prelude

instance : tidy.IsDecidable where
  rule _ := .isTrue trivial
  statement _ prelude := inferInstanceAs (Decidable (IsTidyPrelude prelude))
  group _ prelude _ := inferInstanceAs (Decidable (IsTidyPrelude prelude))
  descriptors _ prelude _ := inferInstanceAs (Decidable (IsTidyPrelude prelude))

/-! ## Reading back -/

/-- The written forms of a list's items are cut into the pieces of what is read back, if that
holds of each item. -/
theorem pieces_writeItems_append_of_forall
    {items : List Item}
    (each : ∀ item ∈ items, ∀ rest,
      pieces (item.write.toList ++ rest) = allPieces item.readBack ++ pieces rest)
    (rest : List Char) :
    pieces ((writeItems items).toList ++ rest) = allPieces (readBackAll items) ++ pieces rest := by
  induction items with
  | nil => rfl
  | cons item items inductionHypothesis =>
      obtain ⟨first, others⟩ := List.forall_mem_cons.mp each
      rw [writeItems, String.toList_append, List.append_assoc, first,
        inductionHypothesis others, readBackAll, allPieces_append, List.append_assoc]

/-- The written form of an item is cut into the pieces of what is read back. -/
theorem pieces_write_append
    (item : Item)
    (met : item.Meets restorable)
    (rest : List Char) :
    pieces (item.write.toList ++ rest) = allPieces item.readBack ++ pieces rest := by
  induction item generalizing rest with
  | rule rule =>
      rw [Item.write, Item.readBack]
      split
      · next empty =>
          rw [Rule.write, if_pos empty]
          rfl
      · next present =>
          rw [Bool.or_eq_true, not_or, List.isEmpty_iff, List.isEmpty_iff] at present
          exact Rule.pieces_write_append present.2 present.1 met rest
  | statement name prelude =>
      have read := IsLegibleHead.readAtRule_statement met rest
      rw [Item.write, String.toList_append, toList_writeAtHead]
      simp only [List.cons_append, List.append_assoc]
      rw [pieces_at]
      simp only [show ";".toList = [';'] from rfl, List.singleton_append, read]
      rfl
  | group name prelude items inductionHypothesis =>
      obtain ⟨⟨headLegible, grouping⟩, itemsMet⟩ := met
      have inner := pieces_writeItems_append_of_forall (fun item member =>
        inductionHypothesis item member (allMeet_iff.mp itemsMet item member)) ('}' :: rest)
      have read := headLegible.readAtRule_opening grouping
        ((writeItems items).toList ++ '}' :: rest)
      rw [Item.write, Item.readBack_group, isEmpty_writeItems]
      split
      · rfl
      · simp only [String.toList_append, toList_writeAtHead, List.cons_append, List.append_assoc]
        rw [pieces_at]
        simp only [show "\x7b".toList = ['{'] from rfl, show "\x7d".toList = ['}'] from rfl,
          List.cons_append, List.nil_append, read, inner, pieces_closing]
        simp [allPieces, Item.pieces]
  | descriptors name prelude declarations =>
      obtain ⟨headLegible, notGrouping, declarationsMet⟩ := met
      have read := headLegible.readAtRule_descriptors notGrouping declarationsMet rest
      rw [Item.write, String.toList_append, toList_writeAtHead, toList_writeBlock]
      simp only [List.cons_append, List.append_assoc, List.nil_append]
      rw [pieces_at]
      simp only [read]
      rfl

/-- The written form of a list's items, cut into pieces. -/
theorem pieces_writeItems_append
    {items : List Item}
    (met : AllMeet restorable items)
    (rest : List Char) :
    pieces ((writeItems items).toList ++ rest) = allPieces (readBackAll items) ++ pieces rest :=
  pieces_writeItems_append_of_forall
    (fun item member => pieces_write_append item (allMeet_iff.mp met item member)) rest

/-- Reading the written form of a restorable sheet, up to what follows. -/
theorem nest_pieces_write_append
    {sheet : Sheet}
    (met : AllMeet restorable sheet.items)
    (before : List Item)
    (rest : List Char) :
    nest [] before (pieces (sheet.write.toList ++ rest)) =
      nest [] (before ++ readBackAll sheet.items) (pieces rest) := by
  rw [Sheet.write, pieces_writeItems_append met, nest_allPieces]

/-- What is read back of a restorable sheet. -/
theorem read_write_of_restorable
    {sheet : Sheet}
    (met : AllMeet restorable sheet.items) :
    Sheet.read sheet.write = ⟨readBackAll sheet.items⟩ := by
  have nested := nest_pieces_write_append met [] []
  rw [List.append_nil, pieces_nil, List.nil_append] at nested
  rw [Sheet.read, nested]
  rfl

/-- What is read back of a legible sheet. -/
theorem read_write
    {sheet : Sheet}
    (met : AllMeet legible sheet.items) :
    Sheet.read sheet.write = ⟨readBackAll sheet.items⟩ :=
  read_write_of_restorable (.of_both restorable_followsFrom_legible met met)

/-- What is read back of two legible sheets, written one behind the other. -/
theorem read_write_append
    {first second : Sheet}
    (firstMet : AllMeet legible first.items)
    (secondMet : AllMeet legible second.items) :
    Sheet.read (first.write ++ second.write) =
      ⟨readBackAll first.items ++ readBackAll second.items⟩ := by
  have firstRestorable := AllMeet.of_both restorable_followsFrom_legible firstMet firstMet
  have secondRestorable := AllMeet.of_both restorable_followsFrom_legible secondMet secondMet
  have nested := nest_pieces_write_append firstRestorable [] second.write.toList
  have last := nest_pieces_write_append secondRestorable (readBackAll first.items) []
  rw [List.append_nil, pieces_nil] at last
  rw [List.nil_append, last] at nested
  rw [Sheet.read, String.toList_append, nested]
  rfl

/-! ## Filled sheets -/

mutual

/-- The item with all its texts in their written forms. -/
def Item.minified : Item → Item
  | .rule rule => .rule rule.minified
  | .statement name prelude => .statement name (minifyPrelude prelude)
  | .group name prelude items => .group name (minifyPrelude prelude) (minifiedAll items)
  | .descriptors name prelude declarations =>
      .descriptors name (minifyPrelude prelude) (declarations.map Declaration.minified)

/-- The items of a list with all their texts in their written forms. -/
def minifiedAll : List Item → List Item
  | [] => []
  | item :: items => item.minified :: minifiedAll items

end

/-- The sheet with all its texts in their written forms. -/
def Sheet.minified (sheet : Sheet) : Sheet :=
  ⟨minifiedAll sheet.items⟩

theorem minifiedAll_eq_map (items : List Item) : minifiedAll items = items.map Item.minified := by
  induction items with
  | nil => rfl
  | cons item items inductionHypothesis =>
      rw [minifiedAll, inductionHypothesis, List.map_cons]

theorem readBackAll_of_forall
    {items : List Item}
    (each : ∀ item ∈ items, item.readBack = [item.minified]) :
    readBackAll items = minifiedAll items := by
  rw [readBackAll_eq_flatMap, minifiedAll_eq_map, List.flatMap_congr each]
  exact List.map_eq_flatMap.symm

/-- Nothing is lost of a filled item. -/
theorem Item.readBack_of_filled
    {item : Item}
    (met : item.Meets filled) :
    item.readBack = [item.minified] := by
  induction item with
  | rule rule =>
      obtain ⟨selectors_ne, declarations_ne⟩ := met
      rw [readBack, if_neg (by simp [selectors_ne, declarations_ne]), minified]
  | statement name prelude => rw [readBack, minified]
  | group name prelude items inductionHypothesis =>
      have inner := readBackAll_of_forall fun item member =>
        inductionHypothesis item member (allMeet_iff.mp met.2 item member)
      have inner_ne : minifiedAll items ≠ [] := by
        have items_ne : items ≠ [] := met.1
        simpa [minifiedAll_eq_map] using items_ne
      rw [readBack_group, inner, if_neg (by simpa using inner_ne), minified]
  | descriptors name prelude declarations => rw [readBack, minified]

theorem readBackAll_of_filled
    {items : List Item}
    (met : AllMeet filled items) :
    readBackAll items = minifiedAll items :=
  readBackAll_of_forall fun item member => Item.readBack_of_filled (allMeet_iff.mp met item member)

/-! ## Writing again -/

theorem Declaration.write_minified (declaration : Declaration) :
    declaration.minified.write = declaration.write := by
  rw [write, write, minified, minifyValue_minifyValue]

theorem writeBlock_map_minified (declarations : List Declaration) :
    writeBlock (declarations.map Declaration.minified) = writeBlock declarations := by
  rw [writeBlock, writeBlock, List.map_map,
    List.map_congr_left fun declaration _ => declaration.write_minified]

theorem Rule.write_minified (rule : Rule) : rule.minified.write = rule.write := by
  simp only [write, minified, List.isEmpty_map, List.map_map, writeBlock_map_minified,
    Function.comp_def, minifySelector_minifySelector]

theorem IsTidyPrelude.isEmpty_minifyPrelude
    {prelude : String}
    (tidyPrelude : IsTidyPrelude prelude) :
    (minifyPrelude prelude).isEmpty = prelude.isEmpty := by
  have tightened := isTightened_minifyPrelude prelude
  rw [Bool.eq_iff_iff, String.isEmpty_iff, String.isEmpty_iff, ← String.toList_eq_nil_iff,
    tightened.eq_nil_iff]
  constructor
  · intro blank
    by_contra present
    exact tidyPrelude.nonblank present blank
  · rintro rfl
    rfl

theorem writeAtHead_minifyPrelude
    (name : String)
    {prelude : String}
    (tidyPrelude : IsTidyPrelude prelude) :
    writeAtHead name (minifyPrelude prelude) = writeAtHead name prelude := by
  rw [writeAtHead, writeAtHead, tidyPrelude.isEmpty_minifyPrelude,
    minifyPrelude_minifyPrelude tidyPrelude.spares]

theorem writeItems_of_forall
    {items : List Item}
    (each : ∀ item ∈ items, item.minified.write = item.write) :
    writeItems (minifiedAll items) = writeItems items := by
  induction items with
  | nil => rfl
  | cons item items inductionHypothesis =>
      obtain ⟨first, others⟩ := List.forall_mem_cons.mp each
      rw [minifiedAll, writeItems, writeItems, first, inductionHypothesis others]

/-- Putting the texts of a tidy item into their written forms does not change what is
written. -/
theorem Item.write_minified
    {item : Item}
    (met : item.Meets tidy) :
    item.minified.write = item.write := by
  induction item with
  | rule rule => rw [minified, write, write, rule.write_minified]
  | statement name prelude => rw [minified, write, write, writeAtHead_minifyPrelude name met]
  | group name prelude items inductionHypothesis =>
      have inner := writeItems_of_forall fun item member =>
        inductionHypothesis item member (allMeet_iff.mp met.2 item member)
      rw [minified, write, write, inner, writeAtHead_minifyPrelude name met.1]
  | descriptors name prelude declarations =>
      rw [minified, write, write, writeAtHead_minifyPrelude name met, writeBlock_map_minified]

/-- Reading undoes writing. Of two legible and filled sheets, each is read back from its written
form with all its texts in their written forms, both are read back from the two written forms
one behind the other, and a tidy one is written as the same text again. -/
theorem read_undoes_write
    (first second : Sheet)
    (firstLegible : AllMeet legible first.items)
    (firstFilled : AllMeet filled first.items)
    (secondLegible : AllMeet legible second.items)
    (secondFilled : AllMeet filled second.items) :
    Sheet.read first.write = first.minified ∧
      Sheet.read (first.write ++ second.write) =
        ⟨first.minified.items ++ second.minified.items⟩ ∧
      (AllMeet tidy first.items → first.minified.write = first.write) := by
  have firstWhole := readBackAll_of_filled firstFilled
  have secondWhole := readBackAll_of_filled secondFilled
  refine ⟨?_, ?_, fun firstTidy => ?_⟩
  · rw [read_write firstLegible, firstWhole]
    rfl
  · rw [read_write_append firstLegible secondLegible, firstWhole, secondWhole]
    rfl
  · exact writeItems_of_forall fun item member =>
      Item.write_minified (allMeet_iff.mp firstTidy item member)

theorem read_undoes_write_nested :
    let first : Sheet := ⟨[
      .group "media" "( min-width : 1px )" [
        .group "supports" "(a: b)" [
          .rule ⟨["a > b", "c[d=\"x;\x7b\"]"], [⟨"color", "red , blue", true⟩]⟩]],
      .statement "import" "url( x )"]⟩
    let second : Sheet := ⟨[.descriptors "font-face" "" [⟨"src", "url(a;b)  c", false⟩]]⟩
    (AllMeet legible first.items ∧ AllMeet filled first.items ∧
      AllMeet legible second.items ∧ AllMeet filled second.items ∧ AllMeet tidy first.items) ∧
    Sheet.read first.write = first.minified ∧
      Sheet.read (first.write ++ second.write) =
        ⟨first.minified.items ++ second.minified.items⟩ ∧
      first.minified.write = first.write := by
  intro first second
  have firstLegible : AllMeet legible first.items := by decide
  have firstFilled : AllMeet filled first.items := by decide
  have secondLegible : AllMeet legible second.items := by decide
  have secondFilled : AllMeet filled second.items := by decide
  have firstTidy : AllMeet tidy first.items := by decide
  obtain ⟨firstRead, bothRead, rewritten⟩ :=
    read_undoes_write first second firstLegible firstFilled secondLegible secondFilled
  exact ⟨⟨firstLegible, firstFilled, secondLegible, secondFilled, firstTidy⟩, firstRead, bothRead,
    rewritten firstTidy⟩

/-- A blank prelude is written as a blank, read back as nothing, and then not written at all. -/
theorem blank_prelude_not_rewritten :
    let sheet : Sheet := ⟨[.group "media" " " [.rule ⟨["a"], [⟨"b", "c", false⟩]⟩]]⟩
    AllMeet legible sheet.items ∧ AllMeet filled sheet.items ∧
      sheet.write = "@media \x7ba\x7bb:c\x7d\x7d" ∧ Sheet.read sheet.write = sheet.minified ∧
        sheet.minified.write = "@media\x7ba\x7bb:c\x7d\x7d" := by
  intro sheet
  have isLegible : AllMeet legible sheet.items := by decide
  have isFilled : AllMeet filled sheet.items := by decide
  refine ⟨isLegible, isFilled, by decide, ?_, by decide⟩
  rw [read_write isLegible, readBackAll_of_filled isFilled]
  rfl

/-!
## Occurrences of declarations

What a style sheet says is the list of its declarations, each with the selectors that
share it and the at-rules around it. Reading a written sheet back keeps this list,
up to the written forms of the texts, and forcing importance changes the marks of
the occurrences that no font face or keyframes encloses.
-/

/-- A declaration in its place. -/
structure Occurrence where
  /-- Names and preludes of the at-rules around the declaration, outermost first. -/
  enclosing : List (String × String)
  /-- The selectors of its rule; none directly below an at-rule. -/
  selectors : List String
  /-- The declaration. -/
  declaration : Declaration
  deriving DecidableEq, Repr

namespace Occurrence

/-- The occurrence with one more at-rule around it. -/
def within (name prelude : String) (occurrence : Occurrence) : Occurrence :=
  { occurrence with enclosing := (name, prelude) :: occurrence.enclosing }

/-- The occurrence with all its texts in their written forms. -/
def minified (occurrence : Occurrence) : Occurrence :=
  ⟨occurrence.enclosing.map fun head => (head.1, minifyPrelude head.2),
    occurrence.selectors.map minifySelector, occurrence.declaration.minified⟩

/-- The occurrence without an importance mark. -/
def unmarked (occurrence : Occurrence) : Occurrence :=
  { occurrence with declaration := { occurrence.declaration with important := false } }

/-- The occurrence with an importance mark, where the mark has a place. -/
def forced (occurrence : Occurrence) : Occurrence :=
  if occurrence.enclosing.any fun head => unmarkedNames.contains head.1 then occurrence
  else { occurrence with declaration := occurrence.declaration.forceImportant }

theorem forced_within (name prelude : String) (occurrence : Occurrence) :
    (occurrence.within name prelude).forced =
      if unmarkedNames.contains name then occurrence.within name prelude
      else occurrence.forced.within name prelude := by
  unfold forced within
  by_cases here : unmarkedNames.contains name = true
  · simp only [List.any_cons, here, Bool.true_or, if_true]
  · rw [Bool.not_eq_true] at here
    simp only [List.any_cons, here, Bool.false_or, Bool.false_eq_true, if_false]
    split <;> rfl

theorem unmarked_forced (occurrence : Occurrence) :
    occurrence.forced.unmarked = occurrence.unmarked := by
  unfold forced
  split <;> rfl

theorem unmarked_minified (occurrence : Occurrence) :
    occurrence.minified.unmarked = occurrence.unmarked.minified := rfl

end Occurrence

mutual

/-- The declarations of an item in their places. -/
def Item.occurrences : Item → List Occurrence
  | .rule rule => rule.declarations.map fun declaration => ⟨[], rule.selectors, declaration⟩
  | .statement _ _ => []
  | .group name prelude items => (allOccurrences items).map (Occurrence.within name prelude)
  | .descriptors name prelude declarations =>
      declarations.map fun declaration => ⟨[(name, prelude)], [], declaration⟩

/-- The declarations of a list of items in their places. -/
def allOccurrences : List Item → List Occurrence
  | [] => []
  | item :: items => item.occurrences ++ allOccurrences items

end

theorem allOccurrences_eq_flatMap (items : List Item) :
    allOccurrences items = items.flatMap Item.occurrences := by
  induction items with
  | nil => rfl
  | cons item items inductionHypothesis =>
      rw [allOccurrences, inductionHypothesis, List.flatMap_cons]

theorem allOccurrences_append (first second : List Item) :
    allOccurrences (first ++ second) = allOccurrences first ++ allOccurrences second := by
  simp only [allOccurrences_eq_flatMap, List.flatMap_append]

/-! ### Reading back -/

/-- All that is legible, where no rule lacks a selector. Of such items nothing but emptiness is
lost. -/
def readable : Demand :=
  { legible with rule := fun rule => rule.IsLegible ∧ rule.selectors ≠ [] }

/-- What is readable is legible. -/
theorem legible_followsFrom_readable : legible.FollowsFrom readable readable where
  rule met _ := met.1
  statement met _ := met
  group met _ := met
  descriptors met _ := met

theorem allOccurrences_readBackAll_of_forall
    {items : List Item}
    (each : ∀ item ∈ items,
      allOccurrences item.readBack = item.occurrences.map Occurrence.minified) :
    allOccurrences (readBackAll items) = (allOccurrences items).map Occurrence.minified := by
  induction items with
  | nil => rfl
  | cons item items inductionHypothesis =>
      obtain ⟨first, others⟩ := List.forall_mem_cons.mp each
      rw [readBackAll, allOccurrences_append, first, inductionHypothesis others, allOccurrences,
        List.map_append]

/-- Reading an item back keeps its declarations in their places. -/
theorem allOccurrences_readBack
    {item : Item}
    (met : item.Meets readable) :
    allOccurrences item.readBack = item.occurrences.map Occurrence.minified := by
  induction item with
  | rule rule =>
      have selectors_ne : rule.selectors ≠ [] := met.2
      rw [Item.readBack]
      split
      · next empty =>
          have noDeclarations : rule.declarations = [] := by simpa [selectors_ne] using empty
          simp [allOccurrences, Item.occurrences, noDeclarations]
      · simp [allOccurrences, Item.occurrences, Rule.minified, Occurrence.minified,
          Function.comp_def]
  | statement name prelude => simp [Item.readBack, allOccurrences, Item.occurrences]
  | group name prelude items inductionHypothesis =>
      have inner := allOccurrences_readBackAll_of_forall fun item member =>
        inductionHypothesis item member (allMeet_iff.mp met.2 item member)
      rw [Item.readBack_group, Item.occurrences]
      split
      · next empty =>
          rw [List.isEmpty_iff.mp empty] at inner
          have nothing := List.map_eq_nil_iff.mp inner.symm
          rw [nothing]
          rfl
      · rw [allOccurrences, allOccurrences, List.append_nil, Item.occurrences, inner,
          List.map_map, List.map_map]
        rfl
  | descriptors name prelude declarations =>
      simp [Item.readBack, allOccurrences, Item.occurrences, Occurrence.minified,
        Function.comp_def]

/-- Reading items back keeps their declarations in their places. -/
theorem allOccurrences_readBackAll
    {items : List Item}
    (met : AllMeet readable items) :
    allOccurrences (readBackAll items) = (allOccurrences items).map Occurrence.minified :=
  allOccurrences_readBackAll_of_forall fun item member =>
    allOccurrences_readBack (allMeet_iff.mp met item member)

/-- What is read of a written sheet says what the sheet says. -/
theorem allOccurrences_read_write
    {sheet : Sheet}
    (met : AllMeet readable sheet.items) :
    allOccurrences (Sheet.read sheet.write).items =
      (allOccurrences sheet.items).map Occurrence.minified := by
  rw [read_write (.of_both legible_followsFrom_readable met met)]
  exact allOccurrences_readBackAll met

/-! ### Forced importance -/

theorem forceImportantAll_eq_map (items : List Item) :
    forceImportantAll items = items.map Item.forceImportant := by
  induction items with
  | nil => rfl
  | cons item items inductionHypothesis =>
      rw [forceImportantAll, inductionHypothesis, List.map_cons]

theorem allOccurrences_forceImportantAll_of_forall
    {items : List Item}
    (each : ∀ item ∈ items,
      item.forceImportant.occurrences = item.occurrences.map Occurrence.forced) :
    allOccurrences (forceImportantAll items) = (allOccurrences items).map Occurrence.forced := by
  induction items with
  | nil => rfl
  | cons item items inductionHypothesis =>
      obtain ⟨first, others⟩ := List.forall_mem_cons.mp each
      rw [forceImportantAll, allOccurrences, first, inductionHypothesis others, allOccurrences,
        List.map_append]

/-- Forcing importance forces the occurrences. -/
theorem occurrences_forceImportant (item : Item) :
    item.forceImportant.occurrences = item.occurrences.map Occurrence.forced := by
  induction item with
  | rule rule =>
      simp [Item.forceImportant, Item.occurrences, Occurrence.forced, Function.comp_def]
  | statement name prelude => rfl
  | group name prelude items inductionHypothesis =>
      have inner := allOccurrences_forceImportantAll_of_forall inductionHypothesis
      rw [Item.forceImportant]
      split
      · next unmarkable =>
          rw [Item.occurrences, List.map_map]
          refine List.map_congr_left fun occurrence _ => ?_
          rw [Function.comp_apply, Occurrence.forced_within, if_pos unmarkable]
      · next markable =>
          rw [Item.occurrences, Item.occurrences, inner, List.map_map, List.map_map]
          refine List.map_congr_left fun occurrence _ => ?_
          rw [Function.comp_apply, Function.comp_apply, Occurrence.forced_within,
            if_neg markable]
  | descriptors name prelude declarations =>
      rw [Item.forceImportant]
      split
      · next unmarkable =>
          have listed : name ∈ unmarkedNames := by simpa using unmarkable
          simp [Item.occurrences, Occurrence.forced, listed]
      · next markable =>
          have unlisted : name ∉ unmarkedNames := by simpa using markable
          simp [Item.occurrences, Occurrence.forced, unlisted]

theorem allOccurrences_forceImportantAll (items : List Item) :
    allOccurrences (forceImportantAll items) = (allOccurrences items).map Occurrence.forced :=
  allOccurrences_forceImportantAll_of_forall fun item _ => occurrences_forceImportant item

theorem Declaration.isLegible_forceImportant
    {declaration : Declaration}
    (legible : declaration.IsLegible) :
    declaration.forceImportant.IsLegible :=
  ⟨legible.property_ne, legible.property_word, legible.value_closed, legible.value_ne,
    legible.value_unmarked⟩

theorem isLegible_of_mem_map_forceImportant
    {declarations : List Declaration}
    (legible : ∀ declaration ∈ declarations, declaration.IsLegible)
    {declaration : Declaration}
    (member : declaration ∈ declarations.map Declaration.forceImportant) :
    declaration.IsLegible := by
  obtain ⟨original, present, rfl⟩ := List.mem_map.mp member
  exact Declaration.isLegible_forceImportant (legible original present)

/-- A demand that is still met when declarations are marked and groups hold other items. -/
structure Demand.IsStable (demand : Demand) : Prop where
  rule {rule : Rule} (met : demand.rule rule) :
    demand.rule { rule with declarations := rule.declarations.map Declaration.forceImportant }
  group {name prelude : String} {items others : List Item}
    (met : demand.group name prelude items) : demand.group name prelude others
  descriptors {name prelude : String} {declarations : List Declaration}
    (met : demand.descriptors name prelude declarations) :
    demand.descriptors name prelude (declarations.map Declaration.forceImportant)

/-- An item goes on to meet a stable demand when its importance is forced. -/
theorem Item.Meets.forceImportant
    {demand : Demand}
    (stable : demand.IsStable)
    {item : Item}
    (met : item.Meets demand) :
    item.forceImportant.Meets demand := by
  induction item with
  | rule rule => exact stable.rule met
  | statement name prelude => exact met
  | group name prelude items inductionHypothesis =>
      rw [Item.forceImportant]
      split
      · exact met
      · refine ⟨stable.group met.1, allMeet_iff.mpr fun item member => ?_⟩
        rw [forceImportantAll_eq_map] at member
        obtain ⟨original, present, rfl⟩ := List.mem_map.mp member
        exact inductionHypothesis original present (allMeet_iff.mp met.2 original present)
  | descriptors name prelude declarations =>
      rw [Item.forceImportant]
      split
      · exact met
      · exact stable.descriptors met

theorem AllMeet.forceImportantAll
    {demand : Demand}
    (stable : demand.IsStable)
    {items : List Item}
    (met : AllMeet demand items) :
    AllMeet demand (Css.forceImportantAll items) := by
  refine allMeet_iff.mpr fun item member => ?_
  rw [forceImportantAll_eq_map] at member
  obtain ⟨original, present, rfl⟩ := List.mem_map.mp member
  exact .forceImportant stable (allMeet_iff.mp met original present)

/-- What is readable stays readable. -/
theorem readable_isStable : readable.IsStable where
  rule met :=
    ⟨⟨met.1.selectors, met.1.start, fun _ =>
      isLegible_of_mem_map_forceImportant met.1.declarations⟩, met.2⟩
  group met := met
  descriptors met :=
    ⟨met.1, met.2.1, fun _ => isLegible_of_mem_map_forceImportant met.2.2⟩

end Css
end MailPress
