import MailPress.Proofs.Css.Item
import MailPress.Proofs.Css.Matching
import MailPress.Proofs.Css.Shape
import MailPress.Style.Unused

/-!
# What is left of a style sheet

Taking unused selectors out of a sheet leaves every rule with the selectors that are used, and
drops the rules that have none left. Since a selector is used when it could come to match, every
selector that matches on the document at rest is retained, with the declarations of its rule.

A sheet whose texts are closed is pruned by taking the unused selectors out of its style rules;
the frames of its keyframes are no selectors and stay. What is written instead has lost the
unused selectors everywhere. It is read as the pruned sheet exactly when no frame counts as an
unused selector, provided that no rule is left with a first selector that starts like an
at-rule.
-/

namespace MailPress

namespace Css

/-- The rule without unused selectors; none when no selector is left. -/
def PlacedRule.retain (isUsed : String → Bool) (placed : PlacedRule) : Option PlacedRule :=
  let selectors := placed.rule.selectors.filter isUsed
  if selectors.isEmpty then none
  else some { placed with rule := { placed.rule with selectors } }

end Css

namespace Style

open Css (AllMeet Demand Item PlacedRule allMeet_iff placedRulesOfAll readBackAll restrictAll)

/-! ## What is retained -/

theorem usedItems_eq_flatMap
    (isUsed : String → Bool)
    (items : List Item) :
    usedItems isUsed items = items.flatMap fun item => (usedItem isUsed item).toList := by
  induction items with
  | nil => rfl
  | cons item items inductionHypothesis =>
      rw [usedItems, inductionHypothesis, List.flatMap_cons]

/-- The rules that are left of a list's items are the rules without their unused selectors, if
that holds of each item. -/
theorem placedRules_usedItems_of_forall
    {isUsed : String → Bool}
    {framed : Bool}
    {items : List Item}
    (each : ∀ item ∈ items, placedRulesOfAll framed (usedItem isUsed item).toList =
      (item.placedRules framed).filterMap (·.retain isUsed)) :
    placedRulesOfAll framed (usedItems isUsed items) =
      (placedRulesOfAll framed items).filterMap (·.retain isUsed) := by
  rw [usedItems_eq_flatMap, Css.placedRulesOfAll_eq_flatMap, List.flatMap_assoc,
    Css.placedRulesOfAll_eq_flatMap framed items, List.filterMap_flatMap]
  refine List.flatMap_congr fun item member => ?_
  rw [← Css.placedRulesOfAll_eq_flatMap]
  exact each item member

/-- The rules that are left of an item are its rules without their unused selectors. -/
theorem placedRules_usedItem
    (isUsed : String → Bool)
    (framed : Bool)
    (item : Item) :
    placedRulesOfAll framed (usedItem isUsed item).toList =
      (item.placedRules framed).filterMap (·.retain isUsed) := by
  induction item generalizing framed with
  | rule rule =>
      rw [usedItem, Item.placedRules, List.filterMap_cons, PlacedRule.retain]
      dsimp only
      split <;> rfl
  | statement name prelude => rfl
  | group name prelude items inductionHypothesis =>
      have inner := placedRules_usedItems_of_forall fun item member =>
        inductionHypothesis item member (framed || Css.isKeyframes name)
      rw [usedItem, Option.toList_some, placedRulesOfAll, placedRulesOfAll, List.append_nil,
        Item.placedRules, Item.placedRules, inner]
  | descriptors name prelude declarations => rfl

theorem placedRules_usedItems
    (isUsed : String → Bool)
    (framed : Bool)
    (items : List Item) :
    placedRulesOfAll framed (usedItems isUsed items) =
      (placedRulesOfAll framed items).filterMap (·.retain isUsed) :=
  placedRules_usedItems_of_forall fun item _ => placedRules_usedItem isUsed framed item

/-- A used selector of a rule is retained, with the declarations of the rule. -/
theorem exists_retained
    {isUsed : String → Bool}
    {framed : Bool}
    {items : List Item}
    {placed : PlacedRule}
    (present : placed ∈ placedRulesOfAll framed items)
    {text : String}
    (listed : text ∈ placed.rule.selectors)
    (used : isUsed text = true) :
    ∃ retained ∈ placedRulesOfAll framed (usedItems isUsed items),
      retained.framed = placed.framed ∧ text ∈ retained.rule.selectors ∧
        retained.rule.declarations = placed.rule.declarations := by
  have kept : text ∈ placed.rule.selectors.filter isUsed := List.mem_filter.mpr ⟨listed, used⟩
  have nonempty : (placed.rule.selectors.filter isUsed).isEmpty = false := by
    simpa using List.ne_nil_of_mem kept
  refine ⟨⟨placed.framed, ⟨placed.rule.selectors.filter isUsed, placed.rule.declarations⟩⟩, ?_,
    rfl, kept, rfl⟩
  rw [placedRules_usedItems]
  refine List.mem_filterMap.mpr ⟨placed, present, ?_⟩
  simp [PlacedRule.retain, nonempty]

/-- A selector that matches on the document at rest is used, whatever is protected. -/
theorem isUsed_of_matchesAny_static
    {document : Markup.Document}
    {text : String}
    {selector : Css.Selector}
    (read : Css.Selector.read text = some selector)
    (matching : selector.matchesAny .static document = true)
    (kept : List String) :
    isUsed document kept text = true := by
  simp [isUsed, read, Css.Selector.matchesAny_presence_of_matchesAny_static matching]

/-- Asking for presence is deleting what cannot be decided and matching the rest on the document
at rest, the end of the program included. So what matches at rest is present if asking for presence
has an answer, the two modes agree on a selector that can be decided, and no selector that matches
at rest is lost when unused ones are taken out. -/
theorem matches_presence_eq_matches_erase
    (document : Markup.Document)
    (selector : Css.Selector) :
    (∀ id, selector.matches? .presence document id =
      selector.erase.matches? .static document id) ∧
    (∀ id, selector.matches? .static document id = some true →
      selector.matches? .presence document id ≠ none →
        selector.matches? .presence document id = some true) ∧
    (selector.isStatic = true → ∀ id,
      selector.matches? .presence document id = selector.matches? .static document id) ∧
    (∀ text, Css.Selector.read text = some selector →
      (∃ id ∈ document.elements, selector.matches? .static document id = some true) →
        ∀ kept items placed,
          placed ∈ placedRulesOfAll false items → text ∈ placed.rule.selectors →
            ∃ retained ∈ placedRulesOfAll false (usedItems (isUsed document kept) items),
              retained.framed = placed.framed ∧ text ∈ retained.rule.selectors ∧
                retained.rule.declarations = placed.rule.declarations) := by
  have atRest {id : Nat} (matching : selector.matches? .static document id = some true) :
      selector.matches .static document id = true :=
    (Css.Selector.matches?_eq_some_iff.mp matching).2
  refine ⟨selector.matches?_presence, ?_, Css.Selector.matches?_presence_of_isStatic, ?_⟩
  · intro id matching answered
    refine Css.Selector.matches?_eq_some_iff.mpr ⟨?_, ?_⟩
    · rwa [Ne, Css.Selector.matches?_eq_none_iff, Bool.not_eq_true] at answered
    · exact Css.Selector.matches_presence_of_matches_static (atRest matching)
  · rintro text read ⟨id, member, matching⟩ kept items placed present listed
    have anywhere : selector.matchesAny .static document = true :=
      List.any_eq_true.mpr ⟨id, member, atRest matching⟩
    exact exists_retained present listed (isUsed_of_matchesAny_static read anywhere kept)

/-- The theorem at a link, a selector that cannot be decided on it, and one that can. -/
theorem matches_presence_eq_matches_erase_link :
    ∃ document hovered plain, Markup.Document.read "<a></a>" = .ok document ∧
      Css.Selector.read "a:not(.b):not(:visited):hover" = some hovered ∧
      Css.Selector.read "a:not(.b)" = some plain ∧ hovered.erase = plain ∧
      hovered.matches? .presence document 1 = plain.matches? .static document 1 ∧
      plain.matches? .static document 1 = some true ∧
      plain.matches? .presence document 1 = some true ∧
      plain.isStatic = true ∧
      ∃ retained ∈ placedRulesOfAll false
          (usedItems (isUsed document []) [.rule ⟨["a:not(.b)", "i"], [⟨"c", "d", false⟩]⟩]),
        "a:not(.b)" ∈ retained.rule.selectors ∧
          retained.rule.declarations = [⟨"c", "d", false⟩] := by
  let document : Markup.Document :=
    ⟨#[⟨.root, none, [1]⟩, ⟨.element ⟨"a", [], false⟩, some 0, []⟩]⟩
  let named : Css.Simple := .type "a"
  let unclassed : Css.Simple := .not [.compound [.className "b"]]
  let hovered : Css.Selector :=
    .compound [named, unclassed, .not [.compound [.dynamic]], .dynamic]
  let plain : Css.Selector := .compound [named, unclassed]
  have read : Markup.Document.read "<a></a>" = .ok document := by cbv
  have readHovered : Css.Selector.read "a:not(.b):not(:visited):hover" = some hovered := by
    with_unfolding_all rfl
  have readPlain : Css.Selector.read "a:not(.b)" = some plain := by with_unfolding_all rfl
  obtain ⟨erases, _, _, _⟩ := matches_presence_eq_matches_erase document hovered
  obtain ⟨_, _, agrees, retains⟩ := matches_presence_eq_matches_erase document plain
  have found : plain.matches? .static document 1 = some true := by cbv
  have elements : document.elements = [1] := by cbv
  have anywhere : ∃ id ∈ document.elements, plain.matches? .static document id = some true :=
    ⟨1, elements ▸ List.mem_singleton_self 1, found⟩
  obtain ⟨retained, present, _, listed, same⟩ := retains "a:not(.b)" readPlain anywhere []
    [.rule ⟨["a:not(.b)", "i"], [⟨"c", "d", false⟩]⟩] _ List.mem_cons_self List.mem_cons_self
  exact ⟨document, hovered, plain, read, readHovered, readPlain, rfl, erases 1, found,
    (agrees rfl 1).trans found, rfl, retained, present, listed, same⟩

/-- The first negation fails for the inner element at rest and passes where only presence is asked
for. Then the second one is asked, which has no answer there. -/
theorem matches?_presence_eq_none_behind_negation :
    ∃ document selector,
      Markup.Document.read "<b><i></i><b class=\"a\"><u></u></b></b>" = .ok document ∧
        Css.Selector.read "b:not(.a,:hover):not(:nth-child(-n-2147483646)) u" = some selector ∧
        4 ∈ document.elements ∧ selector.matches? .static document 4 = some true ∧
        selector.matches? .presence document 4 = none := by
  let bold : Markup.Element := ⟨"b", [], false⟩
  let document : Markup.Document :=
    ⟨#[⟨.root, none, [1]⟩, ⟨.element bold, some 0, [2, 3]⟩,
      ⟨.element ⟨"i", [], false⟩, some 1, []⟩,
      ⟨.element ⟨"b", [⟨"class", "a"⟩], false⟩, some 1, [4]⟩,
      ⟨.element ⟨"u", [], false⟩, some 3, []⟩]⟩
  let countdown : Css.Simple := .nthChild ⟨-1, -2147483646⟩
  let selector : Css.Selector :=
    .combined
      (.compound
        [.type "b", .not [.compound [.className "a"], .compound [.dynamic]],
          .not [.compound [countdown]]])
      .descendant [.type "u"]
  have read : Markup.Document.read "<b><i></i><b class=\"a\"><u></u></b></b>" = .ok document := by
    cbv
  have understood :
      Css.Selector.read "b:not(.a,:hover):not(:nth-child(-n-2147483646)) u" = some selector := by
    with_unfolding_all rfl
  have elements : document.elements = [1, 2, 3, 4] := by cbv
  exact ⟨document, selector, read, understood, elements ▸ by decide, by decide +kernel,
    by decide +kernel⟩

/-! ## Demands on a sheet that was read -/

/-- All selectors, preludes, properties and values are closed. -/
def closedThroughout : Demand where
  rule rule :=
    (∀ selector ∈ rule.selectors, Css.IsClosed ['{', '}', ';'] selector.toList) ∧
      ∀ declaration ∈ rule.declarations,
        Css.IsClosed ['{', '}', ';'] declaration.property.toList ∧
          Css.IsClosed ['{', '}', ';'] declaration.value.toList
  statement _ prelude := Css.IsClosed ['{', '}', ';'] prelude.toList
  group _ prelude _ := Css.IsClosed ['{', '}', ';'] prelude.toList
  descriptors _ prelude declarations :=
    Css.IsClosed ['{', '}', ';'] prelude.toList ∧
      ∀ declaration ∈ declarations,
        Css.IsClosed ['{', '}', ';'] declaration.property.toList ∧
          Css.IsClosed ['{', '}', ';'] declaration.value.toList

instance : closedThroughout.IsDecidable where
  rule _ := inferInstanceAs (Decidable (_ ∧ _))
  statement _ prelude := inferInstanceAs (Decidable (Css.IsClosed _ prelude.toList))
  group _ prelude _ := inferInstanceAs (Decidable (Css.IsClosed _ prelude.toList))
  descriptors _ _ _ := inferInstanceAs (Decidable (_ ∧ _))

/-- The first selector that is left of a rule with declarations does not start like an
at-rule. -/
def plainStartLeft (isUsed : String → Bool) : Demand where
  rule rule :=
    rule.declarations ≠ [] → ∀ first ∈ (rule.selectors.filter isUsed).head?,
      (Text.trim first.toList).head? ≠ some '@'
  statement _ _ := True
  group _ _ _ := True
  descriptors _ _ _ := True

instance (isUsed : String → Bool) : (plainStartLeft isUsed).IsDecidable where
  rule rule := inferInstanceAs (Decidable (rule.declarations ≠ [] →
    ∀ first ∈ (rule.selectors.filter isUsed).head?, (Text.trim first.toList).head? ≠ some '@'))
  statement _ _ := .isTrue trivial
  group _ _ _ := .isTrue trivial
  descriptors _ _ _ := .isTrue trivial

theorem isRestorable_of_isShaped
    {declaration : Css.Declaration}
    (shaped : declaration.IsShaped)
    (closed : Css.IsClosed ['{', '}', ';'] declaration.property.toList ∧
      Css.IsClosed ['{', '}', ';'] declaration.value.toList) :
    declaration.IsRestorable where
  property_ne := shaped.property_ne
  property_closed := closed.1
  property_fresh := shaped.property_fresh
  property_trim := shaped.property_trim
  property_lower := by
    rw [Text.lower, List.map_congr_left shaped.property_lower, List.map_id', String.ofList_toList]
  value_closed := closed.2
  value_ne := shaped.value_ne
  value_unmarked := shaped.value_unmarked

theorem isLegibleSelector_of_isShaped
    {rule : Css.Rule}
    (shaped : rule.IsShaped)
    {selector : String}
    (member : selector ∈ rule.selectors)
    (closed : Css.IsClosed ['{', '}', ';'] selector.toList) :
    Css.IsLegibleSelector selector := by
  have noComma := shaped.unbarred selector member closed.unbarred.not_mem_backslash
  exact ⟨⟨closed.run_eq, closed.unbarred.append noComma, closed.uncommented⟩,
    shaped.nonblank selector member⟩

/-! ## What is written -/

section Items

variable {isUsed : String → Bool} {items : List Item}

/-- What is left of a list's items is restorable, if that holds of each item. -/
theorem restorable_usedItems_of_forall
    (each : ∀ item ∈ items, AllMeet Css.restorable (usedItem isUsed item).toList) :
    AllMeet Css.restorable (usedItems isUsed items) := by
  rw [usedItems_eq_flatMap, allMeet_iff]
  intro left member
  obtain ⟨item, listed, here⟩ := List.mem_flatMap.mp member
  exact allMeet_iff.mp (each item listed) left here

/-- What is left of an item that was read is restorable. -/
theorem restorable_usedItem
    {item : Item}
    (shaped : item.Meets Css.shaped)
    (closed : item.Meets closedThroughout)
    (start : item.Meets (plainStartLeft isUsed)) :
    AllMeet Css.restorable (usedItem isUsed item).toList := by
  induction item with
  | rule rule =>
      rw [usedItem]
      split
      · trivial
      · refine ⟨⟨fun selector member => ?_, start, fun declaration member => ?_⟩, trivial⟩
        · have original := List.mem_of_mem_filter member
          exact isLegibleSelector_of_isShaped shaped original (closed.1 selector original)
        · exact isRestorable_of_isShaped (shaped.declarations declaration member)
            (closed.2 declaration member)
  | statement name prelude => exact ⟨⟨shaped.name_ne, shaped.name_word, closed⟩, trivial⟩
  | group name prelude items inductionHypothesis =>
      obtain ⟨⟨head, grouping⟩, itemsShaped⟩ := shaped
      have inner := restorable_usedItems_of_forall fun item member =>
        inductionHypothesis item member (allMeet_iff.mp itemsShaped item member)
          (allMeet_iff.mp closed.2 item member) (allMeet_iff.mp start.2 item member)
      exact ⟨⟨⟨⟨head.name_ne, head.name_word, closed.1⟩, grouping⟩, inner⟩, trivial⟩
  | descriptors name prelude declarations =>
      obtain ⟨head, notGrouping, declarationsShaped⟩ := shaped
      refine ⟨⟨⟨head.name_ne, head.name_word, closed.1⟩, notGrouping, fun declaration member => ?_⟩,
        trivial⟩
      exact isRestorable_of_isShaped (declarationsShaped declaration member)
        (closed.2 declaration member)

/-- Nothing is read back of an item that is dropped, so that an item without unused selectors
can stand for what is left of it. -/
theorem readBackAll_usedItems_of_forall
    {framed : Bool}
    (each : ∀ item ∈ items, readBackAll (usedItem isUsed item).toList =
      (item.restrict (fun _ => isUsed) framed).readBack) :
    readBackAll (usedItems isUsed items) =
      readBackAll (restrictAll (fun _ => isUsed) framed items) := by
  rw [usedItems_eq_flatMap, Css.readBackAll_eq_flatMap, List.flatMap_assoc,
    Css.readBackAll_restrictAll]
  refine List.flatMap_congr fun item member => ?_
  rw [← Css.readBackAll_eq_flatMap]
  exact each item member

theorem readBackAll_usedItem
    (framed : Bool)
    (item : Item) :
    readBackAll (usedItem isUsed item).toList =
      (item.restrict (fun _ => isUsed) framed).readBack := by
  induction item generalizing framed with
  | rule rule =>
      rw [usedItem, Item.restrict]
      split
      · next none => simp [readBackAll, Item.readBack, none]
      · simp [readBackAll]
  | statement name prelude => simp [usedItem, Item.restrict, readBackAll]
  | group name prelude items inductionHypothesis =>
      have inner := readBackAll_usedItems_of_forall fun item member =>
        inductionHypothesis item member (framed || Css.isKeyframes name)
      simp only [usedItem, Item.restrict, Option.toList_some, readBackAll, List.append_nil,
        Item.readBack_group, inner]
  | descriptors name prelude declarations => simp [usedItem, Item.restrict, readBackAll]

end Items

/-! ## The pruned sheet -/

/-- The items without the unused selectors of style rules; frames are left alone. -/
def prunedItems (isUsed : String → Bool) (items : List Item) : List Item :=
  restrictAll (fun framed selector => framed || isUsed selector) false items

/-- No frame with declarations counts as an unused selector. -/
def FramesAreUsed (isUsed : String → Bool) (items : List Item) : Prop :=
  ∀ placed ∈ placedRulesOfAll false items, placed.framed = true →
    placed.rule.declarations ≠ [] → ∀ frame ∈ placed.rule.selectors, isUsed frame = true

/-- What is left is read as the pruned items exactly when no frame counts as unused. -/
theorem readBackAll_usedItems_eq_iff
    (isUsed : String → Bool)
    (items : List Item) :
    readBackAll (usedItems isUsed items) = readBackAll (prunedItems isUsed items) ↔
      FramesAreUsed isUsed items := by
  have keepsLess : ∀ (framed : Bool) selector, isUsed selector = true →
      (framed || isUsed selector) = true := by
    intro framed selector used
    rw [used, Bool.or_true]
  rw [readBackAll_usedItems_of_forall fun item _ => readBackAll_usedItem false item, prunedItems,
    Css.readBackAll_restrictAll, Css.readBackAll_restrictAll,
    Css.flatMap_eq_flatMap_iff fun item _ =>
      Item.length_readBack_restrict_le keepsLess false item,
    FramesAreUsed, Css.placedRulesOfAll_eq_flatMap, List.forall_mem_flatMap]
  refine forall₂_congr fun item _ => ?_
  rw [Item.readBack_restrict_eq_iff keepsLess]
  refine forall₂_congr fun placed _ => ?_
  cases placed.framed with
  | true => simp [List.filter_eq_self]
  | false => simp

/-- What is written of a sheet that was read, its texts closed, is read as what is left of it. -/
theorem read_write_usedItems
    {isUsed : String → Bool}
    {css : String}
    (closed : AllMeet closedThroughout (Css.Sheet.read css).items)
    (start : AllMeet (plainStartLeft isUsed) (Css.Sheet.read css).items) :
    Css.Sheet.read (Css.Sheet.write ⟨usedItems isUsed (Css.Sheet.read css).items⟩) =
      ⟨readBackAll (usedItems isUsed (Css.Sheet.read css).items)⟩ := by
  have shaped := Css.allMeet_read css
  refine Css.read_write_of_restorable (restorable_usedItems_of_forall fun item member => ?_)
  exact restorable_usedItem (allMeet_iff.mp shaped item member)
    (allMeet_iff.mp closed item member) (allMeet_iff.mp start item member)

end Style
end MailPress
