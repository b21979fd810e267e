import MailPress.Proofs.Css.Rule

/-!
# Items of style sheets

Items are nested, so facts about them are proved by an induction that gives, for a
group, the fact for every item in it. A demand on items says what it asks of a
rule, a statement, a group and a block of declarations, and is met by an item when
everything inside meets it.
-/

namespace MailPress
namespace Css

/-- Induction over an item and the items inside it. -/
@[elab_as_elim, induction_eliminator]
theorem Item.induction
    {motive : Item → Prop}
    (rule : ∀ rule, motive (.rule rule))
    (statement : ∀ name prelude, motive (.statement name prelude))
    (group : ∀ name prelude items, (∀ item ∈ items, motive item) →
      motive (.group name prelude items))
    (descriptors : ∀ name prelude declarations, motive (.descriptors name prelude declarations)) :
    ∀ item, motive item
  | .rule r => rule r
  | .statement name prelude => statement name prelude
  | .group name prelude items =>
      group name prelude items fun item _ =>
        induction rule statement group descriptors item
  | .descriptors name prelude declarations => descriptors name prelude declarations

/-- What is asked of each kind of item, the items inside a group left aside. -/
structure Demand where
  /-- What is asked of a rule. -/
  rule : Rule → Prop
  /-- What is asked of a statement. -/
  statement : (name prelude : String) → Prop
  /-- What is asked of a group. -/
  group : (name prelude : String) → List Item → Prop
  /-- What is asked of an at-rule around declarations. -/
  descriptors : (name prelude : String) → List Declaration → Prop

mutual

/-- Whether an item and all items inside it meet a demand. -/
def Item.Meets (demand : Demand) : Item → Prop
  | .rule rule => demand.rule rule
  | .statement name prelude => demand.statement name prelude
  | .group name prelude items => demand.group name prelude items ∧ AllMeet demand items
  | .descriptors name prelude declarations => demand.descriptors name prelude declarations

/-- Whether all items of a list meet a demand. -/
def AllMeet (demand : Demand) : List Item → Prop
  | [] => True
  | item :: items => item.Meets demand ∧ AllMeet demand items

end

theorem allMeet_iff
    {demand : Demand}
    {items : List Item} :
    AllMeet demand items ↔ ∀ item ∈ items, item.Meets demand := by
  induction items with
  | nil => simp [AllMeet]
  | cons item items inductionHypothesis => simp [AllMeet, inductionHypothesis]

/-- A demand that can be checked. -/
class Demand.IsDecidable (demand : Demand) where
  rule : ∀ rule, Decidable (demand.rule rule)
  statement : ∀ name prelude, Decidable (demand.statement name prelude)
  group : ∀ name prelude items, Decidable (demand.group name prelude items)
  descriptors : ∀ name prelude declarations,
    Decidable (demand.descriptors name prelude declarations)

mutual

/-- Check an item. -/
def decidableMeets (demand : Demand) [checks : demand.IsDecidable] :
    (item : Item) → Decidable (item.Meets demand)
  | .rule rule => checks.rule rule
  | .statement name prelude => checks.statement name prelude
  | .group name prelude items =>
      have := checks.group name prelude items
      have := decidableAllMeet demand items
      inferInstanceAs (Decidable (_ ∧ _))
  | .descriptors name prelude declarations => checks.descriptors name prelude declarations

/-- Check the items of a list. -/
def decidableAllMeet (demand : Demand) [checks : demand.IsDecidable] :
    (items : List Item) → Decidable (AllMeet demand items)
  | [] => .isTrue trivial
  | item :: items =>
      have := decidableMeets demand item
      have := decidableAllMeet demand items
      inferInstanceAs (Decidable (_ ∧ _))

end

instance (demand : Demand) [demand.IsDecidable] (items : List Item) :
    Decidable (AllMeet demand items) :=
  decidableAllMeet demand items

/-- One demand follows from two others together. -/
structure Demand.FollowsFrom (demand first second : Demand) : Prop where
  rule {rule : Rule} (firstMet : first.rule rule) (secondMet : second.rule rule) :
    demand.rule rule
  statement {name prelude : String} (firstMet : first.statement name prelude)
    (secondMet : second.statement name prelude) : demand.statement name prelude
  group {name prelude : String} {items : List Item} (firstMet : first.group name prelude items)
    (secondMet : second.group name prelude items) : demand.group name prelude items
  descriptors {name prelude : String} {declarations : List Declaration}
    (firstMet : first.descriptors name prelude declarations)
    (secondMet : second.descriptors name prelude declarations) :
    demand.descriptors name prelude declarations

theorem Item.Meets.of_both
    {demand first second : Demand}
    (follows : demand.FollowsFrom first second)
    {item : Item}
    (firstMet : item.Meets first)
    (secondMet : item.Meets second) :
    item.Meets demand := by
  induction item with
  | rule rule => exact follows.rule firstMet secondMet
  | statement name prelude => exact follows.statement firstMet secondMet
  | group name prelude items inductionHypothesis =>
      refine ⟨follows.group firstMet.1 secondMet.1, allMeet_iff.mpr fun item member => ?_⟩
      exact inductionHypothesis item member (allMeet_iff.mp firstMet.2 item member)
        (allMeet_iff.mp secondMet.2 item member)
  | descriptors name prelude declarations => exact follows.descriptors firstMet secondMet

/-- Two demands at once. -/
def Demand.both (first second : Demand) : Demand where
  rule rule := first.rule rule ∧ second.rule rule
  statement name prelude := first.statement name prelude ∧ second.statement name prelude
  group name prelude items := first.group name prelude items ∧ second.group name prelude items
  descriptors name prelude declarations :=
    first.descriptors name prelude declarations ∧ second.descriptors name prelude declarations

theorem Demand.both_followsFrom (first second : Demand) :
    (first.both second).FollowsFrom first second where
  rule firstMet secondMet := ⟨firstMet, secondMet⟩
  statement firstMet secondMet := ⟨firstMet, secondMet⟩
  group firstMet secondMet := ⟨firstMet, secondMet⟩
  descriptors firstMet secondMet := ⟨firstMet, secondMet⟩

theorem AllMeet.of_both
    {demand first second : Demand}
    (follows : demand.FollowsFrom first second)
    {items : List Item}
    (firstMet : AllMeet first items)
    (secondMet : AllMeet second items) :
    AllMeet demand items :=
  allMeet_iff.mpr fun item member =>
    .of_both follows (allMeet_iff.mp firstMet item member) (allMeet_iff.mp secondMet item member)

theorem AllMeet.filter
    {demand : Demand}
    {items : List Item}
    (met : AllMeet demand items)
    (keep : Item → Bool) :
    AllMeet demand (items.filter keep) :=
  allMeet_iff.mpr fun item member => allMeet_iff.mp met item (List.mem_of_mem_filter member)

/-! ## What is read back -/

mutual

/-- What is read back of an item: its texts in their written forms, and nothing of a rule or
a group without content. -/
def Item.readBack : Item → List Item
  | .rule rule =>
      if rule.declarations.isEmpty || rule.selectors.isEmpty then [] else [.rule rule.minified]
  | .statement name prelude => [.statement name (minifyPrelude prelude)]
  | .group name prelude items =>
      if (readBackAll items).isEmpty then []
      else [.group name (minifyPrelude prelude) (readBackAll items)]
  | .descriptors name prelude declarations =>
      [.descriptors name (minifyPrelude prelude) (declarations.map Declaration.minified)]

/-- What is read back of the items of a list. -/
def readBackAll : List Item → List Item
  | [] => []
  | item :: items => item.readBack ++ readBackAll items

end

theorem readBackAll_eq_flatMap (items : List Item) :
    readBackAll items = items.flatMap Item.readBack := by
  induction items with
  | nil => rfl
  | cons item items inductionHypothesis =>
      rw [readBackAll, inductionHypothesis, List.flatMap_cons]

theorem toList_writeItems (items : List Item) :
    (writeItems items).toList = items.flatMap (·.write.toList) := by
  induction items with
  | nil => rfl
  | cons item items inductionHypothesis =>
      rw [writeItems, String.toList_append, inductionHypothesis, List.flatMap_cons]

theorem Item.readBack_group (name prelude : String) (items : List Item) :
    (Item.group name prelude items).readBack =
      if (readBackAll items).isEmpty then []
      else [.group name (minifyPrelude prelude) (readBackAll items)] := by
  rw [readBack]

/-- The items of a list are written exactly when some of them are read back, if that holds of
each. -/
theorem isEmpty_writeItems_of_forall
    {items : List Item}
    (same : ∀ item ∈ items, item.write.toList = [] ↔ item.readBack = []) :
    (writeItems items).isEmpty = (readBackAll items).isEmpty := by
  rw [Bool.eq_iff_iff, String.isEmpty_iff, List.isEmpty_iff, ← String.toList_eq_nil_iff,
    toList_writeItems, readBackAll_eq_flatMap, List.flatMap_eq_nil_iff, List.flatMap_eq_nil_iff]
  exact forall₂_congr same

/-- Nothing is read back of exactly the items that are not written. -/
theorem Item.write_eq_nil_iff (item : Item) : item.write.toList = [] ↔ item.readBack = [] := by
  induction item with
  | rule rule =>
      rw [write, Rule.write, readBack]
      split <;> simp [writeBlock]
  | statement name prelude => simp [write, readBack]
  | group name prelude items inductionHypothesis =>
      have inner := isEmpty_writeItems_of_forall inductionHypothesis
      rw [write, readBack_group, inner]
      split <;> simp
  | descriptors name prelude declarations => simp [write, readBack, writeBlock]

theorem isEmpty_writeItems (items : List Item) :
    (writeItems items).isEmpty = (readBackAll items).isEmpty :=
  isEmpty_writeItems_of_forall fun item _ => item.write_eq_nil_iff

/-! ## Pieces and nesting -/

mutual

/-- The pieces that an item is nested from. -/
def Item.pieces : Item → List Piece
  | .rule rule => [.whole (.rule rule)]
  | .statement name prelude => [.whole (.statement name prelude)]
  | .group name prelude items => .opening name prelude :: (allPieces items ++ [.closing])
  | .descriptors name prelude declarations => [.whole (.descriptors name prelude declarations)]

/-- The pieces that the items of a list are nested from. -/
def allPieces : List Item → List Piece
  | [] => []
  | item :: items => item.pieces ++ allPieces items

end

theorem allPieces_append (first second : List Item) :
    allPieces (first ++ second) = allPieces first ++ allPieces second := by
  induction first with
  | nil => rfl
  | cons item items inductionHypothesis =>
      rw [List.cons_append, allPieces, allPieces, inductionHypothesis, List.append_assoc]

/-- Nesting the pieces of the items of a list adds the items, if that holds of each. -/
theorem nest_allPieces_of_forall
    {items : List Item}
    (each : ∀ item ∈ items, ∀ groups before rest,
      nest groups before (item.pieces ++ rest) = nest groups (before ++ [item]) rest)
    (groups : List OpenGroup)
    (before : List Item)
    (rest : List Piece) :
    nest groups before (allPieces items ++ rest) = nest groups (before ++ items) rest := by
  induction items generalizing before with
  | nil => rw [allPieces, List.nil_append, List.append_nil]
  | cons item items inductionHypothesis =>
      obtain ⟨first, others⟩ := List.forall_mem_cons.mp each
      rw [allPieces, List.append_assoc, first, inductionHypothesis others, List.append_assoc,
        List.singleton_append]

/-- Nesting the pieces of an item adds the item. -/
theorem nest_pieces
    (item : Item)
    (groups : List OpenGroup)
    (before : List Item)
    (rest : List Piece) :
    nest groups before (item.pieces ++ rest) = nest groups (before ++ [item]) rest := by
  induction item generalizing groups before rest with
  | rule rule => rfl
  | statement name prelude => rfl
  | group name prelude items inductionHypothesis =>
      have inner := nest_allPieces_of_forall inductionHypothesis (⟨name, prelude, before⟩ :: groups)
        [] (.closing :: rest)
      rw [Item.pieces, List.cons_append, nest, List.append_assoc, List.singleton_append, inner]
      rfl
  | descriptors name prelude declarations => rfl

theorem nest_allPieces
    (items : List Item)
    (groups : List OpenGroup)
    (before : List Item)
    (rest : List Piece) :
    nest groups before (allPieces items ++ rest) = nest groups (before ++ items) rest :=
  nest_allPieces_of_forall (fun item _ => nest_pieces item) groups before rest

/-!
## Rules and where they stand

The selector of a rule inside keyframes is the place of a frame, while any other selector asks
for elements. Taking selectors out of a sheet is described by what is kept of each kind. Two
ways of keeping selectors, one of which keeps less, leave the same to be read back exactly when
they keep the same selectors of every rule with declarations.
-/

/-- The at-rules whose rules are frames. -/
def keyframesNames : List String :=
  ["keyframes", "-webkit-keyframes", "-moz-keyframes"]

/-- Whether the rules inside an at-rule of this name are frames. -/
def isKeyframes (name : String) : Bool :=
  keyframesNames.contains name

/-- A rule of a sheet. -/
structure PlacedRule where
  /-- Whether the rule is a frame. -/
  framed : Bool
  /-- The rule. -/
  rule : Rule
  deriving DecidableEq

mutual

/-- The rules of an item, in order; the flag tells whether the item is part of keyframes. -/
def Item.placedRules (framed : Bool) : Item → List PlacedRule
  | .rule rule => [⟨framed, rule⟩]
  | .group name _ items => placedRulesOfAll (framed || isKeyframes name) items
  | .statement _ _ => []
  | .descriptors _ _ _ => []

/-- The rules of the items of a list, in order. -/
def placedRulesOfAll (framed : Bool) : List Item → List PlacedRule
  | [] => []
  | item :: items => item.placedRules framed ++ placedRulesOfAll framed items

end

theorem placedRulesOfAll_eq_flatMap
    (framed : Bool)
    (items : List Item) :
    placedRulesOfAll framed items = items.flatMap (·.placedRules framed) := by
  induction items with
  | nil => rfl
  | cons item items inductionHypothesis =>
      rw [placedRulesOfAll, inductionHypothesis, List.flatMap_cons]

mutual

/-- The item with those selectors only that are kept, for frames and for other rules. -/
def Item.restrict (keeps : Bool → String → Bool) (framed : Bool) : Item → Item
  | .rule rule => .rule { rule with selectors := rule.selectors.filter (keeps framed) }
  | .group name prelude items =>
      .group name prelude (restrictAll keeps (framed || isKeyframes name) items)
  | .statement name prelude => .statement name prelude
  | .descriptors name prelude declarations => .descriptors name prelude declarations

/-- The items of a list with those selectors only that are kept. -/
def restrictAll (keeps : Bool → String → Bool) (framed : Bool) : List Item → List Item
  | [] => []
  | item :: items => item.restrict keeps framed :: restrictAll keeps framed items

end

theorem restrictAll_eq_map
    (keeps : Bool → String → Bool)
    (framed : Bool)
    (items : List Item) :
    restrictAll keeps framed items = items.map (·.restrict keeps framed) := by
  induction items with
  | nil => rfl
  | cons item items inductionHypothesis =>
      rw [restrictAll, inductionHypothesis, List.map_cons]

theorem readBackAll_restrictAll
    (keeps : Bool → String → Bool)
    (framed : Bool)
    (items : List Item) :
    readBackAll (restrictAll keeps framed items) =
      items.flatMap fun item => (item.restrict keeps framed).readBack := by
  rw [readBackAll_eq_flatMap, restrictAll_eq_map, List.flatMap_map]

/-! ### Joined lists -/

theorem length_flatMap_le
    {α β : Type}
    {items : List α}
    {first second : α → List β}
    (shorter : ∀ item ∈ items, (first item).length ≤ (second item).length) :
    (items.flatMap first).length ≤ (items.flatMap second).length := by
  induction items with
  | nil => simp
  | cons item items inductionHypothesis =>
      obtain ⟨here, others⟩ := List.forall_mem_cons.mp shorter
      have rest := inductionHypothesis others
      simp only [List.flatMap_cons, List.length_append]
      omega

/-- Lists that are joined from parts, the parts of one no longer than those of the other, are
equal exactly when the parts are. -/
theorem flatMap_eq_flatMap_iff
    {α β : Type}
    {items : List α}
    {first second : α → List β}
    (shorter : ∀ item ∈ items, (first item).length ≤ (second item).length) :
    items.flatMap first = items.flatMap second ↔ ∀ item ∈ items, first item = second item := by
  refine ⟨fun same => ?_, List.flatMap_congr⟩
  induction items with
  | nil => simp
  | cons item items inductionHypothesis =>
      obtain ⟨here, others⟩ := List.forall_mem_cons.mp shorter
      have rest := length_flatMap_le others
      have lengths := congrArg List.length same
      simp only [List.flatMap_cons, List.length_append] at same lengths
      obtain ⟨sameHere, sameRest⟩ := List.append_inj same (by omega)
      exact List.forall_mem_cons.mpr ⟨sameHere, inductionHypothesis others sameRest⟩

/-! ### Comparing two ways of keeping -/

namespace Item

theorem readBack_rule_eq_nil_iff
    {rule : Rule} :
    (Item.rule rule).readBack = [] ↔ rule.declarations = [] ∨ rule.selectors = [] := by
  rw [readBack]
  split <;> simp_all

theorem readBack_group_eq_nil_iff
    {name prelude : String}
    {items : List Item} :
    (Item.group name prelude items).readBack = [] ↔ readBackAll items = [] := by
  rw [readBack_group]
  split <;> simp_all

/-- Of an item at most one item is read back. -/
theorem length_readBack_le
    {first second : Item}
    (nothing : second.readBack = [] → first.readBack = []) :
    first.readBack.length ≤ second.readBack.length := by
  have atMostOne : first.readBack.length ≤ 1 := by
    cases first with
    | rule rule => rw [readBack]; split <;> simp
    | statement name prelude => simp [readBack]
    | group name prelude items => rw [readBack_group]; split <;> simp
    | descriptors name prelude declarations => simp [readBack]
  cases left : second.readBack with
  | nil => simp [nothing left]
  | cons item items => exact Nat.le_trans atMostOne (Nat.le_add_left 1 items.length)

section Comparison

variable {less more : Bool → String → Bool}

/-- Where more is kept, more is read back. -/
theorem length_readBack_restrict_le
    (keepsLess : ∀ framed selector, less framed selector = true → more framed selector = true)
    (framed : Bool)
    (item : Item) :
    (item.restrict less framed).readBack.length ≤
      (item.restrict more framed).readBack.length := by
  apply length_readBack_le
  induction item generalizing framed with
  | rule rule =>
      rw [restrict, restrict, readBack_rule_eq_nil_iff, readBack_rule_eq_nil_iff]
      refine Or.imp_right fun nothing => ?_
      have kept := List.monotone_filter_right rule.selectors (keepsLess framed)
      dsimp only at nothing ⊢
      rw [nothing] at kept
      exact List.sublist_nil.mp kept
  | statement name prelude => exact id
  | group name prelude items inductionHypothesis =>
      rw [restrict, restrict, readBack_group_eq_nil_iff, readBack_group_eq_nil_iff,
        readBackAll_restrictAll, readBackAll_restrictAll, List.flatMap_eq_nil_iff,
        List.flatMap_eq_nil_iff]
      exact fun nothing item member => inductionHypothesis item member _ (nothing item member)
  | descriptors name prelude declarations => exact id

/-- The same is read back of a rule exactly when it has no declarations or the same selectors
are kept. -/
theorem readBack_restrict_rule_eq_iff
    (keepsLess : ∀ framed selector, less framed selector = true → more framed selector = true)
    (framed : Bool)
    (rule : Rule) :
    ((Item.rule rule).restrict less framed).readBack =
        ((Item.rule rule).restrict more framed).readBack ↔
      (rule.declarations ≠ [] →
        rule.selectors.filter (less framed) = rule.selectors.filter (more framed)) := by
  have kept := List.monotone_filter_right rule.selectors (keepsLess framed)
  rw [restrict, restrict, readBack, readBack]
  constructor
  · intro same present
    have nonempty : rule.declarations.isEmpty = false := by simpa using present
    simp only [nonempty, Bool.false_or, List.isEmpty_iff] at same
    refine kept.eq_of_length ?_
    split at same
    · next lessNone =>
        split at same
        · next moreNone => rw [lessNone, moreNone]
        · cases same
    · split at same
      · cases same
      · have written := congrArg Rule.selectors (Item.rule.inj (List.singleton_inj.mp same))
        simpa [Rule.minified] using congrArg List.length written
  · intro same
    by_cases present : rule.declarations = []
    · simp [present]
    · rw [same present]

/-- The same is read back of an item exactly when the same selectors are kept of every rule with
declarations. -/
theorem readBack_restrict_eq_iff
    (keepsLess : ∀ framed selector, less framed selector = true → more framed selector = true)
    (framed : Bool)
    (item : Item) :
    (item.restrict less framed).readBack = (item.restrict more framed).readBack ↔
      ∀ placed ∈ item.placedRules framed, placed.rule.declarations ≠ [] →
        placed.rule.selectors.filter (less placed.framed) =
          placed.rule.selectors.filter (more placed.framed) := by
  induction item generalizing framed with
  | rule rule =>
      rw [placedRules, List.forall_mem_singleton]
      exact readBack_restrict_rule_eq_iff keepsLess framed rule
  | statement name prelude => simp [restrict, placedRules]
  | group name prelude items inductionHypothesis =>
      have inner : readBackAll (restrictAll less (framed || isKeyframes name) items) =
          readBackAll (restrictAll more (framed || isKeyframes name) items) ↔
          ∀ placed ∈ placedRulesOfAll (framed || isKeyframes name) items,
            placed.rule.declarations ≠ [] →
              placed.rule.selectors.filter (less placed.framed) =
                placed.rule.selectors.filter (more placed.framed) := by
        rw [readBackAll_restrictAll, readBackAll_restrictAll, flatMap_eq_flatMap_iff fun item _ =>
          length_readBack_restrict_le keepsLess _ item, placedRulesOfAll_eq_flatMap,
          List.forall_mem_flatMap]
        exact forall₂_congr fun item member => inductionHypothesis item member _
      rw [placedRules, ← inner, restrict, restrict, readBack_group, readBack_group]
      constructor
      · intro same
        simp only [List.isEmpty_iff] at same
        split at same
        · next lessNone =>
            split at same
            · next moreNone => rw [lessNone, moreNone]
            · cases same
        · split at same
          · cases same
          · exact (Item.group.inj (List.singleton_inj.mp same)).2.2
      · intro same
        rw [same]
  | descriptors name prelude declarations => simp [restrict, placedRules]

end Comparison

end Item

end Css
end MailPress
