import Mathlib.Data.List.Induction
import Mathlib.Data.Prod.Lex
import MailPress.Style.Cascade
import MailPress.Style.Inline

/-!
# Resolving candidates

Ranks are compared lexicographically: importance, origin, weight, position. To
resolve is to sort by rank and to assign in that order, so a property takes the
value of its greatest candidate but the place of its least one.

The second half of that sentence is what decides in which order two properties
are written.
-/

namespace MailPress
namespace Css

/-- The three counts of a weight, compared one after another. -/
def Specificity.key (specificity : Specificity) : Nat ×ₗ Nat ×ₗ Nat :=
  toLex (specificity.ids, toLex (specificity.classes, specificity.types))

theorem Specificity.key_injective : Function.Injective Specificity.key := by
  rintro ⟨ids, classes, types⟩ ⟨ids', classes', types'⟩ same
  simpa [Specificity.key] using same

/-- Weights are compared lexicographically. -/
theorem Specificity.le_iff_key_le (first second : Specificity) :
    first.le second = true ↔ first.key ≤ second.key := by
  unfold Specificity.le Specificity.key
  simp only [Prod.Lex.toLex_le_toLex]
  split
  · simp; omega
  · split
    · simp; omega
    · simp; omega

end Css

namespace Style

/-- What a rank compares, in the order in which it is compared. -/
def Rank.key (rank : Rank) : Bool ×ₗ Bool ×ₗ (Nat ×ₗ Nat ×ₗ Nat) ×ₗ Nat :=
  toLex (rank.important, toLex (rank.own, toLex (rank.specificity.key, rank.position)))

/-- A choice by two flags that differ is a lexicographic comparison of the flags. -/
theorem ite_ne_iff_lex (first second : Bool) (rest : Prop) [Decidable rest] :
    (if first ≠ second then second = true else rest) ↔
      first < second ∨ first = second ∧ rest := by
  cases first <;> cases second <;> simp

/-- Ranks are compared lexicographically. -/
theorem Rank.le_iff_key_le (first second : Rank) :
    first.le second = true ↔ first.key ≤ second.key := by
  have weights : (if first.specificity ≠ second.specificity then
        first.specificity.le second.specificity = true
      else first.position ≤ second.position) ↔
      first.specificity.key < second.specificity.key ∨
        first.specificity.key = second.specificity.key ∧ first.position ≤ second.position := by
    by_cases same : first.specificity = second.specificity
    · simp [same]
    · have keys : first.specificity.key ≠ second.specificity.key :=
        fun equal => same (Css.Specificity.key_injective equal)
      simp [same, keys, Css.Specificity.le_iff_key_le, le_iff_lt_or_eq]
  unfold Rank.le Rank.key
  simp only [Prod.Lex.toLex_le_toLex, ← weights, ← ite_ne_iff_lex]
  split
  · rfl
  · split
    · rfl
    · split <;> simp

theorem Rank.key_injective : Function.Injective Rank.key := by
  rintro ⟨important, own, specificity, position⟩ ⟨important', own', specificity', position'⟩ same
  simp only [Rank.key, EmbeddingLike.apply_eq_iff_eq, Prod.mk.injEq] at same
  obtain ⟨rfl, rfl, weight, rfl⟩ := same
  rw [Css.Specificity.key_injective weight]

/-- The candidates in the order of their ranks. -/
def ranked (candidates : List Candidate) : List Candidate :=
  candidates.mergeSort fun first second => first.rank.le second.rank

theorem mem_ranked
    {candidates : List Candidate}
    {candidate : Candidate} :
    candidate ∈ ranked candidates ↔ candidate ∈ candidates :=
  (List.mergeSort_perm ..).mem_iff

theorem pairwise_ranked (candidates : List Candidate) :
    (ranked candidates).Pairwise fun first second => first.rank.key ≤ second.rank.key := by
  have transitive (first second third : Candidate)
      (below : first.rank.le second.rank = true)
      (above : second.rank.le third.rank = true) :
      first.rank.le third.rank = true := by
    rw [Rank.le_iff_key_le] at *
    exact below.trans above
  have total (first second : Candidate) :
      (first.rank.le second.rank || second.rank.le first.rank) = true := by
    simpa [Rank.le_iff_key_le] using le_total first.rank.key second.rank.key
  have sorted := List.pairwise_mergeSort transitive total candidates
  exact sorted.imp fun below => (Rank.le_iff_key_le ..).mp below

/-- Assign the candidates of a list one after another. -/
def assignAll (candidates : List Candidate) : List (String × String) :=
  candidates.foldl
    (fun resolved candidate => assign candidate.property candidate.value resolved) []

theorem resolve_eq_assignAll (candidates : List Candidate) :
    resolve candidates = assignAll (ranked candidates) := rfl

theorem assignAll_append_singleton
    (candidates : List Candidate)
    (candidate : Candidate) :
    assignAll (candidates ++ [candidate]) =
      assign candidate.property candidate.value (assignAll candidates) := by
  simp [assignAll]

/-- An assignment keeps the order of the properties; a new one comes last. -/
theorem map_fst_assign
    (property value : String)
    (resolved : List (String × String)) :
    (assign property value resolved).map Prod.fst =
      if property ∈ resolved.map Prod.fst then resolved.map Prod.fst
      else resolved.map Prod.fst ++ [property] := by
  induction resolved with
  | nil => rfl
  | cons first rest inductionHypothesis =>
      obtain ⟨other, old⟩ := first
      by_cases same : other = property
      · simp [assign, same]
      · have different : property ≠ other := Ne.symm same
        simp only [assign, same, if_false, List.map_cons, inductionHypothesis, List.mem_cons,
          different, false_or]
        split <;> rfl

/-- After an assignment the property has the new value, and the others keep theirs. -/
theorem mem_assign_iff
    {property value : String}
    {resolved : List (String × String)}
    (nodup : (resolved.map Prod.fst).Nodup)
    (pair : String × String) :
    pair ∈ assign property value resolved ↔
      pair = (property, value) ∨ (pair.1 ≠ property ∧ pair ∈ resolved) := by
  induction resolved with
  | nil => simp [assign]
  | cons first rest inductionHypothesis =>
      obtain ⟨other, old⟩ := first
      obtain ⟨absent, restNodup⟩ := List.nodup_cons.mp nodup
      by_cases same : other = property
      · subst same
        simp only [assign, if_true, List.mem_cons]
        constructor
        · rintro (rfl | member)
          · exact Or.inl rfl
          · refine Or.inr ⟨?_, Or.inr member⟩
            intro same
            have present := List.mem_map_of_mem (f := Prod.fst) member
            exact absent (same ▸ present)
        · rintro (rfl | ⟨different, rfl | member⟩)
          · exact Or.inl rfl
          · exact absurd rfl different
          · exact Or.inr member
      · simp only [assign, same, if_false, List.mem_cons, inductionHypothesis restNodup]
        constructor
        · rintro (rfl | rfl | ⟨different, member⟩)
          · exact Or.inr ⟨same, Or.inl rfl⟩
          · exact Or.inl rfl
          · exact Or.inr ⟨different, Or.inr member⟩
        · rintro (rfl | ⟨different, rfl | member⟩)
          · exact Or.inr (Or.inl rfl)
          · exact Or.inl rfl
          · exact Or.inr (Or.inr ⟨different, member⟩)

theorem nodup_map_fst_assignAll (candidates : List Candidate) :
    ((assignAll candidates).map Prod.fst).Nodup := by
  induction candidates using List.reverseRecOn with
  | nil => exact List.nodup_nil
  | append_singleton candidates candidate inductionHypothesis =>
      rw [assignAll_append_singleton, map_fst_assign]
      split
      · exact inductionHypothesis
      · next absent =>
          exact List.nodup_append.mpr ⟨inductionHypothesis, List.pairwise_singleton _ _, by
            rintro present member last lastMember rfl
            rw [List.mem_singleton.mp lastMember] at member
            exact absent member⟩

/-- Exactly the properties of the candidates are assigned. -/
theorem mem_map_fst_assignAll
    {candidates : List Candidate}
    {property : String} :
    property ∈ (assignAll candidates).map Prod.fst ↔
      property ∈ candidates.map Candidate.property := by
  induction candidates using List.reverseRecOn with
  | nil => exact Iff.rfl
  | append_singleton candidates candidate inductionHypothesis =>
      rw [assignAll_append_singleton, map_fst_assign, List.map_append, List.mem_append,
        ← inductionHypothesis]
      split
      · next present =>
          constructor
          · exact Or.inl
          · rintro (member | member)
            · exact member
            · simp only [List.map_cons, List.map_nil, List.mem_singleton] at member
              exact member ▸ present
      · simp

/-- The value of a property is that of a candidate after which the property does not
come up again. -/
theorem exists_last_of_mem_assignAll
    {candidates : List Candidate}
    {pair : String × String}
    (member : pair ∈ assignAll candidates) :
    ∃ before candidate after, candidates = before ++ candidate :: after ∧
      pair = (candidate.property, candidate.value) ∧
      ∀ later ∈ after, later.property ≠ candidate.property := by
  induction candidates using List.reverseRecOn with
  | nil => cases member
  | append_singleton candidates last inductionHypothesis =>
      rw [assignAll_append_singleton,
        mem_assign_iff (nodup_map_fst_assignAll candidates)] at member
      rcases member with rfl | ⟨different, member⟩
      · exact ⟨candidates, last, [], rfl, rfl, by simp⟩
      · obtain ⟨before, candidate, after, rfl, rfl, later⟩ := inductionHypothesis member
        refine ⟨before, candidate, after ++ [last], by simp, rfl, ?_⟩
        intro other otherMember
        rcases List.mem_append.mp otherMember with inAfter | isLast
        · exact later other inAfter
        · rw [List.mem_singleton.mp isLast]
          exact Ne.symm different

/-- Of two properties that come up, the one that comes up first is assigned first. -/
theorem idxOf_lt_idxOf_assignAll_iff
    {candidates : List Candidate}
    {first second : String}
    (firstMember : first ∈ candidates.map Candidate.property) :
    ((assignAll candidates).map Prod.fst).idxOf first <
        ((assignAll candidates).map Prod.fst).idxOf second ↔
      (candidates.map Candidate.property).idxOf first <
        (candidates.map Candidate.property).idxOf second := by
  induction candidates using List.reverseRecOn with
  | nil => cases firstMember
  | append_singleton candidates last inductionHypothesis =>
      have sameMembers (property : String) :
          property ∈ (assignAll candidates).map Prod.fst ↔
            property ∈ candidates.map Candidate.property :=
        mem_map_fst_assignAll
      rw [assignAll_append_singleton, map_fst_assign, List.map_append] at *
      -- A property that has not come up has its index at or behind the end of both lists.
      split <;> grind [List.idxOf_lt_length_iff, List.idxOf_eq_length]

/-- The value that a property resolves to is that of its greatest candidate. -/
theorem exists_greatest_of_mem_resolve
    {candidates : List Candidate}
    {pair : String × String}
    (member : pair ∈ resolve candidates) :
    ∃ winner ∈ candidates, pair = (winner.property, winner.value) ∧
      ∀ other ∈ candidates, other.property = winner.property →
        other.rank.key ≤ winner.rank.key := by
  rw [resolve_eq_assignAll] at member
  obtain ⟨before, winner, after, split, pair_eq, later⟩ := exists_last_of_mem_assignAll member
  have sorted := pairwise_ranked candidates
  rw [split] at sorted
  refine ⟨winner, mem_ranked.mp (split ▸ by simp), pair_eq, ?_⟩
  intro other otherMember sameProperty
  have inRanked := mem_ranked.mpr otherMember
  rw [split, List.mem_append, List.mem_cons] at inRanked
  rcases inRanked with inBefore | rfl | inAfter
  · exact (List.pairwise_append.mp sorted).2.2 other inBefore winner (by simp)
  · exact le_refl _
  · exact absurd sameProperty (later other inAfter)

/-- Exactly the properties of the candidates resolve to something. -/
theorem mem_map_fst_resolve
    {candidates : List Candidate}
    {property : String} :
    property ∈ (resolve candidates).map Prod.fst ↔
      ∃ candidate ∈ candidates, candidate.property = property := by
  rw [resolve_eq_assignAll, mem_map_fst_assignAll, List.mem_map]
  simp only [mem_ranked]

theorem nodup_map_fst_resolve (candidates : List Candidate) :
    ((resolve candidates).map Prod.fst).Nodup :=
  nodup_map_fst_assignAll _

/-- A property is written before another one when it owns a candidate below all candidates
of the other. -/
theorem idxOf_lt_idxOf_resolve
    {candidates : List Candidate}
    {lowest : Candidate}
    {other : String}
    (member : lowest ∈ candidates)
    (different : other ≠ lowest.property)
    (below : ∀ candidate ∈ candidates, candidate.property = other →
      lowest.rank.key < candidate.rank.key) :
    ((resolve candidates).map Prod.fst).idxOf lowest.property <
      ((resolve candidates).map Prod.fst).idxOf other := by
  have inRanked := mem_ranked.mpr member
  rw [resolve_eq_assignAll, idxOf_lt_idxOf_assignAll_iff (List.mem_map_of_mem inRanked)]
  obtain ⟨before, after, split⟩ := List.append_of_mem inRanked
  have sorted := pairwise_ranked candidates
  rw [split] at sorted
  have notBefore : other ∉ before.map Candidate.property := by
    intro present
    obtain ⟨candidate, inBefore, rfl⟩ := List.mem_map.mp present
    have atMost := (List.pairwise_append.mp sorted).2.2 candidate inBefore lowest (by simp)
    have inCandidates : candidate ∈ candidates := mem_ranked.mp (split ▸ by simp [inBefore])
    exact absurd (below candidate inCandidates rfl) (not_lt.mpr atMost)
  have notSame : (lowest.property == other) = false := by simpa using Ne.symm different
  rw [split, List.map_append, List.map_cons, List.idxOf_append, List.idxOf_append,
    if_neg notBefore, List.idxOf_cons, List.idxOf_cons, notSame]
  by_cases earlier : lowest.property ∈ before.map Candidate.property
  · have bound := List.idxOf_lt_length_of_mem earlier
    simp only [earlier, if_true, cond_false]
    omega
  · simp [earlier]

/-!
## Who contends for an element

What a style sheet offers is read off its top-level rules: each selector that is
understood, with each declaration of its rule, in source order. The place in
this list is the source position of the cascade. A declaration contends for an
element when its selector matches it, or when it stands in the `style` attribute
of the element.

The candidates that inlining collects for an element are exactly its contenders.
-/

/-- The declarations that a rule offers, each with one selector of the rule. -/
def offersOfRule (rule : Css.Rule) : List (Css.Selector × Css.Declaration) :=
  (rule.selectors.filterMap Css.Selector.read).flatMap fun selector =>
    rule.declarations.map fun declaration => (selector, declaration)

/-- The declarations that an item of a style sheet offers for inlining. -/
def offersOfItem : Css.Item → List (Css.Selector × Css.Declaration)
  | .rule rule => offersOfRule rule
  | _ => []

/-- What a style sheet offers, in source order. -/
def offers (sheet : Css.Sheet) : List (Css.Selector × Css.Declaration) :=
  sheet.items.flatMap offersOfItem

/-- A declaration of some origin as a candidate. -/
def candidateOf
    (own : Bool)
    (specificity : Css.Specificity)
    (position : Nat)
    (declaration : Css.Declaration) :
    Candidate :=
  ⟨⟨declaration.important, own, specificity, position⟩, declaration.property,
    declaration.value⟩

/-- The declarations that contend for an element, ranked by their place in the source. -/
inductive Contends
    (document : Markup.Document)
    (css : String)
    (id : Nat)
    (element : Markup.Element) : Candidate → Prop
  /-- A declaration of a rule that has a selector matching the element. -/
  | offered
      {position : Nat}
      {selector : Css.Selector}
      {declaration : Css.Declaration}
      (offer : (offers (Css.Sheet.read css))[position]? = some (selector, declaration))
      (matching : selector.matches .static document id = true) :
      Contends document css id element
        (candidateOf false selector.specificity position declaration)
  /-- A declaration of the `style` attribute. -/
  | own
      {position : Nat}
      {declaration : Css.Declaration}
      (written : (ownDeclarations element)[position]? = some declaration) :
      Contends document css id element (candidateOf true .zero position declaration)

/-- Whether a selector of a top-level rule matches an element. -/
def IsMatched
    (document : Markup.Document)
    (css : String)
    (id : Nat) :
    Prop :=
  ∃ rule, Css.Item.rule rule ∈ (Css.Sheet.read css).items ∧
    ∃ text ∈ rule.selectors, ∃ selector, Css.Selector.read text = some selector ∧
      selector.matches .static document id = true

/-- Contenders of the same rank are the same. -/
theorem Contends.eq_of_rank_eq
    {document : Markup.Document}
    {css : String}
    {id : Nat}
    {element : Markup.Element}
    {first second : Candidate}
    (firstContends : Contends document css id element first)
    (secondContends : Contends document css id element second)
    (sameRank : first.rank = second.rank) :
    first = second := by
  cases firstContends with
  | offered offer matching =>
      cases secondContends with
      | offered offer' matching' =>
          simp only [candidateOf, Rank.mk.injEq] at sameRank
          obtain ⟨_, _, _, rfl⟩ := sameRank
          cases Option.some.inj (offer.symm.trans offer')
          rfl
      | own written => cases congrArg Rank.own sameRank
  | own written =>
      cases secondContends with
      | offered offer matching => cases congrArg Rank.own sameRank
      | own written' =>
          simp only [candidateOf, Rank.mk.injEq] at sameRank
          obtain ⟨_, _, _, rfl⟩ := sameRank
          cases Option.some.inj (written.symm.trans written')
          rfl

/-- An offer at its place, as a candidate beside its selector. -/
def placedOffer
    (offer : (Css.Selector × Css.Declaration) × Nat) :
    Css.Selector × Candidate :=
  (offer.1.1, candidateOf false offer.1.1.specificity offer.2 offer.1.2)

/-- The candidates of some bringers, each beside the selector that brings it. -/
def broughtBy (bringers : List Bringer) : List (Css.Selector × Candidate) :=
  bringers.flatMap fun bringer =>
    bringer.candidates.map fun candidate => (bringer.selector, candidate)

theorem broughtBy_append (first second : List Bringer) :
    broughtBy (first ++ second) = broughtBy first ++ broughtBy second :=
  List.flatMap_append ..

theorem candidatesOf_eq_map_zipIdx
    (own : Bool)
    (specificity : Css.Specificity)
    (start : Nat)
    (declarations : List Css.Declaration) :
    candidatesOf own specificity start declarations =
      (declarations.zipIdx start).map fun (declaration, position) =>
        candidateOf own specificity position declaration := rfl

/-- The bringers of a rule bring its offers, and counting goes on behind them. -/
theorem broughtBy_bringersOfRule
    (declarations : List Css.Declaration)
    (start : Nat)
    (selectors : List String) :
    let offered := offersOfRule ⟨selectors, declarations⟩
    broughtBy (bringersOfRule declarations start selectors).1 =
        (offered.zipIdx start).map placedOffer ∧
      (bringersOfRule declarations start selectors).2 = start + offered.length := by
  induction selectors generalizing start with
  | nil => exact ⟨rfl, rfl⟩
  | cons text texts inductionHypothesis =>
      cases read : Css.Selector.read text with
      | none => simpa [bringersOfRule, offersOfRule, read] using inductionHypothesis start
      | some selector =>
          obtain ⟨brought, finish⟩ := inductionHypothesis (start + declarations.length)
          have offered_eq : offersOfRule ⟨text :: texts, declarations⟩ =
              declarations.map (fun declaration => (selector, declaration)) ++
                offersOfRule ⟨texts, declarations⟩ := by
            simp [offersOfRule, read]
          constructor
          · simp only [bringersOfRule, read, offered_eq, List.zipIdx_append, List.map_append,
              List.length_map]
            rw [← brought]
            simp [broughtBy, candidatesOf_eq_map_zipIdx, List.zipIdx_map, placedOffer,
              Function.comp_def]
          · simp only [bringersOfRule, read, offered_eq, finish, List.length_append,
              List.length_map]
            omega

/-- The bringers of a style sheet bring what it offers. -/
theorem broughtBy_bringersOf
    (start : Nat)
    (items : List Css.Item) :
    broughtBy (bringersOf start items) =
      ((items.flatMap offersOfItem).zipIdx start).map placedOffer := by
  induction items generalizing start with
  | nil => rfl
  | cons item items inductionHypothesis =>
      cases item with
      | rule rule =>
          obtain ⟨brought, finish⟩ :=
            broughtBy_bringersOfRule rule.declarations start rule.selectors
          simp only [bringersOf, broughtBy_append, brought, finish, inductionHypothesis,
            List.flatMap_cons, offersOfItem, List.zipIdx_append, List.map_append]
      | statement | group | descriptors =>
          simpa [bringersOf, offersOfItem] using inductionHypothesis start

theorem mem_offers_bringersOf
    {css : String}
    {selector : Css.Selector}
    {candidate : Candidate} :
    (selector, candidate) ∈ broughtBy (bringersOf 0 (Css.Sheet.read css).items) ↔
      ∃ position declaration,
        (offers (Css.Sheet.read css))[position]? = some (selector, declaration) ∧
          candidate = candidateOf false selector.specificity position declaration := by
  rw [broughtBy_bringersOf, List.mem_map]
  constructor
  · rintro ⟨⟨⟨selector, declaration⟩, position⟩, member, same⟩
    obtain ⟨rfl, rfl⟩ := Prod.mk.inj same
    exact ⟨position, declaration, List.mem_zipIdx_iff_getElem?.mp member, rfl⟩
  · rintro ⟨position, declaration, offer, rfl⟩
    exact ⟨((selector, declaration), position), List.mem_zipIdx_iff_getElem?.mpr offer, rfl⟩

theorem map_selector_bringersOfRule
    (declarations : List Css.Declaration)
    (start : Nat)
    (selectors : List String) :
    (bringersOfRule declarations start selectors).1.map Bringer.selector =
      selectors.filterMap Css.Selector.read := by
  induction selectors generalizing start with
  | nil => rfl
  | cons text texts inductionHypothesis =>
      cases read : Css.Selector.read text <;>
        simp [bringersOfRule, read, inductionHypothesis]

/-- The selectors of the bringers are those of top-level rules that are understood. -/
theorem mem_map_selector_bringersOf
    {items : List Css.Item}
    {start : Nat}
    {selector : Css.Selector} :
    selector ∈ (bringersOf start items).map Bringer.selector ↔
      ∃ rule, Css.Item.rule rule ∈ items ∧
        ∃ text ∈ rule.selectors, Css.Selector.read text = some selector := by
  induction items generalizing start with
  | nil => simp [bringersOf]
  | cons item items inductionHypothesis =>
      cases item with
      | rule rule =>
          simp only [bringersOf, List.map_append, List.mem_append, map_selector_bringersOfRule,
            inductionHypothesis, List.mem_filterMap, List.mem_cons, Css.Item.rule.injEq]
          constructor
          · rintro (⟨text, member, read⟩ | ⟨other, member, found⟩)
            · exact ⟨rule, Or.inl rfl, text, member, read⟩
            · exact ⟨other, Or.inr member, found⟩
          · rintro ⟨other, rfl | member, found⟩
            · exact Or.inl found
            · exact Or.inr ⟨other, member, found⟩
      | statement | group | descriptors => simpa [bringersOf] using inductionHypothesis

/-- An element is given candidates exactly when a rule matches it. -/
theorem isSome_candidatesFor?_iff
    {document : Markup.Document}
    {css : String}
    {id : Nat} :
    (candidatesFor? document (bringersOf 0 (Css.Sheet.read css).items) id).isSome ↔
      IsMatched document css id := by
  have selected : (∃ selector ∈
        (bringersOf 0 (Css.Sheet.read css).items).map Bringer.selector,
        selector.matches .static document id = true) ↔ IsMatched document css id := by
    simp only [mem_map_selector_bringersOf, IsMatched]
    constructor
    · rintro ⟨selector, ⟨rule, member, text, textMember, read⟩, matching⟩
      exact ⟨rule, member, text, textMember, selector, read, matching⟩
    · rintro ⟨rule, member, text, textMember, selector, read, matching⟩
      exact ⟨selector, ⟨rule, member, text, textMember, read⟩, matching⟩
  rw [← selected]
  simp [candidatesFor?, List.isEmpty_iff, List.filter_eq_nil_iff]

/-- The candidates collected for an element, its own included, are its contenders. -/
theorem mem_candidates_iff_contends
    {document : Markup.Document}
    {css : String}
    {id : Nat}
    {element : Markup.Element}
    {candidates : List Candidate}
    (collected :
      candidatesFor? document (bringersOf 0 (Css.Sheet.read css).items) id = some candidates)
    (candidate : Candidate) :
    candidate ∈ candidates ++ ownCandidates element ↔
      Contends document css id element candidate := by
  have brought : candidate ∈ candidates ↔
      ∃ selector, (selector, candidate) ∈
          broughtBy (bringersOf 0 (Css.Sheet.read css).items) ∧
        selector.matches .static document id = true := by
    unfold candidatesFor? at collected
    dsimp only at collected
    split at collected
    · cases collected
    · cases collected
      simp only [broughtBy, List.mem_flatMap, List.mem_filter, List.mem_map, Prod.mk.injEq]
      constructor
      · rintro ⟨bringer, ⟨member, matching⟩, inBringer⟩
        exact ⟨bringer.selector, ⟨bringer, member, candidate, inBringer, rfl, rfl⟩, matching⟩
      · rintro ⟨_, ⟨bringer, member, _, inBringer, rfl, rfl⟩, matching⟩
        exact ⟨bringer, ⟨member, matching⟩, inBringer⟩
  have own : candidate ∈ ownCandidates element ↔
      ∃ position declaration, (ownDeclarations element)[position]? = some declaration ∧
        candidate = candidateOf true .zero position declaration := by
    rw [ownCandidates, candidatesOf_eq_map_zipIdx, List.mem_map]
    constructor
    · rintro ⟨⟨declaration, position⟩, member, rfl⟩
      exact ⟨position, declaration, List.mem_zipIdx_iff_getElem?.mp member, rfl⟩
    · rintro ⟨position, declaration, written, rfl⟩
      exact ⟨(declaration, position), List.mem_zipIdx_iff_getElem?.mpr written, rfl⟩
  rw [List.mem_append, brought, own]
  simp only [mem_offers_bringersOf]
  constructor
  · rintro (⟨selector, ⟨position, declaration, offer, rfl⟩, matching⟩ |
      ⟨position, declaration, written, rfl⟩)
    · exact .offered offer matching
    · exact .own written
  · rintro (⟨offer, matching⟩ | written)
    · exact Or.inl ⟨_, ⟨_, _, offer, rfl⟩, matching⟩
    · exact Or.inr ⟨_, _, written, rfl⟩

end Style
end MailPress
