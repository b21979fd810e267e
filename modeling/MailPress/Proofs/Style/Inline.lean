import Mathlib.Data.List.Permutation
import MailPress.Markup.Reader
import MailPress.Proofs.Css.Matching
import MailPress.Proofs.Markup.Document
import MailPress.Proofs.Markup.Reference
import MailPress.Proofs.Style.Cascade

/-!
# Inlining computes the cascade

Every element that a rule matches gets a `style` attribute in which each
contending property stands once, with the value of its greatest contender. Apart
from that, elements of certain names may gain a width and a height; nothing else
of the document changes. The order in which the elements are restyled plays no
part, since all matching is done before. It is done unless a selector has no
answer at some element.
-/

namespace MailPress
namespace Style

/-- A list of properties and values is the outcome of the cascade among some contenders. -/
structure IsCascade
    (contends : Candidate → Prop)
    (resolved : List (String × String)) :
    Prop where
  /-- No property is listed twice. -/
  nodup : (resolved.map Prod.fst).Nodup
  /-- The properties listed are those that contenders have. -/
  property_mem_iff (property : String) :
    property ∈ resolved.map Prod.fst ↔
      ∃ contender, contends contender ∧ contender.property = property
  /-- A property has the value of the contender that outranks all its others. -/
  exists_winner {property value : String} (member : (property, value) ∈ resolved) :
    ∃ winner, contends winner ∧ winner.property = property ∧ winner.value = value ∧
      ∀ other, contends other → other.property = property → other ≠ winner →
        other.rank.key < winner.rank.key

/-- An element differs from another one in its `style` attribute, which has the given value,
and at most in a width and a height that it has besides. -/
structure IsRestyled
    (sizeNames : List String)
    (element : Markup.Element)
    (text : String)
    (styled : Markup.Element) :
    Prop where
  /-- The name is the same. -/
  name_eq : styled.name = element.name
  /-- The tag is written in the same way. -/
  selfClosing_eq : styled.selfClosing = element.selfClosing
  /-- The style, references decoded, is the given text. -/
  style_eq : styled.decodedAttr? "style" = some text
  /-- The other attributes are kept; a size may be added where there was none. -/
  others : ∃ added,
    Markup.otherAttributes "style" styled.attributes =
        Markup.otherAttributes "style" element.attributes ++ added ∧
      (added.map Markup.Attribute.name).Nodup ∧
      ∀ extra ∈ added, element.name ∈ sizeNames ∧
        (extra.name = "width" ∨ extra.name = "height") ∧
        element.hasAttr extra.name = false

/-- Writing the style alone restyles an element. -/
theorem isRestyled_setAttr
    (sizeNames : List String)
    (element : Markup.Element)
    (text : String) :
    IsRestyled sizeNames element text
      (element.setAttr "style" (Markup.escapeAttribute text)) where
  name_eq := rfl
  selfClosing_eq := rfl
  style_eq := by
    rw [Markup.Element.decodedAttr?, Markup.Element.attr?_setAttr_self, Option.map_some,
      Markup.decode_escapeAttribute]
  others := by
    refine ⟨[], ?_, List.nodup_nil, by simp⟩
    rw [List.append_nil]
    exact Markup.otherAttributes_setAttribute ..

/-- Promoting a size to an attribute keeps an element restyled. -/
theorem IsRestyled.promoteSize
    {sizeNames : List String}
    {element styled : Markup.Element}
    {text : String}
    (restyled : IsRestyled sizeNames element text styled)
    (sized : element.name ∈ sizeNames)
    (declared : String × String) :
    IsRestyled sizeNames element text (promoteSize styled declared) := by
  unfold Style.promoteSize
  split
  · next isSize =>
      split
      · next size found =>
          unfold Markup.Element.setAttrIfMissing
          split
          · exact restyled
          · next missing =>
              replace missing : styled.attributes.any (·.name == declared.1) = false := by
                simpa [Markup.Element.hasAttr] using missing
              have notStyle : declared.1 ≠ "style" := by
                rintro same
                simp [same] at isSize
              obtain ⟨added, split, nodup, sizes⟩ := restyled.others
              have missingBefore : element.hasAttr declared.1 = false ∧
                  added.any (·.name == declared.1) = false := by
                rw [← Markup.any_otherAttributes notStyle, split, List.any_append,
                  Markup.any_otherAttributes notStyle, Bool.or_eq_false_iff] at missing
                exact missing
              constructor
              · exact restyled.name_eq
              · exact restyled.selfClosing_eq
              · rw [Markup.Element.decodedAttr?,
                  Markup.Element.attr?_setAttr_of_ne _ (Ne.symm notStyle)]
                exact restyled.style_eq
              · refine ⟨added ++ [⟨declared.1, size⟩], ?_, ?_, ?_⟩
                · rw [Markup.Element.setAttr, Markup.setAttribute_of_missing missing,
                    Markup.otherAttributes_append_of_ne notStyle, split, List.append_assoc]
                · rw [List.map_append, List.nodup_append]
                  refine ⟨nodup, List.pairwise_singleton _ _, ?_⟩
                  rintro name present last lastMember rfl
                  obtain ⟨extra, member, rfl⟩ := List.mem_map.mp present
                  have same : extra.name = declared.1 := by simpa using lastMember
                  have absent := List.any_eq_false.mp missingBefore.2 extra member
                  simp [same] at absent
                · intro extra member
                  rcases List.mem_append.mp member with old | new
                  · exact sizes extra old
                  · rw [List.mem_singleton.mp new]
                    exact ⟨sized, isSize, missingBefore.1⟩
      · exact restyled
  · exact restyled

/-- What is written on a matched element is the cascade of its candidates. -/
theorem isRestyled_restyle
    (sizeNames : List String)
    (candidates : List Candidate)
    (element : Markup.Element) :
    IsRestyled sizeNames element
      (styleText (resolve (candidates ++ ownCandidates element)))
      (restyle sizeNames candidates element) := by
  unfold restyle
  dsimp only
  have styled := isRestyled_setAttr sizeNames element
    (styleText (resolve (candidates ++ ownCandidates element)))
  split
  · next sized =>
      replace sized : element.name ∈ sizeNames := by simpa using sized
      generalize resolve (candidates ++ ownCandidates element) = declared at styled ⊢
      generalize styleText declared = text at styled ⊢
      generalize element.setAttr "style" (Markup.escapeAttribute text) = current at styled ⊢
      induction declared generalizing current with
      | nil => exact styled
      | cons first rest inductionHypothesis =>
          exact inductionHypothesis _ (styled.promoteSize sized first)
  · exact styled

/-- The candidates collected for an element resolve to the cascade of its contenders. -/
theorem isCascade_resolve
    {document : Markup.Document}
    {css : String}
    {id : Nat}
    {element : Markup.Element}
    {candidates : List Candidate}
    (collected :
      candidatesFor? document (bringersOf 0 (Css.Sheet.read css).items) id = some candidates) :
    IsCascade (Contends document css id element)
      (resolve (candidates ++ ownCandidates element)) where
  nodup := nodup_map_fst_resolve _
  property_mem_iff property := by
    rw [mem_map_fst_resolve]
    simp only [mem_candidates_iff_contends collected]
  exists_winner {property value} member := by
    obtain ⟨winner, winnerMember, pair_eq, greatest⟩ := exists_greatest_of_mem_resolve member
    obtain ⟨rfl, rfl⟩ := Prod.mk.inj pair_eq
    have winnerContends := (mem_candidates_iff_contends collected winner).mp winnerMember
    refine ⟨winner, winnerContends, rfl, rfl, ?_⟩
    intro other otherContends sameProperty different
    have otherMember := (mem_candidates_iff_contends collected other).mpr otherContends
    refine lt_of_le_of_ne (greatest other otherMember sameProperty) ?_
    intro sameKey
    exact different (otherContends.eq_of_rank_eq winnerContends (Rank.key_injective sameKey))

/-! ## The whole document -/

theorem node_restyleAll_of_not_mem
    {sizeNames : List String}
    {matched : List (Nat × List Candidate)}
    {id : Nat}
    (absent : id ∉ matched.map Prod.fst)
    (document : Markup.Document) :
    (restyleAll sizeNames document matched).node id = document.node id := by
  induction matched generalizing document with
  | nil => rfl
  | cons first rest inductionHypothesis =>
      obtain ⟨different, restAbsent⟩ : id ≠ first.1 ∧ id ∉ rest.map Prod.fst := by
        simpa using absent
      have step : restyleAll sizeNames document (first :: rest) =
          restyleAll sizeNames
            (document.modifyElement first.1 (restyle sizeNames first.2)) rest := rfl
      rw [step, inductionHypothesis restAbsent, Markup.Document.node_modifyElement,
        if_neg different]

theorem node_restyleAll_of_mem
    {sizeNames : List String}
    {matched : List (Nat × List Candidate)}
    {id : Nat}
    {candidates : List Candidate}
    (nodup : (matched.map Prod.fst).Nodup)
    (member : (id, candidates) ∈ matched)
    (document : Markup.Document) :
    (restyleAll sizeNames document matched).node id =
      (document.node id).mapElement (restyle sizeNames candidates) := by
  induction matched generalizing document with
  | nil => cases member
  | cons first rest inductionHypothesis =>
      obtain ⟨firstAbsent, restNodup⟩ := List.nodup_cons.mp nodup
      have step : restyleAll sizeNames document (first :: rest) =
          restyleAll sizeNames
            (document.modifyElement first.1 (restyle sizeNames first.2)) rest := rfl
      rw [step]
      rcases List.mem_cons.mp member with rfl | inRest
      · rw [node_restyleAll_of_not_mem firstAbsent, Markup.Document.node_modifyElement,
          if_pos rfl]
      · have different : id ≠ first.1 := by
          intro same
          have present := List.mem_map_of_mem (f := Prod.fst) inRest
          exact firstAbsent (same ▸ present)
        rw [inductionHypothesis restNodup inRest, Markup.Document.node_modifyElement,
          if_neg different]

theorem nodup_eraseDups (ids : List Nat) : ids.eraseDups.Nodup := by
  induction length : ids.length using Nat.strongRecOn generalizing ids with
  | ind length inductionHypothesis =>
      cases ids with
      | nil => exact List.nodup_nil
      | cons first rest =>
          rw [List.eraseDups_cons, List.nodup_cons]
          have shorter := List.length_filter_le (fun other => !other == first) rest
          refine ⟨by simp, inductionHypothesis _ ?_ _ rfl⟩
          rw [List.length_cons] at length
          omega

theorem map_fst_matchedElements (document : Markup.Document) (css : String) :
    (matchedElements document css).map Prod.fst =
      document.elements.eraseDups.filter fun id =>
        (candidatesFor? document (bringersOf 0 (Css.Sheet.read css).items) id).isSome := by
  unfold matchedElements
  dsimp only
  induction document.elements.eraseDups with
  | nil => rfl
  | cons id rest inductionHypothesis =>
      cases collected : candidatesFor? document (bringersOf 0 (Css.Sheet.read css).items) id <;>
        simp [collected, inductionHypothesis]

theorem nodup_map_fst_matchedElements (document : Markup.Document) (css : String) :
    ((matchedElements document css).map Prod.fst).Nodup := by
  rw [map_fst_matchedElements]
  exact (nodup_eraseDups _).filter _

/-- The elements to restyle are the attached ones that a rule matches. -/
theorem mem_map_fst_matchedElements
    {document : Markup.Document}
    {css : String}
    {id : Nat} :
    id ∈ (matchedElements document css).map Prod.fst ↔
      id ∈ document.elements ∧ IsMatched document css id := by
  rw [map_fst_matchedElements, List.mem_filter, List.mem_eraseDups, isSome_candidatesFor?_iff]

theorem candidatesFor?_of_mem_matchedElements
    {document : Markup.Document}
    {css : String}
    {id : Nat}
    {candidates : List Candidate}
    (member : (id, candidates) ∈ matchedElements document css) :
    candidatesFor? document (bringersOf 0 (Css.Sheet.read css).items) id = some candidates := by
  obtain ⟨_, _, found⟩ := List.mem_filterMap.mp member
  obtain ⟨_, collected, same⟩ := Option.map_eq_some_iff.mp found
  obtain ⟨rfl, rfl⟩ := Prod.mk.inj same
  exact collected

/-- A matched element is restyled with the candidates that were collected for it. -/
theorem exists_restyle_of_isMatched
    {document : Markup.Document}
    {css : String}
    {id : Nat}
    {element : Markup.Element}
    (sizeNames : List String)
    (attached : id ∈ document.elements)
    (found : document.element? id = some element)
    (isMatched : IsMatched document css id) :
    ∃ candidates,
      candidatesFor? document (bringersOf 0 (Css.Sheet.read css).items) id = some candidates ∧
        (inlineStyles document css sizeNames).element? id =
          some (restyle sizeNames candidates element) := by
  have listed := mem_map_fst_matchedElements.mpr ⟨attached, isMatched⟩
  obtain ⟨⟨_, candidates⟩, member, rfl⟩ := List.mem_map.mp listed
  refine ⟨candidates, candidatesFor?_of_mem_matchedElements member, ?_⟩
  have node_eq : (inlineStyles document css sizeNames).node _ = _ :=
    node_restyleAll_of_mem (nodup_map_fst_matchedElements document css) member document
  rw [Markup.Document.element?_of_node_eq_mapElement node_eq, found, Option.map_some]

/-- Restyling reaches the same document in whatever order the elements are taken. -/
theorem restyleAll_perm
    (sizeNames : List String)
    (document : Markup.Document)
    {css : String}
    {visited : List (Nat × List Candidate)}
    (perm : visited.Perm (matchedElements document css)) :
    restyleAll sizeNames document visited = inlineStyles document css sizeNames := by
  refine perm.foldl_eq' ?_ document
  rintro ⟨first, firstCandidates⟩ firstMember ⟨second, secondCandidates⟩ secondMember styled
  by_cases same : first = second
  · subst same
    have firstCollected := candidatesFor?_of_mem_matchedElements (perm.mem_iff.mp firstMember)
    have secondCollected := candidatesFor?_of_mem_matchedElements (perm.mem_iff.mp secondMember)
    cases Option.some.inj (firstCollected.symm.trans secondCollected)
    rfl
  · exact Markup.Document.modifyElement_comm styled same _ _

/-- The links between nodes are the same after inlining. -/
theorem links_inlineStyles
    (document : Markup.Document)
    (css : String)
    (sizeNames : List String)
    (id : Nat) :
    (inlineStyles document css sizeNames).parent? id = document.parent? id ∧
      (inlineStyles document css sizeNames).children id = document.children id := by
  unfold Markup.Document.parent? Markup.Document.children
  by_cases listed : id ∈ (matchedElements document css).map Prod.fst
  · obtain ⟨⟨_, candidates⟩, member, rfl⟩ := List.mem_map.mp listed
    have node_eq : (inlineStyles document css sizeNames).node _ = _ :=
      node_restyleAll_of_mem (nodup_map_fst_matchedElements document css) member document
    simp [node_eq]
  · have node_eq : (inlineStyles document css sizeNames).node id = _ :=
      node_restyleAll_of_not_mem listed document
    simp [node_eq]

/-- Inlining is not finished when asking if a selector of a top-level rule matches an element has
no answer. -/
theorem inlineStyles?_eq_none_iff
    {document : Markup.Document}
    {css : String}
    {sizeNames : List String} :
    inlineStyles? document css sizeNames = none ↔
      ∃ rule, Css.Item.rule rule ∈ (Css.Sheet.read css).items ∧
        ∃ text ∈ rule.selectors, ∃ selector, Css.Selector.read text = some selector ∧
          ∃ id ∈ document.elements, selector.matches? .static document id = none := by
  have stops_iff : inliningStops document css = true ↔
      ∃ selector ∈ (bringersOf 0 (Css.Sheet.read css).items).map Bringer.selector,
        ∃ id ∈ document.elements, selector.stops .static document id = true := by
    simp [inliningStops, List.any_eq_true]
  rw [inlineStyles?, ite_eq_left_iff]
  simp only [reduceCtorEq, imp_false, not_not, stops_iff, mem_map_selector_bringersOf,
    Css.Selector.matches?_eq_none_iff]
  constructor
  · rintro ⟨selector, ⟨rule, member, text, listed, read⟩, stopped⟩
    exact ⟨rule, member, text, listed, selector, read, stopped⟩
  · rintro ⟨rule, member, text, listed, selector, read, stopped⟩
    exact ⟨selector, ⟨rule, member, text, listed, read⟩, stopped⟩

theorem eq_inlineStyles_of_inlineStyles?
    {document inlined : Markup.Document}
    {css : String}
    {sizeNames : List String}
    (finished : inlineStyles? document css sizeNames = some inlined) :
    inlined = inlineStyles document css sizeNames := by
  rw [inlineStyles?] at finished
  split at finished
  · cases finished
  · exact (Option.some.inj finished).symm

/-- Inlining computes the cascade, unless asking if a selector matches an element has no answer: a
matched element is restyled with the outcome of the cascade among its contenders, no other node is
touched, the links between nodes stay, and the elements can be visited in any order. -/
theorem inlineStyles_computes_cascade
    (document : Markup.Document)
    (css : String)
    (sizeNames : List String) :
    (inlineStyles? document css sizeNames = none ↔
      ∃ rule, Css.Item.rule rule ∈ (Css.Sheet.read css).items ∧
        ∃ text ∈ rule.selectors, ∃ selector, Css.Selector.read text = some selector ∧
          ∃ id ∈ document.elements, selector.matches? .static document id = none) ∧
    ∀ inlined, inlineStyles? document css sizeNames = some inlined →
      (∀ id ∈ document.elements, ∀ element, document.element? id = some element →
        IsMatched document css id →
          ∃ styled resolved, inlined.element? id = some styled ∧
            IsRestyled sizeNames element (styleText resolved) styled ∧
            IsCascade (Contends document css id element) resolved) ∧
      (∀ id, ¬(id ∈ document.elements ∧ IsMatched document css id) →
        inlined.node id = document.node id) ∧
      (∀ id, inlined.parent? id = document.parent? id ∧
        inlined.children id = document.children id) ∧
      (∀ visited, visited.Perm (matchedElements document css) →
        restyleAll sizeNames document visited = inlined) := by
  refine ⟨inlineStyles?_eq_none_iff, fun inlined finished => ?_⟩
  obtain rfl := eq_inlineStyles_of_inlineStyles? finished
  refine ⟨?_, ?_, links_inlineStyles document css sizeNames,
    fun visited perm => restyleAll_perm sizeNames document perm⟩
  · intro id attached element found isMatched
    obtain ⟨candidates, collected, styled_eq⟩ :=
      exists_restyle_of_isMatched sizeNames attached found isMatched
    exact ⟨_, _, styled_eq, isRestyled_restyle sizeNames candidates element,
      isCascade_resolve collected⟩
  · intro id unmatched
    apply node_restyleAll_of_not_mem
    rwa [mem_map_fst_matchedElements]

/-- The theorem at a paragraph whose own declaration yields to a marked one and not to another. -/
theorem inlineStyles_computes_cascade_marked :
    ∃ document element inlined styled resolved,
      Markup.Document.read "<p style=\"a:b;c:d\">x</p>" = .ok document ∧
        document.element? 1 = some element ∧
        inlineStyles? document "p\x7ba:e!important;c:f\x7d" [] = some inlined ∧
        inlined.element? 1 = some styled ∧
        styled.attributes = [⟨"style", "c: d; a: e;"⟩] ∧
        IsRestyled [] element (styleText resolved) styled ∧
        IsCascade (Contends document "p\x7ba:e!important;c:f\x7d" 1 element) resolved ∧
        inlined.node 2 = document.node 2 := by
  let css := "p\x7ba:e!important;c:f\x7d"
  let element : Markup.Element := ⟨"p", [⟨"style", "a:b;c:d"⟩], false⟩
  let document : Markup.Document :=
    ⟨#[⟨.root, none, [1]⟩, ⟨.element element, some 0, [2]⟩, ⟨.text "x", some 1, []⟩]⟩
  have read : Markup.Document.read "<p style=\"a:b;c:d\">x</p>" = .ok document := by cbv
  have attached : 1 ∈ document.elements := by decide +kernel
  have textless : 2 ∉ document.elements := by decide +kernel
  have brought : candidatesFor? document (bringersOf 0 (Css.Sheet.read css).items) 1 =
      some [⟨⟨true, false, ⟨0, 0, 1⟩, 0⟩, "a", "e"⟩, ⟨⟨false, false, ⟨0, 0, 1⟩, 1⟩, "c", "f"⟩] := by
    decide +kernel
  have own : ownCandidates element =
      [⟨⟨false, true, .zero, 0⟩, "a", "b"⟩, ⟨⟨false, true, .zero, 1⟩, "c", "d"⟩] := by
    decide
  have isMatched : IsMatched document css 1 := by
    rw [← isSome_candidatesFor?_iff, brought]
    rfl
  have finished : inlineStyles? document css [] = some (inlineStyles document css []) :=
    if_neg (by decide +kernel)
  obtain ⟨matched, unmatched, _, _⟩ :=
    (inlineStyles_computes_cascade document css []).2 _ finished
  obtain ⟨styled, resolved, found, restyled, cascade⟩ := matched 1 attached element rfl isMatched
  obtain ⟨candidates, collected, styled_eq⟩ :=
    exists_restyle_of_isMatched [] attached (rfl : document.element? 1 = some element) isMatched
  cases Option.some.inj (brought.symm.trans collected)
  have attributes : ((inlineStyles document css []).element? 1).map Markup.Element.attributes =
      some [⟨"style", "c: d; a: e;"⟩] := by
    rw [styled_eq, restyle, own]
    cbv
  rw [found] at attributes
  exact ⟨document, element, _, styled, resolved, read, rfl, finished, found,
    Option.some.inj attributes, restyled, cascade, unmatched 2 fun both => textless both.1⟩

/-- A formula that has no answer at the first position keeps the whole document from being
styled. -/
theorem inlineStyles?_countdown_eq_none :
    ∃ document : Markup.Document,
      Markup.Document.read "<p>x</p>" = .ok document ∧
        Css.Selector.read ":nth-child(-n-2147483647)" =
          some (.compound [.nthChild ⟨-1, -2147483647⟩]) ∧
        inlineStyles? document ":nth-child(-n-2147483647)\x7ba:b\x7d" [] = none := by
  let document : Markup.Document :=
    ⟨#[⟨.root, none, [1]⟩, ⟨.element ⟨"p", [], false⟩, some 0, [2]⟩, ⟨.text "x", some 1, []⟩]⟩
  have stops : inliningStops document ":nth-child(-n-2147483647)\x7ba:b\x7d" = true := by
    decide +kernel
  exact ⟨document, by cbv, by with_unfolding_all rfl, if_pos stops⟩

/-!
## The order of two written properties

Of two properties on one element, the one that owns the least contender is
written first. So the property that owns the greatest contender of the two comes
last exactly when it does not own the least one as well.

A shorthand and one of its longhands may take turns. Then the property that
should have the last word is written first, and whoever reads the attribute from
left to right is given the other value.
-/

/-- The least contender of two properties. -/
structure IsLowest
    (contends : Candidate → Prop)
    (first second : String)
    (lowest : Candidate) :
    Prop where
  contends_self : contends lowest
  property_eq : lowest.property = first ∨ lowest.property = second
  key_le {other : Candidate} (otherContends : contends other)
    (either : other.property = first ∨ other.property = second) :
    lowest.rank.key ≤ other.rank.key

/-- The greatest contender of two properties. -/
structure IsHighest
    (contends : Candidate → Prop)
    (first second : String)
    (highest : Candidate) :
    Prop where
  contends_self : contends highest
  property_eq : highest.property = first ∨ highest.property = second
  key_le {other : Candidate} (otherContends : contends other)
    (either : other.property = first ∨ other.property = second) :
    other.rank.key ≤ highest.rank.key

/-- Of two declared properties, the owner of the greatest contender is written behind the
other one exactly when it does not own the least contender too. -/
theorem highest_written_last_iff
    {document : Markup.Document}
    {css : String}
    {id : Nat}
    {element : Markup.Element}
    {first second : String}
    {lowest highest : Candidate}
    (sizeNames : List String)
    (attached : id ∈ document.elements)
    (found : document.element? id = some element)
    (isMatched : IsMatched document css id)
    (different : first ≠ second)
    (isLowest : IsLowest (Contends document css id element) first second lowest)
    (isHighest : IsHighest (Contends document css id element) first second highest) :
    ∃ styled resolved, (inlineStyles document css sizeNames).element? id = some styled ∧
      styled.decodedAttr? "style" = some (styleText resolved) ∧
      IsCascade (Contends document css id element) resolved ∧
      ((∀ other, other = first ∨ other = second → other ≠ highest.property →
          (resolved.map Prod.fst).idxOf other < (resolved.map Prod.fst).idxOf highest.property) ↔
        lowest.property ≠ highest.property) := by
  obtain ⟨candidates, collected, styled_eq⟩ :=
    exists_restyle_of_isMatched sizeNames attached found isMatched
  refine ⟨_, resolve (candidates ++ ownCandidates element), styled_eq,
    (isRestyled_restyle sizeNames candidates element).style_eq, isCascade_resolve collected, ?_⟩
  have lowestMember := (mem_candidates_iff_contends collected lowest).mpr isLowest.contends_self
  -- The least contender of the two puts its own property in front of the other one.
  have lowestFirst (other : String) (either : other = first ∨ other = second)
      (notLowest : other ≠ lowest.property) :
      ((resolve (candidates ++ ownCandidates element)).map Prod.fst).idxOf lowest.property <
        ((resolve (candidates ++ ownCandidates element)).map Prod.fst).idxOf other := by
    apply idxOf_lt_idxOf_resolve lowestMember notLowest
    rintro candidate member rfl
    have contends := (mem_candidates_iff_contends collected candidate).mp member
    refine lt_of_le_of_ne (isLowest.key_le contends either) ?_
    intro sameKey
    have same := isLowest.contends_self.eq_of_rank_eq contends (Rank.key_injective sameKey)
    exact notLowest (congrArg Candidate.property same.symm)
  constructor
  · intro highestLast owner
    obtain ⟨other, either, notHighest⟩ :
        ∃ other, (other = first ∨ other = second) ∧ other ≠ highest.property := by
      rcases isHighest.property_eq with owns | owns
      · exact ⟨second, Or.inr rfl, owns ▸ different.symm⟩
      · exact ⟨first, Or.inl rfl, owns ▸ different⟩
    have behind := highestLast other either notHighest
    have before := lowestFirst other either (owner ▸ notHighest)
    rw [owner] at before
    exact absurd behind (Nat.lt_asymm before)
  · intro notOwner other either notHighest
    have isOther : lowest.property = other := by
      rcases isLowest.property_eq with lowestIs | lowestIs <;>
        rcases isHighest.property_eq with highestIs | highestIs <;>
          rcases either with rfl | rfl <;> simp_all
    rw [← isOther]
    exact lowestFirst highest.property isHighest.property_eq notOwner.symm

/-- A document that holds one paragraph. -/
def paragraph : Markup.Document :=
  ⟨#[⟨.root, none, [1]⟩, ⟨.element ⟨"p", [], false⟩, some 0, [2]⟩, ⟨.text "x", some 1, []⟩]⟩

/-- A style sheet that sets a shorthand between two declarations of one of its longhands. -/
def interleaved : String :=
  "p\x7bpadding-left:1px\x7dp\x7bpadding:2px\x7dp\x7bpadding-left:3px\x7d"

/-- What the style sheet brings to the paragraph. -/
def interleavedCandidates : List Candidate :=
  [⟨⟨false, false, ⟨0, 0, 1⟩, 0⟩, "padding-left", "1px"⟩,
    ⟨⟨false, false, ⟨0, 0, 1⟩, 1⟩, "padding", "2px"⟩,
    ⟨⟨false, false, ⟨0, 0, 1⟩, 2⟩, "padding-left", "3px"⟩]

theorem candidatesFor?_interleaved :
    candidatesFor? paragraph (bringersOf 0 (Css.Sheet.read interleaved).items) 1 =
      some interleavedCandidates := by
  decide +kernel

theorem attached_paragraph : 1 ∈ paragraph.elements := by
  decide +kernel

theorem element?_paragraph : paragraph.element? 1 = some ⟨"p", [], false⟩ := rfl

theorem isMatched_interleaved : IsMatched paragraph interleaved 1 := by
  rw [← isSome_candidatesFor?_iff, candidatesFor?_interleaved]
  rfl

theorem contends_interleaved_iff (candidate : Candidate) :
    Contends paragraph interleaved 1 ⟨"p", [], false⟩ candidate ↔
      candidate ∈ interleavedCandidates := by
  rw [← mem_candidates_iff_contends candidatesFor?_interleaved]
  rfl

theorem isHighest_interleaved :
    IsHighest (Contends paragraph interleaved 1 ⟨"p", [], false⟩) "padding" "padding-left"
      ⟨⟨false, false, ⟨0, 0, 1⟩, 2⟩, "padding-left", "3px"⟩ where
  contends_self := (contends_interleaved_iff _).mpr (by decide)
  property_eq := Or.inr rfl
  key_le {other} otherContends _ := by
    have member := (contends_interleaved_iff other).mp otherContends
    simp only [interleavedCandidates, List.mem_cons, List.not_mem_nil, or_false] at member
    rcases member with rfl | rfl | rfl <;> decide

theorem isLowest_interleaved :
    IsLowest (Contends paragraph interleaved 1 ⟨"p", [], false⟩) "padding" "padding-left"
      ⟨⟨false, false, ⟨0, 0, 1⟩, 0⟩, "padding-left", "1px"⟩ where
  contends_self := (contends_interleaved_iff _).mpr (by decide)
  property_eq := Or.inr rfl
  key_le {other} otherContends _ := by
    have member := (contends_interleaved_iff other).mp otherContends
    simp only [interleavedCandidates, List.mem_cons, List.not_mem_nil, or_false] at member
    rcases member with rfl | rfl | rfl <;> decide

/-- The longhand that takes turns with its shorthand owns the greatest contender, and yet is
not written last. -/
theorem highest_written_last_iff_interleaved :
    ∃ styled resolved, (inlineStyles paragraph interleaved []).element? 1 = some styled ∧
      styled.decodedAttr? "style" = some (styleText resolved) ∧
      IsCascade (Contends paragraph interleaved 1 ⟨"p", [], false⟩) resolved ∧
      ((∀ other, other = "padding" ∨ other = "padding-left" → other ≠ "padding-left" →
          (resolved.map Prod.fst).idxOf other < (resolved.map Prod.fst).idxOf "padding-left") ↔
        "padding-left" ≠ "padding-left") :=
  highest_written_last_iff [] attached_paragraph element?_paragraph isMatched_interleaved
    (by decide) isLowest_interleaved isHighest_interleaved

/-- A longhand that owns the greatest contender can be written before its shorthand. -/
theorem longhand_written_before_shorthand :
    Markup.Document.read "<p>x</p>" = .ok paragraph ∧
      IsHighest (Contends paragraph interleaved 1 ⟨"p", [], false⟩) "padding" "padding-left"
        ⟨⟨false, false, ⟨0, 0, 1⟩, 2⟩, "padding-left", "3px"⟩ ∧
      (inlineStyles paragraph interleaved []).element? 1 =
        some ⟨"p", [⟨"style", "padding-left: 3px; padding: 2px;"⟩], false⟩ := by
  refine ⟨by cbv, isHighest_interleaved, ?_⟩
  obtain ⟨candidates, collected, styled_eq⟩ :=
    exists_restyle_of_isMatched [] attached_paragraph element?_paragraph isMatched_interleaved
  cases Option.some.inj (candidatesFor?_interleaved.symm.trans collected)
  rw [styled_eq]
  cbv

end Style
end MailPress
