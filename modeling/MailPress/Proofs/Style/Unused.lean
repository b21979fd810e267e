import MailPress.Markup.Reader
import MailPress.Proofs.Css.Locality
import MailPress.Proofs.Markup.Retext
import MailPress.Proofs.Style.Pruned
import MailPress.Proofs.Text.Search

/-!
# Documents without unused styles

The style elements in the head are rewritten one after another, each with the selectors that
are used in the document at that time. Only the content of these elements changes, so that the
elements that are left match what they matched before. What a style element says in the end is
the pruned sheet, except that frames of keyframes are taken for selectors.
-/

namespace MailPress
namespace Style

open Markup (Document)

variable {document changed : Document} {tops : List Nat}

/-! ## Selectors that are used -/

/-- The nodes that hang below none of some nodes see the same, whatever texts the content of
those nodes is replaced by. -/
theorem agree_of_retexts
    (retexts : document.Retexts changed tops)
    (forest : document.IsForest) :
    Css.Agree document changed fun id =>
      id < document.size ∧ ∀ top ∈ tops, ¬document.IsBelow top id where
  element? _ seen := retexts.element?_eq seen.1
  parent? _ seen := retexts.parent?_eq seen.1 seen.2
  siblings id seen := by
    have same := retexts.parent?_eq seen.1 seen.2
    rw [Document.siblings, same, Document.siblings]
    cases below : document.parent? id with
    | none => rfl
    | some parent =>
        have inside := Nat.lt_trans (forest.parent_lt below) seen.1
        exact retexts.children parent inside fun member => seen.2 parent member (.single below)
  seen_parent id parent seen below :=
    ⟨Nat.lt_trans (forest.parent_lt below) seen.1,
      fun top member upper => seen.2 top member (.head below upper)⟩
  seen_sibling id sibling seen listed := by
    rw [Document.siblings] at listed
    cases below : document.parent? id with
    | none => simp [below] at listed
    | some parent =>
        rw [below] at listed
        refine ⟨(forest.lt_of_mem_children listed).2, fun top member lower => ?_⟩
        rcases lower.of_parent (forest.mem_children_iff.mp listed) with rfl | upper
        · exact seen.2 _ member (.single below)
        · exact seen.2 top member (.head below upper)

/-- A selector is unused when it holds no protected fragment, is understood, and is present at
no element of the document but those whose place was taken by texts. -/
theorem isUsed_eq_false_iff
    (retexts : document.Retexts changed tops)
    (forest : document.IsForest)
    (kept : List String)
    (selector : String) :
    isUsed changed kept selector = false ↔
      (∀ fragment ∈ kept, ¬fragment.toList <:+: selector.toList) ∧
        ∃ parsed, Css.Selector.read selector = some parsed ∧
          ∀ id ∈ document.elements, (∀ top ∈ tops, ¬document.IsBelow top id) →
            parsed.matches .presence document id = false := by
  have agree := agree_of_retexts retexts forest
  have absent (parsed : Css.Selector) : parsed.matchesAny .presence changed = false ↔
      ∀ id ∈ document.elements, (∀ top ∈ tops, ¬document.IsBelow top id) →
        parsed.matches .presence document id = false := by
    rw [Css.Selector.matchesAny, List.any_eq_false]
    constructor
    · intro nowhere id member apart
      have inside := Markup.Document.lt_size_of_isElement (forest.mem_elements_iff.mp member).2
      have left := (retexts.mem_elements_iff forest).mpr ⟨member, apart⟩
      rw [← agree.matches parsed ⟨inside, apart⟩]
      exact Bool.not_eq_true _ ▸ nowhere id left
    · intro nowhere id left
      obtain ⟨member, apart⟩ := (retexts.mem_elements_iff forest).mp left
      have inside := Markup.Document.lt_size_of_isElement (forest.mem_elements_iff.mp member).2
      rw [agree.matches parsed ⟨inside, apart⟩, nowhere id member apart]
      exact Bool.false_ne_true
  have unprotected : (kept.any fun fragment => Text.holds fragment selector) = false ↔
      ∀ fragment ∈ kept, ¬fragment.toList <:+: selector.toList := by
    simp only [List.any_eq_false, Text.holds_eq_true_iff]
  rw [isUsed, Bool.or_eq_false_iff, unprotected]
  refine and_congr_right fun _ => ?_
  cases Css.Selector.read selector with
  | none => simp
  | some parsed => simp [absent]

/-! ## Rewriting style elements -/

/-- Rewriting some nodes replaces their content by texts. -/
theorem retexts_foldl_rewriteStyle
    (kept : List String)
    {done : List Nat}
    (retexts : document.Retexts changed done)
    (inside : ∀ top ∈ tops, top < document.size) :
    document.Retexts (tops.foldl (rewriteStyle kept) changed) (done ++ tops) := by
  induction tops generalizing changed done with
  | nil => rwa [List.foldl_nil, List.append_nil]
  | cons top tops inductionHypothesis =>
      obtain ⟨first, others⟩ := List.forall_mem_cons.mp inside
      have step : document.Retexts (rewriteStyle kept changed top) (done ++ [top]) :=
        retexts.setText first _
      have rest := inductionHypothesis step others
      rwa [List.append_assoc, List.singleton_append] at rest

/-- A node keeps its new text when other nodes that were there are rewritten. -/
theorem rawText_foldl_rewriteStyle_setText
    (forest : document.IsForest)
    {top : Nat}
    (inside : top < document.size)
    (raw : String)
    (kept : List String)
    (others : ∀ other ∈ tops, other < document.size ∧ other ≠ top) :
    (tops.foldl (rewriteStyle kept) (document.setText top raw)).rawText top = raw := by
  have setForest := forest.setText inside raw
  have children := forest.children_setText inside raw
  have content := Markup.Document.content_setText inside raw
  have topChildren : (document.setText top raw).children top = [document.size] := by
    rw [children, if_neg (Nat.ne_of_lt inside), if_pos rfl]
  have newContent : (document.setText top raw).content document.size = .text raw := by
    rw [content, if_pos rfl]
  have newChildren : (document.setText top raw).children document.size = [] := by
    rw [children, if_pos rfl]
  have larger {id : Nat} (bound : id < document.size) : id < (document.setText top raw).size := by
    rw [Markup.Document.size_setText]
    exact Nat.lt_succ_of_lt bound
  have still : ∀ other ∈ tops, other < (document.setText top raw).size :=
    fun other member => larger (others other member).1
  have retexts := retexts_foldl_rewriteStyle kept (.refl setForest) still
  rw [List.nil_append] at retexts
  rw [retexts.rawText_eq setForest (larger inside)]
  · exact setForest.rawText_of_children_eq topChildren newContent newChildren
  · intro other member
    obtain ⟨otherInside, different⟩ := others other member
    refine ⟨different, fun below => ?_⟩
    have listed := setForest.mem_descendants_iff.mpr below
    rw [setForest.descendants_eq, topChildren, List.flatMap_singleton, setForest.ids_tree,
      newChildren, List.flatMap_nil, List.mem_singleton] at listed
    exact absurd listed (Nat.ne_of_lt otherInside)

/-! ## The style elements of the head -/

/-- The style elements below the head, in document order. -/
def headStyles (document : Document) (head : Nat) : List Nat :=
  (document.descendants head).filter (document.isNamed "style")

theorem removeUnused_eq
    {head : Nat}
    (found : document.findFirst? "head" = some head)
    (kept : List String) :
    removeUnused document kept = (headStyles document head).foldl (rewriteStyle kept) document := by
  simp [removeUnused, found, headStyles]

/-- Rewriting that is finished is rewriting. -/
theorem eq_foldl_of_foldlM_rewriteStyle?
    {kept : List String}
    {pruned : Document}
    (finished : tops.foldlM (rewriteStyle? kept) document = some pruned) :
    pruned = tops.foldl (rewriteStyle kept) document := by
  induction tops generalizing document with
  | nil => exact (Option.some.inj finished).symm
  | cons top tops inductionHypothesis =>
      obtain ⟨step, rewritten, rest⟩ := Option.bind_eq_some_iff.mp finished
      rw [rewriteStyle?, Option.ite_none_left_eq_some] at rewritten
      obtain ⟨_, same⟩ := rewritten
      rw [List.foldl_cons, Option.some.inj same]
      exact inductionHypothesis rest

theorem eq_removeUnused_of_removeUnused?
    {kept : List String}
    {pruned : Document}
    (finished : removeUnused? document kept = some pruned) :
    pruned = removeUnused document kept := by
  rw [removeUnused?] at finished
  rw [removeUnused]
  split at finished
  · exact (Option.some.inj finished).symm
  · exact eq_foldl_of_foldlM_rewriteStyle? finished

theorem lt_size_of_mem_headStyles
    {head style : Nat}
    (member : style ∈ headStyles document head) :
    style < document.size :=
  Markup.Document.lt_size_of_isElement
    (Markup.Document.isElement_of_isNamed (List.mem_filter.mp member).2)

/-- What a style element says in the end is what is left of what it said, the selectors that are
used taken from the document in which the style elements before it have been rewritten. -/
theorem rawText_removeUnused
    (forest : document.IsForest)
    (kept : List String)
    {head : Nat}
    (found : document.findFirst? "head" = some head)
    {before after : List Nat}
    {style : Nat}
    (split : headStyles document head = before ++ style :: after) :
    (removeUnused document kept).rawText style =
      Css.Sheet.write ⟨usedItems (isUsed (before.foldl (rewriteStyle kept) document) kept)
        (Css.Sheet.read (document.rawText style)).items⟩ := by
  have inside : ∀ id ∈ before ++ style :: after, id < document.size := fun id member =>
    lt_size_of_mem_headStyles (split ▸ member)
  have nodup : (before ++ style :: after).Nodup :=
    split ▸ (forest.nodup_descendants head).filter _
  have ordered : (before ++ style :: after).Pairwise
      fun earlier later => ¬document.IsBelow later earlier :=
    split ▸ (forest.pairwise_descendants head).filter _
  obtain ⟨_, nodupRest, distinct⟩ := List.nodup_append.mp nodup
  have beforeInside : ∀ id ∈ before, id < document.size := fun id member =>
    inside id (List.mem_append_left _ member)
  have retexts := retexts_foldl_rewriteStyle kept (.refl forest) beforeInside
  rw [List.nil_append] at retexts
  have sameText := retexts.rawText_eq forest (inside style (by simp)) fun other member =>
    ⟨distinct other member style List.mem_cons_self,
      (List.pairwise_append.mp ordered).2.2 other member style List.mem_cons_self⟩
  rw [removeUnused_eq found, split, List.foldl_append, List.foldl_cons, rewriteStyle, sameText]
  refine rawText_foldl_rewriteStyle_setText retexts.forest
    (Nat.lt_of_lt_of_le (inside style (by simp)) retexts.size_le) _ kept fun other member => ⟨?_, ?_⟩
  · exact Nat.lt_of_lt_of_le (inside other (by simp [member])) retexts.size_le
  · rintro rfl
    exact (List.nodup_cons.mp nodupRest).1 member

/-! ## Pruning -/

/-- Whether a selector is used when a style element of the head is rewritten, those before it
having been rewritten. -/
def isUsedAfter
    (document : Document)
    (kept : List String)
    (before : List Nat)
    (selector : String) :
    Bool :=
  isUsed (before.foldl (rewriteStyle kept) document) kept selector

/-- Taking unused styles out of a document prunes every style element in its head, except that
frames are taken for selectors. A sheet whose texts are closed is read as the pruned sheet
exactly when all its frames with declarations count as used, provided that no rule with
declarations is left with a first selector that starts like an at-rule. A selector is unused
when it holds no protected fragment, is understood, and is present at no element of the document
outside the style elements rewritten before. No node changes but for the content of the style
elements. All this is about documents for which the question of presence always has an answer. -/
theorem removeUnused_prunes_iff
    {pruned : Document}
    (forest : document.IsForest)
    (kept : List String)
    (finished : removeUnused? document kept = some pruned)
    {head : Nat}
    (found : document.findFirst? "head" = some head)
    {before after : List Nat}
    {style : Nat}
    (split : headStyles document head = before ++ style :: after)
    (closed : Css.AllMeet closedThroughout (Css.Sheet.read (document.rawText style)).items)
    (start : Css.AllMeet (plainStartLeft (isUsedAfter document kept before))
      (Css.Sheet.read (document.rawText style)).items) :
    (Css.Sheet.read (pruned.rawText style) =
        ⟨Css.readBackAll (prunedItems (isUsedAfter document kept before)
          (Css.Sheet.read (document.rawText style)).items)⟩ ↔
      FramesAreUsed (isUsedAfter document kept before)
        (Css.Sheet.read (document.rawText style)).items) ∧
    (∀ selector, isUsedAfter document kept before selector = false ↔
      (∀ fragment ∈ kept, ¬fragment.toList <:+: selector.toList) ∧
        ∃ parsed, Css.Selector.read selector = some parsed ∧
          ∀ id ∈ document.elements, (∀ earlier ∈ before, ¬document.IsBelow earlier id) →
            parsed.matches .presence document id = false) ∧
    document.Retexts pruned (headStyles document head) := by
  obtain rfl := eq_removeUnused_of_removeUnused? finished
  have inside : ∀ id ∈ headStyles document head, id < document.size := fun _ =>
    lt_size_of_mem_headStyles
  have beforeInside : ∀ id ∈ before, id < document.size := fun id member =>
    inside id (split ▸ List.mem_append_left _ member)
  have retexts := retexts_foldl_rewriteStyle kept (.refl forest) inside
  have retextsBefore := retexts_foldl_rewriteStyle kept (.refl forest) beforeInside
  rw [List.nil_append] at retexts retextsBefore
  refine ⟨?_, isUsed_eq_false_iff retextsBefore forest kept, ?_⟩
  · rw [rawText_removeUnused forest kept found split]
    rw [show isUsed (before.foldl (rewriteStyle kept) document) kept =
      isUsedAfter document kept before from rfl, read_write_usedItems closed start,
      ← readBackAll_usedItems_eq_iff, Css.Sheet.mk.injEq]
  · rwa [removeUnused_eq found]

/-- A document with one style element in its head, and a paragraph. -/
def styled (css : String) : Document :=
  ⟨#[⟨.root, none, [1, 4]⟩, ⟨.element ⟨"head", [], false⟩, some 0, [2]⟩,
    ⟨.element ⟨"style", [], false⟩, some 1, [3]⟩, ⟨.text css, some 2, []⟩,
    ⟨.element ⟨"p", [], false⟩, some 0, []⟩]⟩

/-- The text of a style element that says nothing but what it was written from. -/
theorem read_rawText_styled
    {css : String}
    {items : List Css.Item}
    (written : Css.Sheet.write ⟨items⟩ = css)
    (legible : Css.AllMeet Css.legible items)
    (same : Css.readBackAll items = items) :
    Css.Sheet.read ((styled css).rawText 2) = ⟨items⟩ := by
  have text : (styled css).rawText 2 = css := by with_unfolding_all rfl
  have read : Css.Sheet.read (Css.Sheet.write ⟨items⟩) = ⟨Css.readBackAll items⟩ :=
    Css.read_write legible
  rw [text, ← written, read, same]

/-- The theorem at a frame that is no selector, a selector of a paragraph, and an unused one. -/
theorem removeUnused_prunes_iff_percentage :
    ∃ document : Document,
      Document.read ("<head><style>@keyframes k\x7b50%\x7ba:b\x7d\x7dp\x7bc:d\x7d" ++
          ".gone\x7be:f\x7d</style></head><p></p>") = .ok document ∧
        document.IsForest ∧ document.findFirst? "head" = some 1 ∧ headStyles document 1 = [2] ∧
        Css.AllMeet closedThroughout (Css.Sheet.read (document.rawText 2)).items ∧
        Css.AllMeet (plainStartLeft (isUsedAfter document [] []))
          (Css.Sheet.read (document.rawText 2)).items ∧
        isUsedAfter document [] [] ".gone" = false ∧
        ∃ pruned, removeUnused? document [] = some pruned ∧
          Css.Sheet.read (pruned.rawText 2) =
            ⟨[.group "keyframes" "k" [.rule ⟨["50%"], [⟨"a", "b", false⟩]⟩],
              .rule ⟨["p"], [⟨"c", "d", false⟩]⟩]⟩ ∧
          document.Retexts pruned [2] := by
  let animation : Css.Item := .group "keyframes" "k" [.rule ⟨["50%"], [⟨"a", "b", false⟩]⟩]
  let items : List Css.Item :=
    [animation, .rule ⟨["p"], [⟨"c", "d", false⟩]⟩, .rule ⟨[".gone"], [⟨"e", "f", false⟩]⟩]
  let document := styled "@keyframes k\x7b50%\x7ba:b\x7d\x7dp\x7bc:d\x7d.gone\x7be:f\x7d"
  have read : Document.read ("<head><style>@keyframes k\x7b50%\x7ba:b\x7d\x7dp\x7bc:d\x7d" ++
      ".gone\x7be:f\x7d</style></head><p></p>") = .ok document := by cbv
  have sheet : Css.Sheet.read (document.rawText 2) = ⟨items⟩ :=
    read_rawText_styled (by decide) (by decide) (by cbv)
  have forest := (Markup.Document.isRooted_of_read read).forest
  have found : document.findFirst? "head" = some 1 := by cbv
  have styles : headStyles document 1 = [2] := by cbv
  have frame : isUsedAfter document [] [] "50%" = true := by decide +kernel
  have paragraph : isUsedAfter document [] [] "p" = true := by decide +kernel
  have gone : isUsedAfter document [] [] ".gone" = false := by decide +kernel
  have closed : Css.AllMeet closedThroughout (Css.Sheet.read (document.rawText 2)).items := by
    rw [sheet]
    decide
  have start : Css.AllMeet (plainStartLeft (isUsedAfter document [] []))
      (Css.Sheet.read (document.rawText 2)).items := by
    simp [sheet, items, animation, Css.AllMeet, Css.Item.Meets, plainStartLeft, frame, paragraph,
      gone]
    decide
  have used : FramesAreUsed (isUsedAfter document [] [])
      (Css.Sheet.read (document.rawText 2)).items := by
    simp [sheet, items, animation, FramesAreUsed, Css.placedRulesOfAll, Css.Item.placedRules,
      frame]
  have left : prunedItems (isUsedAfter document [] []) items =
      [animation, .rule ⟨["p"], [⟨"c", "d", false⟩]⟩, .rule ⟨[], [⟨"e", "f", false⟩]⟩] := by
    simp [items, animation, prunedItems, Css.restrictAll, Css.Item.restrict, frame, paragraph,
      gone]
  have split : headStyles document 1 = [] ++ 2 :: [] := styles
  have answered : (removeUnused? document []).isSome = true := by decide +kernel
  obtain ⟨pruned, finished⟩ := Option.isSome_iff_exists.mp answered
  obtain ⟨exactly, _, retexts⟩ := removeUnused_prunes_iff forest [] finished found split closed start
  refine ⟨document, read, forest, found, styles, closed, start, gone, pruned, finished, ?_, ?_⟩
  · rw [exactly.mpr used, sheet, left]
    cbv
  · exact styles ▸ retexts

/-- The frames at both ends of an animation count as selectors of elements that are not there, and
nothing is left of it. -/
theorem frames_lost_animation :
    ∃ document : Document,
      Document.read ("<head><style>@keyframes k\x7bfrom\x7ba:b\x7dto\x7bc:d\x7d\x7d" ++
          "</style></head><p></p>") = .ok document ∧
        document.findFirst? "head" = some 1 ∧ headStyles document 1 = [2] ∧
        Css.AllMeet closedThroughout (Css.Sheet.read (document.rawText 2)).items ∧
        (Css.Sheet.read (document.rawText 2)).items =
          [.group "keyframes" "k" [.rule ⟨["from"], [⟨"a", "b", false⟩]⟩,
            .rule ⟨["to"], [⟨"c", "d", false⟩]⟩]] ∧
        ∃ pruned, removeUnused? document [] = some pruned ∧ pruned.rawText 2 = "" := by
  let items : List Css.Item :=
    [.group "keyframes" "k" [.rule ⟨["from"], [⟨"a", "b", false⟩]⟩,
      .rule ⟨["to"], [⟨"c", "d", false⟩]⟩]]
  let document := styled "@keyframes k\x7bfrom\x7ba:b\x7dto\x7bc:d\x7d\x7d"
  have read : Document.read ("<head><style>@keyframes k\x7bfrom\x7ba:b\x7dto\x7bc:d\x7d\x7d" ++
      "</style></head><p></p>") = .ok document := by cbv
  have sheet : Css.Sheet.read (document.rawText 2) = ⟨items⟩ :=
    read_rawText_styled (by decide) (by decide) (by cbv)
  have forest := (Markup.Document.isRooted_of_read read).forest
  have found : document.findFirst? "head" = some 1 := by cbv
  have styles : headStyles document 1 = [2] := by cbv
  have first : isUsed document [] "from" = false := by decide +kernel
  have last : isUsed document [] "to" = false := by decide +kernel
  have answered : (removeUnused? document []).isSome = true := by decide +kernel
  obtain ⟨pruned, finished⟩ := Option.isSome_iff_exists.mp answered
  refine ⟨document, read, found, styles, ?_, congrArg Css.Sheet.items sheet, pruned, finished, ?_⟩
  · rw [sheet]
    decide
  · have split : headStyles document 1 = [] ++ 2 :: [] := styles
    have left : usedItems (isUsed document []) items = [.group "keyframes" "k" []] := by
      simp [items, usedItems, usedItem, first, last]
    have text := rawText_removeUnused forest [] found split
    rw [sheet, List.foldl_nil, left] at text
    exact eq_removeUnused_of_removeUnused? finished ▸ text

end Style
end MailPress
