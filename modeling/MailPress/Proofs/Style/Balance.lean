import MailPress.Proofs.Css.Balance
import MailPress.Proofs.Style.Media

/-!
# Balance of minified and parted sheets

Forcing importance and merging media queries move declarations and mark them, but change nothing
in what they hold. So the minified sheet and both sides of a partition leave exactly those blocks
open that their declarations leave open.
-/

namespace MailPress
namespace Style

/-! ## Forced importance -/

theorem core_forced (occurrence : Css.Occurrence) :
    occurrence.forced.declaration.core = occurrence.declaration.core := by
  unfold Css.Occurrence.forced
  split <;> rfl

/-- An importance mark changes nothing about the balance of declarations. -/
theorem forall_isBalanced_forceImportantAll
    {items : List Css.Item}
    (met : Css.AllMeet Css.countable items) :
    (∀ declaration ∈ Css.declarationsOf (Css.forceImportantAll items),
        Css.IsBalanced declaration.write) ↔
      ∀ declaration ∈ Css.declarationsOf items, Css.IsBalanced declaration.write := by
  rw [Css.declarationsOf, Css.declarationsOf, Css.allOccurrences_forceImportantAll, List.map_map,
    List.forall_mem_map, List.forall_mem_map]
  refine forall₂_congr fun occurrence member => ?_
  have contained := Css.isContained_core_of_mem met (List.mem_map_of_mem member)
  have forcedContained : Css.IsContained ['}'] occurrence.forced.declaration.core := by
    rw [core_forced]
    exact contained
  rw [Function.comp_apply, Css.isBalanced_write_iff forcedContained,
    Css.isBalanced_write_iff contained, core_forced]

theorem countable_isStable : Css.countable.IsStable where
  rule met := by
    refine ⟨met.1, met.2.1, fun declaration member => ?_⟩
    obtain ⟨original, present, rfl⟩ := List.mem_map.mp member
    exact met.2.2 original present
  group met := met
  descriptors met := by
    refine ⟨met.1, met.2.1, fun declaration member => ?_⟩
    obtain ⟨original, present, rfl⟩ := List.mem_map.mp member
    exact met.2.2 original present

/-! ## Merged media queries -/

theorem hasNoMediaDescriptors_of_countable
    {items : List Css.Item}
    (met : Css.AllMeet Css.countable items) :
    HasNoMediaDescriptors items := by
  rintro name prelude declarations member rfl
  have notGrouping := (Css.allMeet_iff.mp met _ member).1
  exact absurd notGrouping (by decide)

theorem declaration_underFirst
    (queries : List String)
    (occurrence : Css.Occurrence) :
    (underFirst queries occurrence).declaration = occurrence.declaration := by
  unfold underFirst
  split
  · split <;> rfl
  · rfl

/-- Merging loses no declaration and adds none. -/
theorem declarationsOf_mergeMediaQueries_perm
    {items : List Css.Item}
    (noDescriptors : HasNoMediaDescriptors items) :
    (Css.declarationsOf (mergeMediaQueries items)).Perm (Css.declarationsOf items) := by
  obtain ⟨merged, merge_eq, merged_perm⟩ := allOccurrences_mergeMediaQueries noDescriptors
  have mergedDeclarations : (merged.map Css.Occurrence.declaration).Perm
      (Css.declarationsOf (items.filter isMedia)) := by
    refine (merged_perm.map Css.Occurrence.declaration).trans (.of_eq ?_)
    rw [List.map_map]
    exact List.map_congr_left fun occurrence _ => declaration_underFirst _ occurrence
  have sides : (items.filter (!isMedia ·) ++ items.filter isMedia).Perm items :=
    List.perm_append_comm.trans (List.filter_append_perm isMedia items)
  have together := (sides.flatMap_right Css.Item.occurrences).map Css.Occurrence.declaration
  rw [← Css.allOccurrences_eq_flatMap, ← Css.allOccurrences_eq_flatMap, Css.allOccurrences_append,
    List.map_append] at together
  rw [Css.declarationsOf, merge_eq, List.map_append]
  exact (mergedDeclarations.append_left _).trans together

/-! ## Balance -/

/-- The written head side leaves open what the declarations on the head side leave open. -/
theorem isBalancedBy_headCss
    {partition : Partition}
    (met : Css.AllMeet Css.countable partition.head.items) :
    Css.IsBalancedBy partition.headCss (Css.declarationsOf partition.head.items) := by
  have forcedMet := met.forceImportantAll countable_isStable
  have mergedMet := allMeet_mergeMediaQueries countable_isStable forcedMet
  have merged_perm :=
    declarationsOf_mergeMediaQueries_perm (hasNoMediaDescriptors_of_countable forcedMet)
  have written : Css.IsBalancedBy partition.headCss _ := Css.isBalancedBy_writeItems mergedMet
  refine ⟨written.balanced_iff.trans ?_, written.append_iff⟩
  rw [← forall_isBalanced_forceImportantAll met]
  exact forall_congr' fun declaration => imp_congr_left merged_perm.mem_iff

/-- Of a balanced source, the minified sheet and both sides of the partition leave exactly those
blocks open that the declarations in them leave open. The source must not let comments join into
others when they are left out, nor hide quotes or brackets behind backslashes outside strings. -/
theorem isBalancedBy_declarations
    {css : String}
    (balanced : Css.IsBalanced css)
    (uncommented : Css.Avoids Css.startsComment .top (Css.withoutComments css.toList))
    (unescaped : Css.Avoids Css.escapesMark .top (Css.withoutComments css.toList)) :
    let sheet := Css.Sheet.read css
    let sides := Partition.split sheet
    Css.IsBalancedBy (Css.minify css) (Css.declarationsOf sheet.items) ∧
      Css.IsBalancedBy sides.headCss (Css.declarationsOf sides.head.items) ∧
      Css.IsBalancedBy sides.inlineCss (Css.declarationsOf sides.inline.items) := by
  intro sheet sides
  have met : Css.AllMeet Css.countable sheet.items :=
    Css.allMeet_countable_read (Css.isClean_of_isBalanced balanced uncommented unescaped)
  refine ⟨Css.isBalancedBy_writeItems met, ?_, ?_⟩
  · exact isBalancedBy_headCss (met.filter isHeadBound)
  · exact Css.isBalancedBy_writeItems (met.filter (!isHeadBound ·))

theorem isBalancedBy_declarations_nested :
    let css := "a > b\x7bc:d;e:'\x7b'\x7d@media print\x7bf:hover\x7bg:h\x7d\x7d/* \x7b */@font-face\x7bi:j\x7d"
    let sheet := Css.Sheet.read css
    let sides := Partition.split sheet
    (Css.IsBalanced css ∧ Css.Avoids Css.startsComment .top (Css.withoutComments css.toList) ∧
        Css.Avoids Css.escapesMark .top (Css.withoutComments css.toList)) ∧
      Css.IsBalancedBy (Css.minify css) (Css.declarationsOf sheet.items) ∧
      Css.IsBalancedBy sides.headCss (Css.declarationsOf sides.head.items) ∧
      Css.IsBalancedBy sides.inlineCss (Css.declarationsOf sides.inline.items) := by
  intro css sheet sides
  have balanced : Css.IsBalanced css := by decide
  have uncommented : Css.Avoids Css.startsComment .top (Css.withoutComments css.toList) := by
    decide
  have unescaped : Css.Avoids Css.escapesMark .top (Css.withoutComments css.toList) := by
    decide
  exact ⟨⟨balanced, uncommented, unescaped⟩,
    isBalancedBy_declarations balanced uncommented unescaped⟩

/-- A block inside one that is not known to group items is read up to its closing brace, and its
opening brace stays in a declaration. Leaving a comment out can join a slash and a star, and a
backslash hides a bracket only from one of two readers. -/
theorem not_isBalanced_minify_nested :
    (Css.IsBalanced "@scope\x7ba\x7bb:c\x7d\x7d" ∧
      ¬Css.IsBalanced (Css.minify "@scope\x7ba\x7bb:c\x7d\x7d")) ∧
    (Css.IsBalanced "a//**/*b\x7bc:d\x7d" ∧ ¬Css.IsBalanced (Css.minify "a//**/*b\x7bc:d\x7d")) ∧
    (Css.IsBalanced "a\x7bb:c\\(;)\x7d" ∧ ¬Css.IsBalanced (Css.minify "a\x7bb:c\\(;)\x7d")) := by
  refine ⟨⟨?_, ?_⟩, ⟨?_, ?_⟩, ?_, ?_⟩ <;> decide +kernel

end Style
end MailPress
