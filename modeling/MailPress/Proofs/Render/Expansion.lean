import Mathlib.Data.Fintype.Card
import Mathlib.Data.Set.Finite.List
import MailPress.Proofs.Render.Substitution

/-!
# Expansion of partials

The expansion of a source has the expanded sources of partials in the places of its tags. It is
defined by recursion over what includes what, and exists unless a partial that is reached comes to
include itself. Its depth is the greatest number of partials inside one another.

The tags of a source are replaced in rounds, and every round takes one level away. The last of
the rounds that are allowed is spent on finding that no tag is left, so a source is expanded when
its depth is less than the greatest depth, and no longer when it is equal to it.
-/

namespace MailPress
namespace Render

/-! ## Tags of partials -/

/-- A tag that names a partial. -/
structure PartialTag where
  /-- The blanks in front of the name. -/
  before : List Char
  /-- The name of the partial. -/
  name : List Char
  /-- The blanks behind the name. -/
  after : List Char
  /-- Only blanks stand in front of the name. -/
  blanksBefore : ∀ c ∈ before, Text.isBlank c = true
  /-- The name is not empty. -/
  nonempty : name ≠ []
  /-- The name is a word of characters of names. -/
  inName : ∀ c ∈ name, isPartialNameChar c = true
  /-- Only blanks stand behind the name. -/
  blanksAfter : ∀ c ∈ after, Text.isBlank c = true

theorem not_isPartialNameChar_of_isBlank {c : Char} (blank : Text.isBlank c = true) :
    isPartialNameChar c = false := by
  have path : isPathChar c = false := (not_isPathChar_of_isBlank blank).1
  have slash : c ≠ '/' := by
    rintro rfl
    exact absurd blank (by decide)
  simp only [isPathChar, Bool.or_eq_false_iff] at path
  simp [isPartialNameChar, path, slash]

namespace PartialTag

variable {tag : PartialTag} {text rest : List Char}

/-- What a tag consists of behind its first brace. -/
def tail (tag : PartialTag) : List Char :=
  '{' :: '>' :: (tag.before ++ (tag.name ++ (tag.after ++ ['}', '}'])))

/-- The written form of a tag. -/
def write (tag : PartialTag) : List Char :=
  '{' :: tag.tail

theorem write_append (tag : PartialTag) (rest : List Char) :
    tag.write ++ rest =
      '{' :: '{' :: '>' :: (tag.before ++ (tag.name ++ (tag.after ++ ('}' :: '}' :: rest)))) := by
  simp [write, tail]

theorem write_ne_nil (tag : PartialTag) : tag.write ≠ [] :=
  List.cons_ne_nil _ _

/-- A tag ends in a closing brace. -/
theorem getLast?_tail (tag : PartialTag) : tag.tail.getLast? = some '}' := by
  simp [tail, List.getLast?_append, List.getLast?_cons]

/-- No two opening braces stand behind the first one of a tag. -/
theorem not_opening_infix_tail (tag : PartialTag) : ¬['{', '{'] <:+: tag.tail := by
  have noBrace : '{' ∉ '>' :: (tag.before ++ (tag.name ++ (tag.after ++ ['}', '}']))) := by
    simp only [List.mem_cons, List.mem_append, List.not_mem_nil, or_false]
    rintro (sign | before | name | after | closing | closing)
    · exact absurd sign (by decide)
    · exact absurd (tag.blanksBefore _ before) (by decide)
    · exact absurd (tag.inName _ name) (by decide +kernel)
    · exact absurd (tag.blanksAfter _ after) (by decide)
    all_goals exact absurd closing (by decide)
  intro pair
  rcases List.infix_cons_iff.mp pair with start | inside
  · exact noBrace (List.IsPrefix.mem List.mem_cons_self (List.cons_prefix_cons.mp start).2)
  · exact noBrace (inside.subset List.mem_cons_self)

/-- No tag begins in what a tag ends in. -/
theorem isInert_of_append_eq_tail
    {front : List Char}
    (eq : front ++ text = tag.tail)
    (nonempty : text ≠ [])
    (rest : List Char) :
    IsInert text rest := by
  refine ⟨fun pair => tag.not_opening_infix_tail (pair.trans ⟨front, [], by simp [eq]⟩), .inl ?_⟩
  have last := tag.getLast?_tail
  rw [← eq, List.getLast?_append_of_ne_nil front nonempty] at last
  rw [last]
  decide

end PartialTag

/-- A tag is found where one is written. -/
theorem partialTag?_eq_some_iff {text name rest : List Char} :
    partialTag? text = some (name, rest) ↔
      ∃ tag : PartialTag, tag.name = name ∧ text = tag.write ++ rest := by
  constructor
  · intro found
    unfold partialTag? at found
    split at found
    · next inner =>
        split at found
        · next taken =>
            obtain ⟨rfl, rfl⟩ := Prod.mk.inj (Option.some.inj found)
            obtain ⟨before, after, rfl, blanksBefore, nonempty, inName, blanksAfter⟩ :=
              exists_of_takeNamePart taken
            let tag : PartialTag :=
              ⟨before, _, after, blanksBefore, nonempty, inName, blanksAfter⟩
            exact ⟨tag, rfl, (tag.write_append _).symm⟩
        · cases found
    · cases found
  · rintro ⟨tag, rfl, rfl⟩
    have taken : takeNamePart isPartialNameChar
        (tag.before ++ (tag.name ++ (tag.after ++ '}' :: '}' :: rest))) =
          some (tag.name, '}' :: '}' :: rest) :=
      takeNamePart_append (fun _ => not_isPartialNameChar_of_isBlank) tag.blanksBefore
        tag.nonempty tag.inName tag.blanksAfter (by decide) (by decide +kernel)
    rw [tag.write_append, partialTag?]
    simp only [taken]

theorem partialTag?_eq_none_iff {text : List Char} :
    partialTag? text = none ↔ ∀ tag : PartialTag, ¬tag.write <+: text := by
  rw [Option.eq_none_iff_forall_ne_some]
  constructor
  · rintro none tag ⟨rest, rfl⟩
    exact none (tag.name, rest) (partialTag?_eq_some_iff.mpr ⟨tag, rfl, rfl⟩)
  · rintro none ⟨name, rest⟩ found
    obtain ⟨tag, _, rfl⟩ := partialTag?_eq_some_iff.mp found
    exact none tag (List.prefix_append _ _)

/-- Some tag is written in the text. -/
def HoldsTag (text : List Char) : Prop :=
  ∃ tag : PartialTag, tag.write <:+: text

theorem HoldsTag.of_infix {text whole : List Char} (holds : HoldsTag text)
    (within : text <:+: whole) : HoldsTag whole := by
  obtain ⟨tag, inside⟩ := holds
  exact ⟨tag, inside.trans within⟩

theorem not_holdsTag_nil : ¬HoldsTag [] := by
  rintro ⟨tag, inside⟩
  exact tag.write_ne_nil (List.infix_nil.mp inside)

theorem HoldsTag.opening_infix {text : List Char} (holds : HoldsTag text) :
    ['{', '{'] <:+: text := by
  obtain ⟨tag, inside⟩ := holds
  exact List.IsInfix.trans (List.prefix_append ['{', '{'] _).isInfix inside

theorem hasTag_partialTag?_iff {text : List Char} :
    hasTag partialTag? text = true ↔ HoldsTag text := by
  induction text with
  | nil => exact ⟨nofun, fun holds => absurd holds not_holdsTag_nil⟩
  | cons c rest inductionHypothesis =>
      rw [hasTag, Bool.or_eq_true, inductionHypothesis, ← Option.ne_none_iff_isSome, ne_eq,
        partialTag?_eq_none_iff, not_forall_not]
      simp only [HoldsTag, List.infix_cons_iff, exists_or]

/-! ## Expansions -/

/-- The expansion of a source has the expanded sources of partials in the places of its tags,
and otherwise the characters of the source. The number is the depth of the expansion: the
greatest number of partials inside one another. -/
inductive Expansion (partials : Partials) : List Char → Nat → List Char → Prop
  /-- Nothing expands to nothing. -/
  | nil : Expansion partials [] 0 []
  /-- A character at which no tag begins stays. -/
  | literal {c : Char} {rest text : List Char} {depth : Nat}
      (apart : ∀ tag : PartialTag, ¬tag.write <+: c :: rest)
      (behind : Expansion partials rest depth text) :
      Expansion partials (c :: rest) depth (c :: text)
  /-- A tag gives way to the expansion of the partial that it names. -/
  | tag (tag : PartialTag) {rest inner text : List Char} {innerDepth depth : Nat}
      (included : Expansion partials (partialSource partials tag.name) innerDepth inner)
      (behind : Expansion partials rest depth text) :
      Expansion partials (tag.write ++ rest) (max (innerDepth + 1) depth) (inner ++ text)

/-- A text includes another one: it has a tag for a partial with that source. -/
def Includes (partials : Partials) (text inner : List Char) : Prop :=
  ∃ tag : PartialTag, tag.write <:+: text ∧ inner = partialSource partials tag.name

/-- Among what a text includes, at any depth, there is a text that includes itself in the end. -/
def ReachesCycle (partials : Partials) (text : List Char) : Prop :=
  ∃ inner, Relation.ReflTransGen (Includes partials) text inner ∧
    Relation.TransGen (Includes partials) inner inner

variable {partials : Partials} {source text inner rest : List Char} {depth : Nat}

/-- The replacement of all tags of a text. -/
abbrev expandOnce (partials : Partials) : List Char → List Char :=
  replaceTagsFrom partialTag? (partialSource partials) 0

theorem expandOnce_cons
    {c : Char}
    (apart : ∀ tag : PartialTag, ¬tag.write <+: c :: rest) :
    expandOnce partials (c :: rest) = c :: expandOnce partials rest := by
  rw [expandOnce, replaceTagsFrom, partialTag?_eq_none_iff.mpr apart]

theorem expandOnce_write_append (tag : PartialTag) (rest : List Char) :
    expandOnce partials (tag.write ++ rest) =
      partialSource partials tag.name ++ expandOnce partials rest :=
  replaceTagsFrom_of_tag tag.write_ne_nil (partialTag?_eq_some_iff.mpr ⟨tag, rfl, rfl⟩)

/-- A text starts with a character that begins no tag, or with a tag. -/
theorem start_cases (c : Char) (rest : List Char) :
    (∀ tag : PartialTag, ¬tag.write <+: c :: rest) ∨
      ∃ (tag : PartialTag) (behind : List Char), c :: rest = tag.write ++ behind := by
  rcases Classical.em (∃ tag : PartialTag, tag.write <+: c :: rest) with ⟨tag, behind, eq⟩ | none
  · exact .inr ⟨tag, behind, eq.symm⟩
  · exact .inl (not_exists.mp none)

namespace Expansion

theorem holdsTag_or_eq (expansion : Expansion partials source depth text) :
    HoldsTag source ∧ 0 < depth ∨ ¬HoldsTag source ∧ depth = 0 ∧ text = source := by
  induction expansion with
  | nil => exact .inr ⟨not_holdsTag_nil, rfl, rfl⟩
  | @literal c rest text depth apart behind inductionHypothesis =>
      rcases inductionHypothesis with ⟨holds, positive⟩ | ⟨free, rfl, rfl⟩
      · exact .inl ⟨holds.of_infix (List.suffix_cons c rest).isInfix, positive⟩
      · refine .inr ⟨?_, rfl, rfl⟩
        rintro ⟨tag, inside⟩
        rcases List.infix_cons_iff.mp inside with start | inside
        · exact apart tag start
        · exact free ⟨tag, inside⟩
  | tag tag included behind =>
      exact .inl ⟨⟨tag, (List.prefix_append _ _).isInfix⟩, by omega⟩

/-- Literal text in which no tag begins stays in front of the expansion of the rest. -/
theorem of_isInert
    (inert : IsInert text rest)
    {expanded : List Char}
    (expansion : Expansion partials (text ++ rest) depth expanded) :
    ∃ behind, expanded = text ++ behind ∧ Expansion partials rest depth behind := by
  induction text generalizing expanded with
  | nil => exact ⟨expanded, rfl, expansion⟩
  | cons c text inductionHypothesis =>
      have none := partialTag?_eq_none_iff.mp (startsWithBraces_partialTag?.eq_none inert)
      generalize whole : c :: text ++ rest = source at expansion
      cases expansion with
      | nil => cases whole
      | literal apart behind =>
          obtain ⟨rfl, rfl⟩ := List.cons.inj whole
          obtain ⟨left, rfl, expansion⟩ := inductionHypothesis inert.tail behind
          exact ⟨left, rfl, expansion⟩
      | tag tag included behind => exact absurd ⟨_, whole.symm⟩ (none tag)

/-- Two expansions stand next to each other, unless they make a tag at the border. -/
theorem append
    {other otherText : List Char}
    {otherDepth : Nat}
    (expansion : Expansion partials source depth text)
    (behind : Expansion partials other otherDepth otherText)
    (free : ¬HoldsTag (text ++ otherText)) :
    Expansion partials (source ++ other) (max depth otherDepth) (text ++ otherText) := by
  induction expansion with
  | nil => simpa using behind
  | @literal c rest text depth apart behind' inductionHypothesis =>
      refine .literal (fun tag start => ?_)
        (inductionHypothesis fun holds => free (holds.of_infix (List.suffix_cons _ _).isInfix))
      -- A tag over the border stands in the expansion as well: its parts are no tags.
      obtain ⟨rfl, beyond, whole⟩ :
          '{' = c ∧ tag.tail <+: rest ++ other := List.cons_prefix_cons.mp start
      obtain ⟨left, nonempty, tail, rfl⟩ :
          ∃ left, left ≠ [] ∧ rest ++ left = tag.tail ∧ other = left ++ beyond := by
        rcases List.append_eq_append_iff.mp whole with ⟨left, eq, _⟩ | ⟨left, eq, eq'⟩
        · exact absurd (List.cons_prefix_cons.mpr ⟨rfl, left, eq.symm⟩) (apart tag)
        · refine ⟨left, ?_, eq.symm, eq'⟩
          rintro rfl
          exact apart tag (List.cons_prefix_cons.mpr ⟨rfl, [], by simpa using eq⟩)
      have plain : ¬HoldsTag rest := fun holds =>
        tag.not_opening_infix_tail (holds.opening_infix.trans ⟨[], left, tail⟩)
      obtain ⟨holds, _⟩ | ⟨_, _, rfl⟩ := behind'.holdsTag_or_eq
      · exact plain holds
      obtain ⟨last, rfl, _⟩ := of_isInert (tag.isInert_of_append_eq_tail tail nonempty _) behind
      refine free ⟨tag, [], last, ?_⟩
      rw [PartialTag.write, ← tail]
      simp
  | @tag tag rest inner text innerDepth depth included behind' _ inductionHypothesis =>
      rw [List.append_assoc, List.append_assoc, max_assoc]
      refine .tag tag included (inductionHypothesis fun holds => free (holds.of_infix ?_))
      rw [List.append_assoc]
      exact (List.suffix_append _ _).isInfix

/-- A round of replacements takes one level away. -/
theorem expandOnce
    (expansion : Expansion partials source depth text)
    (free : ¬HoldsTag text) :
    Expansion partials (expandOnce partials source) (depth - 1) text := by
  induction expansion with
  | nil => exact .nil
  | @literal c rest text depth apart _ inductionHypothesis =>
      have single : Expansion partials [c] 0 [c] := by
        refine .literal (fun tag start => ?_) .nil
        exact apart tag (start.trans ⟨rest, rfl⟩)
      rw [expandOnce_cons apart]
      simpa using single.append
        (inductionHypothesis fun holds => free (holds.of_infix (List.suffix_cons _ _).isInfix)) free
  | @tag tag rest inner text innerDepth depth included _ _ inductionHypothesis =>
      have behind := inductionHypothesis fun holds =>
        free (holds.of_infix (List.suffix_append _ _).isInfix)
      have depths : max (innerDepth + 1) depth - 1 = max innerDepth (depth - 1) := by omega
      rw [expandOnce_write_append, depths]
      exact included.append behind free

/-- An expansion that holds no tag is found in more rounds than it has levels. -/
theorem expandPartials_eq
    {rounds : Nat}
    (expansion : Expansion partials source depth text)
    (free : ¬HoldsTag text)
    (enough : depth < rounds) :
    expandPartials partials rounds source = some text := by
  induction rounds generalizing source depth with
  | zero => omega
  | succ rounds inductionHypothesis =>
      rw [expandPartials]
      obtain ⟨holds, positive⟩ | ⟨plain, _, rfl⟩ := expansion.holdsTag_or_eq
      · rw [if_pos (hasTag_partialTag?_iff.mpr holds)]
        exact inductionHypothesis (expansion.expandOnce free) (by omega)
      · rw [if_neg (mt hasTag_partialTag?_iff.mp plain)]

end Expansion

/-- What is found in any number of rounds holds no tag. -/
theorem not_holdsTag_of_expandPartials
    {rounds : Nat}
    (found : expandPartials partials rounds source = some text) :
    ¬HoldsTag text := by
  induction rounds generalizing source with
  | zero => cases found
  | succ rounds inductionHypothesis =>
      rw [expandPartials] at found
      split at found
      · exact inductionHypothesis found
      · next plain =>
          obtain rfl := Option.some.inj found
          exact mt hasTag_partialTag?_iff.mpr plain

/-! ## Texts that nest deeply -/

/-- Texts include one another to the given depth at least. -/
def Nests (partials : Partials) : Nat → List Char → Prop
  | 0, _ => True
  | depth + 1, text => ∃ inner, Includes partials text inner ∧ Nests partials depth inner

theorem Includes.of_infix
    {whole : List Char}
    (includes : Includes partials text inner)
    (within : text <:+: whole) :
    Includes partials whole inner := by
  obtain ⟨tag, inside, eq⟩ := includes
  exact ⟨tag, inside.trans within, eq⟩

namespace Nests

theorem of_infix
    {whole : List Char}
    (nests : Nests partials depth text)
    (within : text <:+: whole) :
    Nests partials depth whole := by
  cases depth with
  | zero => trivial
  | succ depth =>
      obtain ⟨inner, includes, nests⟩ := nests
      exact ⟨inner, includes.of_infix within, nests⟩

theorem of_le
    {less : Nat}
    (nests : Nests partials depth text)
    (le : less ≤ depth) :
    Nests partials less text := by
  induction less generalizing depth text with
  | zero => trivial
  | succ less inductionHypothesis =>
      obtain ⟨depth, rfl⟩ : ∃ greater, depth = greater + 1 := ⟨depth - 1, by omega⟩
      obtain ⟨inner, includes, nests⟩ := nests
      exact ⟨inner, includes, inductionHypothesis nests (by omega)⟩

end Nests

/-- Partials are inside one another to the depth of the expansion. -/
theorem Expansion.nests (expansion : Expansion partials source depth text) :
    Nests partials depth source := by
  induction expansion with
  | nil => trivial
  | @literal c rest _ _ _ _ inductionHypothesis =>
      exact inductionHypothesis.of_infix (List.suffix_cons c rest).isInfix
  | @tag tag rest _ _ innerDepth depth _ _ included behind =>
      rcases Nat.le_total depth (innerDepth + 1) with le | le
      · rw [max_eq_left le]
        exact ⟨_, ⟨tag, (List.prefix_append _ _).isInfix, rfl⟩, included⟩
      · rw [max_eq_right le]
        exact behind.of_infix (List.suffix_append _ _).isInfix

/-- Partials that come round to one that was there before are inside one another to any depth. -/
theorem ReachesCycle.nests (cycle : ReachesCycle partials source) (depth : Nat) :
    Nests partials depth source := by
  obtain ⟨inner, reached, round⟩ := cycle
  induction depth generalizing source with
  | zero => trivial
  | succ depth inductionHypothesis =>
      obtain ⟨next, includes, back⟩ :=
        Relation.TransGen.head'_iff.mp (Relation.TransGen.trans_right reached round)
      exact ⟨next, includes, inductionHypothesis back⟩

/-- A tag that begins in front of another one ends in front of it as well. -/
theorem PartialTag.exists_between
    {tag other : PartialTag}
    {c : Char}
    {front behind : List Char}
    (eq : c :: (front ++ (tag.write ++ behind)) = other.write ++ rest) :
    ∃ between, c :: front = other.write ++ between ∧ rest = between ++ (tag.write ++ behind) := by
  rw [← List.cons_append] at eq
  rcases List.append_eq_append_iff.mp eq with ⟨left, whole, same⟩ | ⟨between, same, whole⟩
  · rcases List.eq_nil_or_concat left with rfl | ⟨init, last, rfl⟩
    · exact ⟨[], by simpa using whole.symm, by simpa using same.symm⟩
    · have tail : front ++ init.concat last = other.tail := (List.cons.inj whole).2.symm
      have inert := other.isInert_of_append_eq_tail tail (by simp) rest
      obtain ⟨d, left, split⟩ := List.exists_cons_of_ne_nil (l := init.concat last) (by simp)
      rw [split] at inert same
      have none := partialTag?_eq_none_iff.mp (startsWithBraces_partialTag?.eq_none inert)
      exact absurd ⟨behind, same⟩ (none tag)
  · exact ⟨between, same, whole⟩

/-- The source of every partial that a text includes is put in. -/
theorem Includes.infix_expandOnce (includes : Includes partials text inner) :
    inner <:+: expandOnce partials text := by
  obtain ⟨tag, ⟨front, behind, whole⟩, rfl⟩ := includes
  rw [List.append_assoc] at whole
  subst whole
  induction length : front.length using Nat.strong_induction_on generalizing front with
  | _ n inductionHypothesis =>
      cases front with
      | nil =>
          rw [List.nil_append, expandOnce_write_append]
          exact (List.prefix_append _ _).isInfix
      | cons c front =>
          rw [List.length_cons] at length
          rcases start_cases c (front ++ (tag.write ++ behind)) with apart | ⟨other, rest, eq⟩
          · rw [List.cons_append, expandOnce_cons apart]
            exact (inductionHypothesis front.length (by omega) front rfl).trans
              (List.suffix_cons _ _).isInfix
          · obtain ⟨between, split, rfl⟩ := PartialTag.exists_between eq
            have shorter := congrArg List.length split
            simp only [List.length_cons, List.length_append, PartialTag.write] at shorter
            rw [List.cons_append, eq, expandOnce_write_append]
            exact (inductionHypothesis between.length (by omega) between rfl).trans
              (List.suffix_append _ _).isInfix

/-- Texts that nest too deeply are not expanded. -/
theorem Nests.expandPartials_eq_none (nests : Nests partials depth source) :
    expandPartials partials depth source = none := by
  induction depth generalizing source with
  | zero => rfl
  | succ depth inductionHypothesis =>
      obtain ⟨inner, includes, nests⟩ := nests
      have holds : HoldsTag source := by
        obtain ⟨tag, inside, _⟩ := includes
        exact ⟨tag, inside⟩
      rw [expandPartials, if_pos (hasTag_partialTag?_iff.mpr holds)]
      exact inductionHypothesis (nests.of_infix includes.infix_expandOnce)

/-! ## Sources that have an expansion -/

/-- A text has an expansion when all texts that it includes have one. -/
theorem exists_expansion_of_includes
    (included : ∀ inner, Includes partials text inner →
      ∃ depth expanded, Expansion partials inner depth expanded) :
    ∃ depth expanded, Expansion partials text depth expanded := by
  induction length : text.length using Nat.strong_induction_on generalizing text with
  | _ n inductionHypothesis =>
      cases text with
      | nil => exact ⟨0, [], .nil⟩
      | cons c rest =>
          rw [List.length_cons] at length
          rcases start_cases c rest with apart | ⟨tag, behind, eq⟩
          · obtain ⟨depth, expanded, expansion⟩ := inductionHypothesis rest.length (by omega)
              (fun inner includes => included inner
                (includes.of_infix (List.suffix_cons c rest).isInfix)) rfl
            exact ⟨depth, c :: expanded, .literal apart expansion⟩
          · have shorter := congrArg List.length eq
            simp only [List.length_cons, List.length_append, PartialTag.write] at shorter
            rw [eq] at included ⊢
            obtain ⟨innerDepth, inner, expansion⟩ :=
              included _ ⟨tag, (List.prefix_append _ _).isInfix, rfl⟩
            obtain ⟨depth, expanded, rest⟩ := inductionHypothesis behind.length (by omega)
              (fun inner includes => included inner
                (includes.of_infix (List.suffix_append _ _).isInfix)) rfl
            exact ⟨_, _, .tag tag expansion rest⟩

/-- There are finitely many sources of partials. -/
theorem finite_setOf_includes (partials : Partials) :
    {inner | ∃ text, Includes partials text inner}.Finite := by
  refine (List.finite_toSet ([] :: partials.entries.map (·.2.toList))).subset ?_
  rintro _ ⟨text, tag, _, rfl⟩
  simp only [partialSource, Partials.get?]
  cases found : partials.entries.lookup (String.ofList tag.name) with
  | none => exact List.mem_cons_self
  | some source =>
      refine List.mem_cons_of_mem _ (List.mem_map.mpr ⟨(String.ofList tag.name, source), ?_, rfl⟩)
      obtain ⟨front, behind, eq, _⟩ := List.lookup_eq_some_iff.mp found
      exact eq ▸ List.mem_append_right front List.mem_cons_self

/-- A source has an expansion, unless it comes to partials that include themselves. -/
theorem exists_expansion_or_reachesCycle (partials : Partials) (source : List Char) :
    (∃ depth text, Expansion partials source depth text) ∨ ReachesCycle partials source := by
  refine or_iff_not_imp_right.mpr fun acyclic => ?_
  let Reached := {inner // Relation.ReflTransGen (Includes partials) source inner}
  have finite : Finite Reached := by
    refine ((finite_setOf_includes partials).insert source).subset ?_ |>.to_subtype
    intro inner reached
    rcases Relation.ReflTransGen.cases_tail_iff _ _ _ |>.mp reached with rfl | ⟨text, _, includes⟩
    · exact .inl rfl
    · exact .inr ⟨text, includes⟩
  let below : Reached → Reached → Prop :=
    fun inner text => Relation.TransGen (Includes partials) text.1 inner.1
  have transitive : IsTrans Reached below := ⟨fun _ _ _ first second => second.trans first⟩
  have irreflexive : Std.Irrefl below := ⟨fun inner round => acyclic ⟨inner.1, inner.2, round⟩⟩
  have wellFounded : WellFounded below := Finite.wellFounded_of_trans_of_irrefl below
  -- What a text includes comes before the text itself, so it has an expansion already.
  have all : ∀ reached : Reached, ∃ depth text, Expansion partials reached.1 depth text := by
    intro reached
    induction reached using wellFounded.induction with
    | _ reached inductionHypothesis =>
        exact exists_expansion_of_includes fun inner includes =>
          inductionHypothesis ⟨inner, reached.2.tail includes⟩ (.single includes)
  exact all ⟨source, .refl⟩

/-! ## The greatest depth -/

/-- Every source has an expansion or comes to partials that include themselves. The expansion is
found exactly when it has less than sixteen levels and holds no tag itself. A source with more
levels, or with partials that include themselves, is refused with a message about the depth. -/
theorem expandPartials_eq_some_iff_depth
    (partials : Partials)
    (name source : String)
    (context : Json) :
    ((∃ depth text, Expansion partials source.toList depth text) ∨
        ReachesCycle partials source.toList) ∧
      (∀ depth text, Expansion partials source.toList depth text →
        (expandPartials partials partialDepth source.toList = some text ↔
          depth < 16 ∧ ¬HoldsTag text)) ∧
      ((∃ depth text, Expansion partials source.toList depth text ∧ 16 ≤ depth) ∨
          ReachesCycle partials source.toList →
        ∃ fault, fault.message = "partials nested deeper than 16 levels" ∧
          substitute partials name source context = .error (.render name fault)) := by
  have refused : Nests partials 16 source.toList →
      expandPartials partials partialDepth source.toList = none := Nests.expandPartials_eq_none
  refine ⟨exists_expansion_or_reachesCycle partials source.toList,
    fun depth text expansion => ⟨fun found => ⟨?_, not_holdsTag_of_expandPartials found⟩,
      fun ⟨less, free⟩ => expansion.expandPartials_eq free less⟩,
    fun deep => ⟨.nestedTooDeep, by decide, ?_⟩⟩
  · by_contra greater
    cases found.symm.trans (refused (expansion.nests.of_le (Nat.not_lt.mp greater)))
  · have nests : Nests partials 16 source.toList := by
      rcases deep with ⟨depth, text, expansion, greater⟩ | cycle
      · exact expansion.nests.of_le greater
      · exact cycle.nests 16
    rw [substitute, refused nests]

/-! ### A chain of partials -/

/-- The tag of a partial that is named by a number of letters. -/
def chainTag (number : Nat) : PartialTag where
  before := []
  name := List.replicate (number + 1) 'a'
  after := []
  blanksBefore := nofun
  nonempty := List.cons_ne_nil _ _
  inName c member := by
    rw [List.eq_of_mem_replicate member]
    decide +kernel
  blanksAfter := nofun

/-- Sixteen partials, of which each one includes the next one. -/
def chain : Partials where
  entries :=
    (List.range 15).map (fun number =>
      (String.ofList (chainTag number).name, String.ofList (chainTag (number + 1)).write)) ++
        [(String.ofList (chainTag 15).name, "x")]

theorem expansion_chain
    {depth : Nat}
    (within : depth ≤ 15) :
    Expansion chain (chainTag (15 - depth)).write (depth + 1) ['x'] := by
  induction depth with
  | zero =>
      have source : partialSource chain (chainTag 15).name = ['x'] := by decide
      have last : Expansion chain ['x'] 0 ['x'] :=
        .literal (partialTag?_eq_none_iff.mp (by decide)) .nil
      simpa using Expansion.tag (chainTag 15) (source ▸ last) .nil
  | succ depth inductionHypothesis =>
      have sources : ∀ number < 15, partialSource chain (chainTag number).name =
          (chainTag (number + 1)).write := by decide
      have source := sources (15 - (depth + 1)) (by omega)
      rw [show 15 - (depth + 1) + 1 = 15 - depth by omega] at source
      simpa using Expansion.tag (chainTag (15 - (depth + 1)))
        (source ▸ inductionHypothesis (by omega)) .nil

theorem expandPartials_eq_some_iff_depth_chain :
    Expansion chain (String.ofList (chainTag 1).write).toList 15 ['x'] ∧
      expandPartials chain partialDepth (String.ofList (chainTag 1).write).toList = some ['x'] ∧
        Expansion chain (String.ofList (chainTag 0).write).toList 16 ['x'] ∧
          ∃ fault, fault.message = "partials nested deeper than 16 levels" ∧
            substitute chain "t" (String.ofList (chainTag 0).write) .null =
              .error (.render "t" fault) := by
  have second : Expansion chain (String.ofList (chainTag 1).write).toList 15 ['x'] := by
    simpa using expansion_chain (Nat.le_succ 14)
  have first : Expansion chain (String.ofList (chainTag 0).write).toList 16 ['x'] := by
    simpa using expansion_chain (Nat.le_refl 15)
  have free : ¬HoldsTag ['x'] := by
    rw [← hasTag_partialTag?_iff]
    decide
  obtain ⟨_, found, _⟩ :=
    expandPartials_eq_some_iff_depth chain "t" (String.ofList (chainTag 1).write) .null
  obtain ⟨_, _, refused⟩ :=
    expandPartials_eq_some_iff_depth chain "t" (String.ofList (chainTag 0).write) .null
  exact ⟨second, (found 15 ['x'] second).mpr ⟨by decide, free⟩, first,
    refused (.inl ⟨16, ['x'], first, le_rfl⟩)⟩

/-- Sixteen partials inside one another are refused. -/
theorem deepest_chain_refused :
    Expansion chain (chainTag 0).write partialDepth ['x'] ∧
      expandPartials chain partialDepth (chainTag 0).write = none := by
  have expansion : Expansion chain (chainTag 0).write 16 ['x'] :=
    expansion_chain (Nat.le_refl 15)
  exact ⟨expansion, expansion.nests.expandPartials_eq_none⟩

end Render
end MailPress
