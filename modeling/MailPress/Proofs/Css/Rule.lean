import Mathlib.Data.List.Basic
import MailPress.Proofs.Css.Mark
import MailPress.Proofs.Css.Prelude

/-!
# Reading written declarations and rules

A declaration whose property is a word and whose value is a closed text without an
importance mark is read back from its written form, with the value in its written
form. The same holds of the declarations of a block. It is enough that the property is a
closed text that the reader would take as it is, and a value that is followed by a mark may
end in another one.

A written rule is one piece when any text follows, a written statement and a written block
of declarations are one piece each, and the head of a grouping at-rule is an opening piece.
-/

namespace MailPress
namespace Css

/-! ## Words -/

/-- A lowercase letter or digit of ASCII, a hyphen or an underscore. -/
def isWordChar (c : Char) : Bool :=
  isAtNameChar c && Text.lowerChar c == c

/-- A character of a property: one of a word, or one beyond ASCII that is no blank. -/
def isPropertyChar (c : Char) : Bool :=
  isWordChar c || (!Text.isAscii c && !Text.isBlank c)

theorem isPropertyChar_of_isWordChar
    {c : Char}
    (word : isWordChar c = true) :
    isPropertyChar c = true := by
  rw [isPropertyChar, word, Bool.true_or]

theorem isBlank_of_isPropertyChar
    {c : Char}
    (property : isPropertyChar c = true) :
    Text.isBlank c = false := by
  rw [isPropertyChar, Bool.or_eq_true, Bool.and_eq_true, Bool.not_eq_true',
    Bool.not_eq_true'] at property
  rcases property with word | ⟨_, nonblank⟩
  · exact isBlank_of_isAtNameChar (Bool.and_eq_true_iff.mp word).1
  · exact nonblank

theorem lowerChar_of_isPropertyChar
    {c : Char}
    (property : isPropertyChar c = true) :
    Text.lowerChar c = c := by
  rw [isPropertyChar, Bool.or_eq_true, Bool.and_eq_true, Bool.not_eq_true'] at property
  rcases property with word | ⟨beyond, _⟩
  · exact beq_iff_eq.mp (Bool.and_eq_true_iff.mp word).2
  · rw [Text.lowerChar, if_neg]
    intro upper
    simp only [Bool.and_eq_true, decide_eq_true_eq, Char.le_def, UInt32.le_iff_toNat_le] at upper
    have capital : 65 ≤ c.toNat ∧ c.toNat ≤ 90 := upper
    have large : ¬c.toNat < 128 := of_decide_eq_false beyond
    omega

theorem isInert_of_isPropertyChar
    {c : Char}
    (property : isPropertyChar c = true) :
    isInert c = true :=
  isInert_of_test property (by decide)

/-- A text of property characters is closed. -/
theorem isClosed_of_forall_isPropertyChar
    {text : List Char}
    (word : ∀ c ∈ text, isPropertyChar c = true) :
    IsClosed ['{', '}', ';', ','] text := by
  refine IsClosed.of_forall_isInert fun c member => ?_
  have property := word c member
  refine ⟨isInert_of_isPropertyChar property, fun barred => ?_⟩
  simp only [List.mem_cons, List.not_mem_nil, or_false] at barred
  rcases barred with rfl | rfl | rfl | rfl <;> exact absurd property (by decide)

theorem trim_of_forall_isPropertyChar
    {text : List Char}
    (word : ∀ c ∈ text, isPropertyChar c = true) :
    Text.trim text = text :=
  Text.trim_eq_self
    (fun c first => isBlank_of_isPropertyChar (word c (List.mem_of_mem_head? first)))
    (fun c last => isBlank_of_isPropertyChar (word c (List.mem_of_getLast? last)))

theorem lower_of_forall_isPropertyChar
    {text : String}
    (word : ∀ c ∈ text.toList, isPropertyChar c = true) :
    Text.lower text = text := by
  have same : text.toList.map Text.lowerChar = text.toList :=
    (List.map_congr_left fun c member => lowerChar_of_isPropertyChar (word c member)).trans
      (List.map_id' text.toList)
  rw [Text.lower, same, String.ofList_toList]

/-! ## One declaration -/

/-- A declaration that can be read back from its written form. -/
structure Declaration.IsLegible (declaration : Declaration) : Prop where
  /-- The property is not empty. -/
  property_ne : declaration.property ≠ ""
  /-- The property is a word. -/
  property_word : ∀ c ∈ declaration.property.toList, isPropertyChar c = true
  /-- The value is closed. -/
  value_closed : IsClosed ['{', '}', ';'] declaration.value.toList
  /-- The value does not consist of blanks alone. -/
  value_ne : Text.trim declaration.value.toList ≠ []
  /-- The value does not end in an importance mark. -/
  value_unmarked : ¬EndsMarked declaration.value.toList

instance (declaration : Declaration) : Decidable declaration.IsLegible :=
  decidable_of_iff
    (declaration.property ≠ "" ∧ declaration.property.toList.all isPropertyChar = true ∧
      IsClosed ['{', '}', ';'] declaration.value.toList ∧
      Text.trim declaration.value.toList ≠ [] ∧ ¬EndsMarked declaration.value.toList)
    ⟨fun ⟨property_ne, word, closed, value_ne, unmarked⟩ =>
        ⟨property_ne, List.all_eq_true.mp word, closed, value_ne, unmarked⟩,
      fun legible => ⟨legible.property_ne, List.all_eq_true.mpr legible.property_word,
        legible.value_closed, legible.value_ne, legible.value_unmarked⟩⟩

/-- A declaration whose texts are taken as they are when its written form is read. -/
structure Declaration.IsRestorable (declaration : Declaration) : Prop where
  /-- The property is not empty. -/
  property_ne : declaration.property ≠ ""
  /-- The property is closed. -/
  property_closed : IsClosed ['{', '}', ';'] declaration.property.toList
  /-- The property ends at the first colon. -/
  property_fresh : ':' ∉ declaration.property.toList
  /-- The property has no blanks at its ends. -/
  property_trim : Text.trim declaration.property.toList = declaration.property.toList
  /-- The property is lowercase. -/
  property_lower : Text.lower declaration.property = declaration.property
  /-- The value is closed. -/
  value_closed : IsClosed ['{', '}', ';'] declaration.value.toList
  /-- The value does not consist of blanks alone. -/
  value_ne : Text.trim declaration.value.toList ≠ []
  /-- A value without a mark does not end in one. -/
  value_unmarked : declaration.important = false → ¬EndsMarked declaration.value.toList

theorem Declaration.IsLegible.isRestorable
    {declaration : Declaration}
    (legible : declaration.IsLegible) :
    declaration.IsRestorable where
  property_ne := legible.property_ne
  property_closed := (isClosed_of_forall_isPropertyChar legible.property_word).mono (by simp)
  property_fresh member := absurd (legible.property_word ':' member) (by decide)
  property_trim := trim_of_forall_isPropertyChar legible.property_word
  property_lower := lower_of_forall_isPropertyChar legible.property_word
  value_closed := legible.value_closed
  value_ne := legible.value_ne
  value_unmarked _ := legible.value_unmarked

/-- The declaration with its value in its written form. -/
def Declaration.minified (declaration : Declaration) : Declaration :=
  { declaration with value := minifyValue declaration.value }

namespace Declaration

/-- The written mark of a declaration, if it has one. -/
def mark (declaration : Declaration) : List Char :=
  if declaration.important then "!important".toList else []

theorem toList_write (declaration : Declaration) :
    declaration.write.toList =
      declaration.property.toList ++
        ':' :: ((minifyValue declaration.value).toList ++ declaration.mark) := by
  unfold write mark
  cases declaration.important <;> simp

theorem isClosed_value_append_mark
    {declaration : Declaration}
    (restorable : declaration.IsRestorable) :
    IsClosed ['{', '}', ';'] ((minifyValue declaration.value).toList ++ declaration.mark) := by
  have valueClosed := (isTightened_minifyValue declaration.value).isClosed (by decide)
    restorable.value_closed
  unfold mark
  cases declaration.important with
  | false =>
      rw [if_neg Bool.false_ne_true, List.append_nil]
      exact valueClosed
  | true =>
      rw [if_pos rfl]
      exact valueClosed.append_cons (by decide) (by decide)
        (isClosed_of_forall_isPropertyChar (List.all_eq_true.mp (by decide))|>.mono (by simp))

/-- The written form of a restorable declaration is closed. -/
theorem isClosed_write
    (declaration : Declaration)
    (restorable : declaration.IsRestorable) :
    IsClosed ['{', '}', ';'] declaration.write.toList := by
  rw [toList_write]
  exact restorable.property_closed.append_cons (by decide) (by decide)
    (isClosed_value_append_mark restorable)

/-- The mark is taken off a written value, and nothing else. -/
theorem takeImportance_write
    {declaration : Declaration}
    (restorable : declaration.IsRestorable) :
    takeImportance
        (Text.trim ((minifyValue declaration.value).toList ++ declaration.mark)) =
      ((minifyValue declaration.value).toList, declaration.important) := by
  have tightened := isTightened_minifyValue declaration.value
  have trimmed := tightened.trim_eq
  unfold mark
  cases marked : declaration.important with
  | false =>
      rw [if_neg Bool.false_ne_true, List.append_nil, trimmed]
      exact takeImportance_of_not_endsMarked
        (not_endsMarked_minifyValue restorable.value_closed (restorable.value_unmarked marked))
  | true =>
      have value_ne := mt tightened.eq_nil_iff.mp restorable.value_ne
      have value_end := Text.isBlank_getLast?_trim (minifyValue declaration.value).toList
      rw [trimmed] at value_end
      rw [if_pos rfl, Text.trim_append trimmed value_ne (by decide) (by decide),
        show "!important".toList = '!' :: "important".toList by decide,
        takeImportance_of_endsMarked (by decide), Text.trimEnd_eq_self value_end]

/-- A restorable declaration is read back from its written form. -/
theorem readDeclaration_write
    (declaration : Declaration)
    (restorable : declaration.IsRestorable) :
    readDeclaration declaration.write.toList = some declaration.minified := by
  have property_ne : declaration.property.isEmpty = false := by
    simpa using restorable.property_ne
  have value_ne : (minifyValue declaration.value).toList ≠ [] :=
    mt (isTightened_minifyValue declaration.value).eq_nil_iff.mp restorable.value_ne
  rw [toList_write, readDeclaration, Text.splitOnce_append_cons restorable.property_fresh]
  dsimp only
  rw [takeImportance_write restorable, restorable.property_trim, String.ofList_toList,
    restorable.property_lower]
  simp [property_ne, value_ne, minified]

end Declaration

/-! ## Blocks -/

/-- The written form of a block between its braces. -/
def writtenBody (declarations : List Declaration) : List Char :=
  List.intercalate [';'] (declarations.map (·.write.toList))

theorem toList_writeBlock (declarations : List Declaration) :
    (writeBlock declarations).toList = '{' :: (writtenBody declarations ++ ['}']) := by
  simp [writeBlock, writtenBody, String.toList_intercalate, Function.comp_def]

section Blocks

variable {declarations : List Declaration}

/-- The written form of a restorable block is closed between its braces. -/
theorem isClosed_writtenBody
    (restorable : ∀ declaration ∈ declarations, declaration.IsRestorable) :
    IsClosed ['{', '}'] (writtenBody declarations) := by
  refine IsClosed.intercalate (by decide) (by decide) fun part member => ?_
  obtain ⟨declaration, present, rfl⟩ := List.mem_map.mp member
  exact (declaration.isClosed_write (restorable declaration present)).mono (by simp)

/-- A restorable block is read back from its written form. -/
theorem readDeclarationList_writtenBody
    (restorable : ∀ declaration ∈ declarations, declaration.IsRestorable) :
    readDeclarationList (writtenBody declarations) =
      declarations.map Declaration.minified := by
  have whole := (isClosed_writtenBody restorable).text_readUntil
  rw [readDeclarationList]
  rw [whole]
  cases declarations with
  | nil => rfl
  | cons first others =>
      have partsClosed : ∀ part ∈ (first :: others).map (·.write.toList),
          IsClosed [';'] part := by
        intro part member
        obtain ⟨declaration, present, rfl⟩ := List.mem_map.mp member
        exact (declaration.isClosed_write (restorable declaration present)).mono (by simp)
      rw [writtenBody, cutAtTopLevel_intercalate (by decide) (by simp) partsClosed,
        List.filterMap_map, List.filterMap_eq_map_iff_forall_eq_some]
      intro declaration present
      exact declaration.readDeclaration_write (restorable declaration present)

end Blocks

/-! ## Selector lists -/

/-- A selector that can be read back from its written form. -/
structure IsLegibleSelector (selector : String) : Prop where
  /-- The selector is closed, and no comma stands outside strings and brackets. -/
  closed : IsClosed ['{', '}', ';', ','] selector.toList
  /-- The selector does not consist of blanks alone. -/
  nonblank : Text.trim selector.toList ≠ []

instance (selector : String) : Decidable (IsLegibleSelector selector) :=
  decidable_of_iff
    (IsClosed ['{', '}', ';', ','] selector.toList ∧ Text.trim selector.toList ≠ [])
    ⟨fun ⟨closed, nonblank⟩ => ⟨closed, nonblank⟩, fun legible => ⟨legible.closed, legible.nonblank⟩⟩

/-- A written selector list. -/
def writtenSelectors (selectors : List String) : List Char :=
  List.intercalate [','] (selectors.map fun selector => (minifySelector selector).toList)

section SelectorLists

variable {selectors : List String}

theorem isClosed_of_mem_written
    (legible : ∀ selector ∈ selectors, IsLegibleSelector selector)
    {part : List Char}
    (member : part ∈ selectors.map fun selector => (minifySelector selector).toList) :
    IsClosed ['{', '}', ';', ','] part := by
  obtain ⟨selector, present, rfl⟩ := List.mem_map.mp member
  exact (isTightened_minifySelector selector).isClosed (by decide) (legible selector present).closed

theorem isClosed_writtenSelectors
    (legible : ∀ selector ∈ selectors, IsLegibleSelector selector) :
    IsClosed ['{', '}', ';'] (writtenSelectors selectors) :=
  IsClosed.intercalate (by decide) (by decide) fun _ member =>
    (isClosed_of_mem_written legible member).mono (by simp)

/-- A legible selector list is read back from its written form. -/
theorem readSelectorList_writtenSelectors
    (nonempty : selectors ≠ [])
    (legible : ∀ selector ∈ selectors, IsLegibleSelector selector) :
    readSelectorList (writtenSelectors selectors) = selectors.map minifySelector := by
  have cut : cutAtTopLevel ',' (writtenSelectors selectors) =
      selectors.map fun selector => (minifySelector selector).toList :=
    cutAtTopLevel_intercalate (by decide) (by simpa using nonempty) fun _ member =>
      (isClosed_of_mem_written legible member).mono (by simp)
  rw [readSelectorList, cut, List.map_map, List.filterMap_map,
    List.filterMap_eq_map_iff_forall_eq_some]
  intro selector present
  have tightened := isTightened_minifySelector selector
  have written_ne := mt tightened.eq_nil_iff.mp (legible selector present).nonblank
  simp [tightened.trim_eq, written_ne]

end SelectorLists

/-! ## Rules -/

/-- A rule that can be read back from its written form, if it has one. -/
structure Rule.IsLegible (rule : Rule) : Prop where
  /-- Every selector is legible. -/
  selectors : ∀ selector ∈ rule.selectors, IsLegibleSelector selector
  /-- The first selector does not start like an at-rule. -/
  start : ∀ first ∈ rule.selectors.head?, (Text.trim first.toList).head? ≠ some '@'
  /-- Every declaration is legible. -/
  declarations : ∀ declaration ∈ rule.declarations, declaration.IsLegible

instance (rule : Rule) : Decidable rule.IsLegible :=
  decidable_of_iff
    ((∀ selector ∈ rule.selectors, IsLegibleSelector selector) ∧
      (∀ first ∈ rule.selectors.head?, (Text.trim first.toList).head? ≠ some '@') ∧
      ∀ declaration ∈ rule.declarations, declaration.IsLegible)
    ⟨fun ⟨selectors, start, declarations⟩ => ⟨selectors, start, declarations⟩,
      fun legible => ⟨legible.selectors, legible.start, legible.declarations⟩⟩

/-- A rule whose texts are taken as they are when its written form, if it has one, is read. -/
structure Rule.IsRestorable (rule : Rule) : Prop where
  /-- Every selector is legible. -/
  selectors : ∀ selector ∈ rule.selectors, IsLegibleSelector selector
  /-- The first selector of a rule that is written does not start like an at-rule. -/
  start : rule.declarations ≠ [] →
    ∀ first ∈ rule.selectors.head?, (Text.trim first.toList).head? ≠ some '@'
  /-- Every declaration is restorable. -/
  declarations : ∀ declaration ∈ rule.declarations, declaration.IsRestorable

theorem Rule.IsLegible.isRestorable
    {rule : Rule}
    (legible : rule.IsLegible) :
    rule.IsRestorable where
  selectors := legible.selectors
  start _ := legible.start
  declarations declaration member := (legible.declarations declaration member).isRestorable

/-- The rule with all its texts in their written forms. -/
def Rule.minified (rule : Rule) : Rule :=
  ⟨rule.selectors.map minifySelector, rule.declarations.map Declaration.minified⟩

/-- Gaps are skipped up to a character that is no blank and starts no comment. -/
theorem skipGaps_eq_self
    {c : Char}
    {rest : List Char}
    (nonblank : Text.isBlank c = false)
    (uncommented : ¬(c = '/' ∧ rest.head? = some '*')) :
    skipGaps false (c :: rest) = c :: rest := by
  unfold skipGaps
  split
  · next empty => cases empty
  · next inside _ => cases inside
  · next inside _ => cases inside
  · next starts =>
      obtain ⟨rfl, rfl⟩ := List.cons.inj starts
      exact absurd ⟨rfl, rfl⟩ uncommented
  · next starts =>
      obtain ⟨rfl, rfl⟩ := List.cons.inj starts
      rw [if_neg (by simp [nonblank])]

theorem pieces_of_skipGaps_eq_nil
    {text : List Char}
    (nothing : skipGaps false text = []) :
    pieces text = [] := by
  rw [pieces]
  split
  · rfl
  · next c rest start => simp [nothing] at start

theorem pieces_nil : pieces [] = [] :=
  pieces_of_skipGaps_eq_nil rfl

/-- What the first piece of a text is, its first character tells, blanks and comments skipped. -/
theorem pieces_of_skipGaps_eq_cons
    {text rest : List Char}
    {c : Char}
    (start : skipGaps false text = c :: rest) :
    pieces text =
      if c = '}' then .closing :: pieces rest
      else if c = '@' then (readAtRule rest).1.toList ++ pieces (readAtRule rest).2
      else (readRule (c :: rest)).1.toList ++ pieces (readRule (c :: rest)).2 := by
  rw [pieces]
  split
  · next nothing => simp [start] at nothing
  · next d left split =>
      obtain ⟨rfl, rfl⟩ := List.cons.inj (start.symm.trans split)
      rfl

/-- The first piece of a text that starts with no gap. -/
theorem pieces_cons
    {c : Char}
    {rest : List Char}
    (nonblank : Text.isBlank c = false)
    (uncommented : ¬(c = '/' ∧ rest.head? = some '*')) :
    pieces (c :: rest) =
      if c = '}' then .closing :: pieces rest
      else if c = '@' then (readAtRule rest).1.toList ++ pieces (readAtRule rest).2
      else (readRule (c :: rest)).1.toList ++ pieces (readRule (c :: rest)).2 :=
  pieces_of_skipGaps_eq_cons (skipGaps_eq_self nonblank uncommented)

/-- A closed text in front of an inert character starts no comment. -/
theorem IsClosed.not_comment
    {barred rest : List Char}
    {c stop : Char}
    (closed : IsClosed barred (c :: rest))
    (inert : isInert stop = true)
    (more : List Char) :
    ¬(c = '/' ∧ (rest ++ stop :: more).head? = some '*') := by
  rintro ⟨rfl, star⟩
  cases rest with
  | nil =>
      obtain rfl := Option.some.inj star
      cases inert
  | cons d rest => exact closed.uncommented.1 ⟨rfl, star⟩

namespace Rule

variable {rule : Rule}

theorem toList_write
    (selectors_ne : rule.selectors ≠ [])
    (declarations_ne : rule.declarations ≠ []) :
    rule.write.toList =
      writtenSelectors rule.selectors ++ '{' :: (writtenBody rule.declarations ++ ['}']) := by
  rw [write, if_neg (by simp [selectors_ne, declarations_ne])]
  simp [toList_writeBlock, writtenSelectors, String.toList_intercalate, Function.comp_def]

/-- A restorable rule is read back from its written form. -/
theorem readRule_write
    (selectors_ne : rule.selectors ≠ [])
    (declarations_ne : rule.declarations ≠ [])
    (restorable : rule.IsRestorable)
    (rest : List Char) :
    readRule (rule.write.toList ++ rest) = (some (.whole (.rule rule.minified)), rest) := by
  have headClosed : IsClosed ['{', ';', '}'] (writtenSelectors rule.selectors) :=
    (isClosed_writtenSelectors restorable.selectors).mono (by simp)
  have bodyClosed : IsClosed ['}'] (writtenBody rule.declarations) :=
    (isClosed_writtenBody restorable.declarations).mono (by simp)
  have head := headClosed.readUntil_eq (show '{' ∈ ['{', ';', '}'] by decide) (by decide)
    (writtenBody rule.declarations ++ '}' :: rest)
  have body := bodyClosed.readUntil_eq (show '}' ∈ ['}'] by decide) (by decide) rest
  have selectors_eq := readSelectorList_writtenSelectors selectors_ne restorable.selectors
  have text_eq : rule.write.toList ++ rest =
      writtenSelectors rule.selectors ++ '{' :: (writtenBody rule.declarations ++ '}' :: rest) := by
    rw [toList_write selectors_ne declarations_ne]
    simp
  rw [text_eq, readRule, head]
  dsimp only
  rw [if_pos rfl, body, selectors_eq, readDeclarationList_writtenBody restorable.declarations,
    if_neg (by simpa using selectors_ne)]
  rfl

/-- A written rule starts like its first selector. -/
theorem head?_writtenSelectors
    {first : String}
    (others : List String)
    (nonblank : Text.trim first.toList ≠ []) :
    (writtenSelectors (first :: others)).head? = (Text.trim first.toList).head? := by
  have tightened := isTightened_minifySelector first
  have first_ne := mt tightened.eq_nil_iff.mp nonblank
  rw [← tightened.head?_eq]
  obtain ⟨c, rest, first_eq⟩ := List.exists_cons_of_ne_nil first_ne
  cases others <;> simp [writtenSelectors, first_eq, List.intercalate_cons_cons]

/-- A restorable rule that is written is one piece. -/
theorem pieces_write_append
    (selectors_ne : rule.selectors ≠ [])
    (declarations_ne : rule.declarations ≠ [])
    (restorable : rule.IsRestorable)
    (rest : List Char) :
    pieces (rule.write.toList ++ rest) = .whole (.rule rule.minified) :: pieces rest := by
  have read := readRule_write selectors_ne declarations_ne restorable rest
  have closed := isClosed_writtenSelectors restorable.selectors
  obtain ⟨first, others, selectors_eq⟩ := List.exists_cons_of_ne_nil selectors_ne
  have firstLegible := restorable.selectors first (by simp [selectors_eq])
  have head_eq := head?_writtenSelectors others firstLegible.nonblank
  have start := restorable.start declarations_ne first (by simp [selectors_eq])
  rw [← selectors_eq] at head_eq
  rw [toList_write selectors_ne declarations_ne, List.append_assoc] at read ⊢
  cases written : writtenSelectors rule.selectors with
  | nil =>
      rw [written] at head_eq
      exact absurd (List.head?_eq_none_iff.mp head_eq.symm) firstLegible.nonblank
  | cons c more =>
      rw [written] at closed read head_eq
      have nonblank : Text.isBlank c = false :=
        Text.isBlank_head?_trim first.toList c head_eq.symm
      have notClosing : c ≠ '}' := by
        rintro rfl
        exact closed.unbarred.2.1 rfl (by simp)
      have notAt : c ≠ '@' := by
        rintro rfl
        exact start head_eq.symm
      have cut := pieces_cons nonblank
        (closed.not_comment (show isInert '{' = true by decide)
          (writtenBody rule.declarations ++ ['}'] ++ rest))
      rw [if_neg notClosing, if_neg notAt] at cut
      simp only [List.cons_append, List.append_assoc] at cut read ⊢
      rw [cut, read]
      rfl

end Rule

/-! ## At-rules -/

/-- An at-rule whose head can be read back from its written form. -/
structure IsLegibleHead (name prelude : String) : Prop where
  /-- The name is not empty. -/
  name_ne : name ≠ ""
  /-- The name is a word. -/
  name_word : ∀ c ∈ name.toList, isWordChar c = true
  /-- The prelude is closed. -/
  prelude_closed : IsClosed ['{', '}', ';'] prelude.toList

instance (name prelude : String) : Decidable (IsLegibleHead name prelude) :=
  decidable_of_iff
    (name ≠ "" ∧ name.toList.all isWordChar = true ∧ IsClosed ['{', '}', ';'] prelude.toList)
    ⟨fun ⟨name_ne, word, closed⟩ => ⟨name_ne, List.all_eq_true.mp word, closed⟩,
      fun legible =>
        ⟨legible.name_ne, List.all_eq_true.mpr legible.name_word, legible.prelude_closed⟩⟩

/-- What is written between the name of an at-rule and the end of its head. -/
def writtenPrelude (prelude : String) : List Char :=
  if prelude.isEmpty then [] else ' ' :: (minifyPrelude prelude).toList

theorem toList_writeAtHead (name prelude : String) :
    (writeAtHead name prelude).toList = '@' :: (name.toList ++ writtenPrelude prelude) := by
  unfold writeAtHead writtenPrelude
  cases prelude.isEmpty <;> simp

theorem trim_writtenPrelude (prelude : String) :
    Text.trim (writtenPrelude prelude) = (minifyPrelude prelude).toList := by
  unfold writtenPrelude
  split
  · next empty =>
      rw [String.isEmpty_iff.mp empty]
      rfl
  · rw [Text.trim_cons_of_isBlank Text.isBlank_space, (isTightened_minifyPrelude prelude).trim_eq]

theorem isClosed_writtenPrelude
    {prelude : String}
    (closed : IsClosed ['{', '}', ';'] prelude.toList) :
    IsClosed ['{', ';', '}'] (writtenPrelude prelude) := by
  have reordered : IsClosed ['{', ';', '}'] prelude.toList := closed.mono (by simp)
  unfold writtenPrelude
  split
  · exact IsClosed.nil _
  · exact ((isTightened_minifyPrelude prelude).isClosed (by decide) reordered).cons (by decide)
      (by decide)

namespace IsLegibleHead

variable {name prelude : String}

theorem isAtNameChar_of_mem
    (legible : IsLegibleHead name prelude)
    {c : Char}
    (member : c ∈ name.toList) :
    isAtNameChar c = true :=
  (Bool.and_eq_true_iff.mp (legible.name_word c member)).1

theorem lower_name (legible : IsLegibleHead name prelude) : Text.lower name = name :=
  lower_of_forall_isPropertyChar fun c member =>
    isPropertyChar_of_isWordChar (legible.name_word c member)

/-- Where a written head is cut: behind the name, and before the stop. -/
theorem cut_eq
    (legible : IsLegibleHead name prelude)
    {stop : Char}
    (member : stop ∈ ['{', ';'])
    (rest : List Char) :
    (name.toList ++ (writtenPrelude prelude ++ stop :: rest)).takeWhile isAtNameChar =
        name.toList ∧
      readUntil ['{', ';', '}'] (.plain 0)
          ((name.toList ++ (writtenPrelude prelude ++ stop :: rest)).dropWhile isAtNameChar) =
        ⟨writtenPrelude prelude, some stop, rest⟩ := by
  have stopped : isInert stop = true ∧ isAtNameChar stop = false ∧ stop ∈ ['{', ';', '}'] := by
    simp only [List.mem_cons, List.not_mem_nil, or_false] at member
    rcases member with rfl | rfl <;> decide
  obtain ⟨inert, notName, isStop⟩ := stopped
  have behind : (writtenPrelude prelude ++ stop :: rest).takeWhile isAtNameChar = [] ∧
      (writtenPrelude prelude ++ stop :: rest).dropWhile isAtNameChar =
        writtenPrelude prelude ++ stop :: rest := by
    unfold writtenPrelude
    split
    · simp [notName]
    · have spaceNotName : isAtNameChar ' ' = false := by decide
      simp [spaceNotName]
  rw [List.takeWhile_append_of_pos fun c => legible.isAtNameChar_of_mem,
    List.dropWhile_append_of_pos fun c => legible.isAtNameChar_of_mem, behind.1, behind.2]
  refine ⟨List.append_nil _, ?_⟩
  exact (isClosed_writtenPrelude legible.prelude_closed).readUntil_eq isStop inert rest

/-- A written statement is read back. -/
theorem readAtRule_statement
    (legible : IsLegibleHead name prelude)
    (rest : List Char) :
    readAtRule (name.toList ++ (writtenPrelude prelude ++ ';' :: rest)) =
      (some (.whole (.statement name (minifyPrelude prelude))), rest) := by
  obtain ⟨name_eq, head_eq⟩ := legible.cut_eq (show ';' ∈ ['{', ';'] by decide) rest
  rw [readAtRule, name_eq, head_eq, String.ofList_toList, legible.lower_name]
  simp [trim_writtenPrelude, legible.name_ne]

/-- The written head of a grouping at-rule is read back. -/
theorem readAtRule_opening
    (legible : IsLegibleHead name prelude)
    (grouping : isGrouping name = true)
    (rest : List Char) :
    readAtRule (name.toList ++ (writtenPrelude prelude ++ '{' :: rest)) =
      (some (.opening name (minifyPrelude prelude)), rest) := by
  obtain ⟨name_eq, head_eq⟩ := legible.cut_eq (show '{' ∈ ['{', ';'] by decide) rest
  rw [readAtRule, name_eq, head_eq, String.ofList_toList, legible.lower_name]
  simp [trim_writtenPrelude, legible.name_ne, grouping]

/-- A written at-rule around declarations is read back. -/
theorem readAtRule_descriptors
    (legible : IsLegibleHead name prelude)
    (notGrouping : isGrouping name = false)
    {declarations : List Declaration}
    (restorable : ∀ declaration ∈ declarations, declaration.IsRestorable)
    (rest : List Char) :
    readAtRule (name.toList ++ (writtenPrelude prelude ++
        '{' :: (writtenBody declarations ++ '}' :: rest))) =
      (some (.whole (.descriptors name (minifyPrelude prelude)
        (declarations.map Declaration.minified))), rest) := by
  obtain ⟨name_eq, head_eq⟩ := legible.cut_eq (show '{' ∈ ['{', ';'] by decide)
    (writtenBody declarations ++ '}' :: rest)
  have bodyClosed : IsClosed ['}'] (writtenBody declarations) :=
    (isClosed_writtenBody restorable).mono (by simp)
  have body := bodyClosed.readUntil_eq (show '}' ∈ ['}'] by decide) (by decide) rest
  rw [readAtRule, name_eq, head_eq, String.ofList_toList, legible.lower_name]
  simp [trim_writtenPrelude, legible.name_ne, notGrouping, body,
    readDeclarationList_writtenBody restorable]

end IsLegibleHead

/-- The pieces of an at-rule. -/
theorem pieces_at (text : List Char) :
    pieces ('@' :: text) = (readAtRule text).1.toList ++ pieces (readAtRule text).2 := by
  have cut := pieces_cons (show Text.isBlank '@' = false by decide)
    (show ¬('@' = '/' ∧ text.head? = some '*') by simp)
  simpa using cut

/-- A closing brace is a piece of its own. -/
theorem pieces_closing (text : List Char) :
    pieces ('}' :: text) = .closing :: pieces text := by
  have cut := pieces_cons (show Text.isBlank '}' = false by decide)
    (show ¬('}' = '/' ∧ text.head? = some '*') by simp)
  simpa using cut

end Css
end MailPress
