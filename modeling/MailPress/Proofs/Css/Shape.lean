import MailPress.Proofs.Css.RoundTrip
import MailPress.Proofs.Text.Ascii

/-!
# The shape of what is read

Whatever the text, the reader yields names that are lowercase words, preludes without
blanks at their ends, selectors and values that are not blank, and blocks of the kind
that the name of the at-rule asks for. What it does not promise is that the texts are
closed.
-/

namespace MailPress
namespace Css

/-! ## Lowercase names -/

/-- A character of a name, lowercased, is a character of a word. -/
theorem isWordChar_lowerChar
    {c : Char}
    (named : isAtNameChar c = true) :
    isWordChar (Text.lowerChar c) = true := by
  rw [isWordChar, Text.lowerChar_lowerChar, beq_self_eq_true, Bool.and_true]
  by_cases capital : 65 ≤ c.toNat ∧ c.toNat ≤ 90
  · have moved := Text.toNat_lowerChar_of_upper capital.1 capital.2
    have small : 97 ≤ (Text.lowerChar c).toNat ∧ (Text.lowerChar c).toNat ≤ 122 := by omega
    simp only [isAtNameChar, Text.isAsciiAlphanumeric, Bool.or_eq_true, Bool.and_eq_true,
      decide_eq_true_eq, Char.le_def, UInt32.le_iff_toNat_le]
    exact .inl (.inl (.inl (.inl small)))
  · rw [Text.lowerChar_eq_self capital]
    exact named

/-- Lowercasing makes no blanks. -/
theorem isBlank_lowerChar
    {c : Char}
    (nonblank : Text.isBlank c = false) :
    Text.isBlank (Text.lowerChar c) = false := by
  by_cases capital : 65 ≤ c.toNat ∧ c.toNat ≤ 90
  · have moved := Text.toNat_lowerChar_of_upper capital.1 capital.2
    simp only [Text.isBlank, Bool.or_eq_false_iff, Bool.and_eq_false_iff, beq_eq_false_iff_ne,
      decide_eq_false_iff_not]
    omega
  · rw [Text.lowerChar_eq_self capital]
    exact nonblank

/-- Lowercasing leaves a trimmed text trimmed. -/
theorem trim_map_lowerChar (text : List Char) :
    Text.trim ((Text.trim text).map Text.lowerChar) = (Text.trim text).map Text.lowerChar := by
  refine Text.trim_eq_self (fun c first => ?_) (fun c last => ?_)
  · rw [List.head?_map] at first
    obtain ⟨d, found, rfl⟩ := Option.map_eq_some_iff.mp first
    exact isBlank_lowerChar (Text.isBlank_head?_trim text d found)
  · rw [List.getLast?_map] at last
    obtain ⟨d, found, rfl⟩ := Option.map_eq_some_iff.mp last
    exact isBlank_lowerChar (Text.isBlank_getLast?_trim text d found)

/-! ## The shapes -/

/-- A declaration as the reader yields it. -/
structure Declaration.IsShaped (declaration : Declaration) : Prop where
  /-- The property is not empty. -/
  property_ne : declaration.property ≠ ""
  /-- The property is lowercase. -/
  property_lower : ∀ c ∈ declaration.property.toList, Text.lowerChar c = c
  /-- The property has no blanks at its ends. -/
  property_trim : Text.trim declaration.property.toList = declaration.property.toList
  /-- The property ends at the first colon. -/
  property_fresh : ':' ∉ declaration.property.toList
  /-- The value does not consist of blanks alone. -/
  value_ne : Text.trim declaration.value.toList ≠ []
  /-- A value without a mark does not end in one. -/
  value_unmarked : declaration.important = false → ¬EndsMarked declaration.value.toList

/-- A rule as the reader yields it. -/
structure Rule.IsShaped (rule : Rule) : Prop where
  /-- There is a selector. -/
  selectors_ne : rule.selectors ≠ []
  /-- No selector consists of blanks alone. -/
  nonblank : ∀ selector ∈ rule.selectors, Text.trim selector.toList ≠ []
  /-- No comma stands outside strings and brackets, unless a backslash hides it. -/
  unbarred : ∀ selector ∈ rule.selectors, '\\' ∉ selector.toList →
    Unbarred [','] .top selector.toList
  /-- The declarations are shaped. -/
  declarations : ∀ declaration ∈ rule.declarations, declaration.IsShaped

/-- The head of an at-rule as the reader yields it. -/
structure IsShapedHead (name prelude : String) : Prop where
  /-- The name is not empty. -/
  name_ne : name ≠ ""
  /-- The name is a lowercase word. -/
  name_word : ∀ c ∈ name.toList, isWordChar c = true
  /-- The prelude has no blanks at its ends. -/
  prelude_trim : Text.trim prelude.toList = prelude.toList

/-- All that the reader promises. -/
def shaped : Demand where
  rule := Rule.IsShaped
  statement := IsShapedHead
  group name prelude _ := IsShapedHead name prelude ∧ isGrouping name = true
  descriptors name prelude declarations :=
    IsShapedHead name prelude ∧ isGrouping name = false ∧
      ∀ declaration ∈ declarations, declaration.IsShaped

/-! ## Declarations -/

/-- What is left of a trimmed value without its mark is trimmed. -/
theorem trim_takeImportance
    {text : List Char}
    (trimmed : Text.trim text = text) :
    Text.trim (takeImportance text).1 = (takeImportance text).1 := by
  unfold takeImportance
  split
  · next before mark split =>
      split
      · have text_eq := Text.eq_append_of_splitLast split
        refine Text.trim_eq_self ?_ (Text.isBlank_getLast?_trimEnd before)
        have start : ∀ c ∈ before.head?, Text.isBlank c = false := by
          have textStart := Text.isBlank_head?_trim text
          rw [trimmed, text_eq] at textStart
          cases before with
          | nil => simp
          | cons c before => exact textStart
        dsimp only
        rw [Text.head?_trimEnd before start]
        exact start
      · exact trimmed
  · exact trimmed

/-- Where no mark was taken off, there is none. -/
theorem not_endsMarked_takeImportance
    {text : List Char}
    (unmarked : (takeImportance text).2 = false) :
    ¬(takeImportance (takeImportance text).1).2 = true := by
  have kept : (takeImportance text).1 = text := by
    rw [takeImportance_of_not_endsMarked]
    simp [endsMarked_iff, unmarked]
  rw [kept, unmarked]
  exact Bool.false_ne_true

theorem Declaration.isShaped_of_readDeclaration
    {part : List Char}
    {declaration : Declaration}
    (read : readDeclaration part = some declaration) :
    declaration.IsShaped := by
  unfold readDeclaration at read
  split at read
  · cases read
  · next name text split =>
      have trimmed := trim_takeImportance (Text.trim_trim text)
      dsimp only at read
      split at read
      · cases read
      · next present =>
          obtain rfl := Option.some.inj read
          simp only [Bool.or_eq_true, not_or, List.isEmpty_iff, Bool.not_eq_true,
            String.isEmpty_eq_false_iff] at present
          refine ⟨present.1, fun c member => ?_, ?_, ?_, ?_, ?_⟩
          · rw [Text.toList_lower] at member
            obtain ⟨d, _, rfl⟩ := List.mem_map.mp member
            exact Text.lowerChar_lowerChar d
          · rw [Text.toList_lower, String.toList_ofList, trim_map_lowerChar]
          · rw [Text.toList_lower, String.toList_ofList]
            intro member
            obtain ⟨d, inName, lowered⟩ := List.mem_map.mp member
            obtain rfl := Text.eq_of_lowerChar_eq (by decide) lowered
            exact Text.not_mem_of_splitOnce split ((Text.trim_infix _).subset inName)
          · rw [String.toList_ofList, trimmed]
            exact present.2
          · intro unmarked
            rw [String.toList_ofList, endsMarked_iff]
            exact not_endsMarked_takeImportance unmarked

theorem isShaped_of_mem_readDeclarationList
    {text : List Char}
    {declaration : Declaration}
    (member : declaration ∈ readDeclarationList text) :
    declaration.IsShaped := by
  obtain ⟨part, _, read⟩ := List.mem_filterMap.mp member
  exact Declaration.isShaped_of_readDeclaration read

/-! ## Selectors -/

/-- The parts of a cut hold no separator outside strings and brackets, backslashes aside. The
first part goes on from the state in which the cut starts. -/
theorem unbarred_of_cutFrom_eq
    {separator : Char}
    {state : CutState}
    {text first : List Char}
    {others : List (List Char)}
    (cut : cutFrom separator state text = first :: others) :
    ('\\' ∉ first → Unbarred [separator] state first) ∧
      ∀ part ∈ others, '\\' ∉ part → Unbarred [separator] .top part := by
  fun_induction cutFrom separator state text generalizing first others with
  | case1 state =>
      obtain ⟨rfl, rfl⟩ := List.cons.inj cut
      exact ⟨fun _ => trivial, by simp⟩
  | case2 state c rest inductionHypothesis =>
      obtain ⟨second, parts, cutRest⟩ :=
        List.exists_cons_of_ne_nil (cutFrom_ne_nil separator state rest)
      rw [cutRest] at cut
      obtain ⟨rfl, rfl⟩ := List.cons.inj cut
      exact ⟨fun plain => absurd List.mem_cons_self plain, (inductionHypothesis cutRest).2⟩
  | case3 state =>
      obtain ⟨rfl, rfl⟩ := List.cons.inj cut
      exact ⟨fun plain => absurd List.mem_cons_self plain, by simp⟩
  | case4 state c rest _ _ ends inductionHypothesis =>
      obtain ⟨rfl, rfl⟩ := ends
      obtain ⟨rfl, rfl⟩ := List.cons.inj cut
      obtain ⟨second, parts, cutRest⟩ :=
        List.exists_cons_of_ne_nil (cutFrom_ne_nil c ⟨0, none⟩ rest)
      obtain ⟨secondUnbarred, othersUnbarred⟩ := inductionHypothesis cutRest
      refine ⟨fun _ => trivial, ?_⟩
      rw [cutRest]
      exact List.forall_mem_cons.mpr ⟨secondUnbarred, othersUnbarred⟩
  | case5 state c rest _ _ goes inductionHypothesis =>
      obtain ⟨second, parts, cutRest⟩ :=
        List.exists_cons_of_ne_nil (cutFrom_ne_nil separator (state.after c) rest)
      rw [cutRest] at cut
      obtain ⟨rfl, rfl⟩ := List.cons.inj cut
      obtain ⟨secondUnbarred, othersUnbarred⟩ := inductionHypothesis cutRest
      refine ⟨fun plain => ?_, othersUnbarred⟩
      obtain ⟨different, plain⟩ := List.ne_and_not_mem_of_not_mem_cons plain
      refine ⟨Ne.symm different, fun outside separates => ?_, secondUnbarred plain⟩
      exact goes ⟨List.mem_singleton.mp separates, outside⟩

/-- What the reader promises of a selector. -/
theorem shaped_of_mem_readSelectorList
    {text : List Char}
    {selector : String}
    (member : selector ∈ readSelectorList text) :
    Text.trim selector.toList ≠ [] ∧
      ('\\' ∉ selector.toList → Unbarred [','] .top selector.toList) := by
  obtain ⟨trimmed, inTrimmed, kept⟩ := List.mem_filterMap.mp member
  obtain ⟨part, inParts, rfl⟩ := List.mem_map.mp inTrimmed
  obtain ⟨first, others, cut⟩ := List.exists_cons_of_ne_nil (cutFrom_ne_nil ',' .top text)
  have unbarred : '\\' ∉ part → Unbarred [','] .top part := by
    obtain ⟨firstUnbarred, othersUnbarred⟩ := unbarred_of_cutFrom_eq cut
    have inCut : part ∈ cutFrom ',' .top text := inParts
    rw [cut] at inCut
    rcases List.mem_cons.mp inCut with rfl | later
    · exact firstUnbarred
    · exact othersUnbarred part later
  split at kept
  · cases kept
  · next present =>
      obtain rfl := Option.some.inj kept
      rw [String.toList_ofList, Text.trim_trim]
      refine ⟨by simpa using present, fun plain => ?_⟩
      refine (unbarred fun member => plain ?_).trim
      exact (Text.isBlank_or_mem_trim member).resolve_left (by decide)

/-! ## Pieces -/

/-- What a piece must be for the items that are nested from it to meet a demand. -/
def Piece.Meets (demand : Demand) : Piece → Prop
  | .whole item => item.Meets demand
  | .opening name prelude => ∀ items, demand.group name prelude items
  | .closing => True

theorem meets_of_mem_readRule
    {text : List Char}
    {piece : Piece}
    (member : piece ∈ (readRule text).1) :
    piece.Meets shaped := by
  unfold readRule at member
  dsimp only at member
  split at member
  · split at member
    · cases member
    · next present =>
        obtain rfl := Option.some.inj member
        refine ⟨by simpa using present, fun selector listed => ?_, fun selector listed => ?_,
          fun declaration listed => isShaped_of_mem_readDeclarationList listed⟩
        · exact (shaped_of_mem_readSelectorList listed).1
        · exact (shaped_of_mem_readSelectorList listed).2
  · cases member

theorem meets_of_mem_readAtRule
    {text : List Char}
    {piece : Piece}
    (member : piece ∈ (readAtRule text).1) :
    piece.Meets shaped := by
  have word : ∀ c ∈ (Text.lower (String.ofList (text.takeWhile isAtNameChar))).toList,
      isWordChar c = true := by
    intro c inName
    rw [Text.toList_lower, String.toList_ofList] at inName
    obtain ⟨d, inText, rfl⟩ := List.mem_map.mp inName
    exact isWordChar_lowerChar (List.all_eq_true.mp List.all_takeWhile d inText)
  unfold readAtRule at member
  dsimp only at member
  generalize Text.lower (String.ofList (text.takeWhile isAtNameChar)) = name at word member
  generalize readUntil ['{', ';', '}'] (.plain 0) (text.dropWhile isAtNameChar) = head at member
  have trimmed : Text.trim (String.ofList (Text.trim head.text)).toList =
      (String.ofList (Text.trim head.text)).toList := by
    rw [String.toList_ofList, Text.trim_trim]
  generalize String.ofList (Text.trim head.text) = prelude at trimmed member
  have yielded {yieldedPiece : Piece}
      (named : piece ∈ if name.isEmpty then none else some yieldedPiece)
      (met : IsShapedHead name prelude → yieldedPiece.Meets shaped) :
      piece.Meets shaped := by
    by_cases empty : name.isEmpty = true
    · rw [if_pos empty] at named
      cases named
    · rw [if_neg empty] at named
      obtain rfl := Option.some.inj named
      exact met ⟨by simpa using empty, word, trimmed⟩
  split at member
  · split at member
    · next grouping => exact yielded member fun head _ => ⟨head, grouping⟩
    · next notGrouping =>
        exact yielded member fun head => ⟨head, by simpa using notGrouping,
          fun declaration listed => isShaped_of_mem_readDeclarationList listed⟩
  · exact yielded member fun head => head
  · exact yielded member fun head => head

theorem meets_of_mem_pieces
    {text : List Char}
    {piece : Piece}
    (member : piece ∈ pieces text) :
    piece.Meets shaped := by
  fun_induction pieces text with
  | case1 text empty => cases member
  | case2 text rest start shorter inductionHypothesis =>
      rcases List.mem_cons.mp member with rfl | later
      · trivial
      · exact inductionHypothesis later
  | case3 text rest start shorter notClosing bound inductionHypothesis =>
      rcases List.mem_append.mp member with first | later
      · exact meets_of_mem_readAtRule (Option.mem_toList.mp first)
      · exact inductionHypothesis later
  | case4 text c rest start shorter notClosing notAt bound less inductionHypothesis =>
      rcases List.mem_append.mp member with first | later
      · exact meets_of_mem_readRule (Option.mem_toList.mp first)
      · exact inductionHypothesis later

/-! ## Nesting -/

/-- What the open groups of a nesting must be for the result to meet a demand. -/
def OpenGroup.Meets (demand : Demand) (group : OpenGroup) : Prop :=
  (∀ items, demand.group group.name group.prelude items) ∧ AllMeet demand group.before

theorem OpenGroup.allMeet_close
    {demand : Demand}
    {group : OpenGroup}
    {items : List Item}
    (groupMet : group.Meets demand)
    (itemsMet : AllMeet demand items) :
    AllMeet demand (group.close items) := by
  refine allMeet_iff.mpr fun item member => ?_
  rcases List.mem_append.mp member with before | last
  · exact allMeet_iff.mp groupMet.2 item before
  · obtain rfl := List.mem_singleton.mp last
    exact ⟨groupMet.1 items, itemsMet⟩

/-- Items nested from pieces that meet a demand meet it. -/
theorem allMeet_nest
    {demand : Demand}
    {groups : List OpenGroup}
    {items : List Item}
    {parts : List Piece}
    (groupsMet : ∀ group ∈ groups, group.Meets demand)
    (itemsMet : AllMeet demand items)
    (partsMet : ∀ piece ∈ parts, piece.Meets demand) :
    AllMeet demand (nest groups items parts) := by
  fun_induction nest groups items parts with
  | case1 groups items =>
      induction groups generalizing items with
      | nil => exact itemsMet
      | cons group groups inductionHypothesis =>
          obtain ⟨groupMet, groupsMet⟩ := List.forall_mem_cons.mp groupsMet
          exact inductionHypothesis _ groupsMet (OpenGroup.allMeet_close groupMet itemsMet)
  | case2 groups items item rest inductionHypothesis =>
      obtain ⟨first, others⟩ := List.forall_mem_cons.mp partsMet
      refine inductionHypothesis groupsMet (allMeet_iff.mpr fun added member => ?_) others
      rcases List.mem_append.mp member with before | last
      · exact allMeet_iff.mp itemsMet added before
      · obtain rfl := List.mem_singleton.mp last
        exact first
  | case3 groups items name prelude rest inductionHypothesis =>
      obtain ⟨first, others⟩ := List.forall_mem_cons.mp partsMet
      exact inductionHypothesis
        (List.forall_mem_cons.mpr ⟨⟨first, itemsMet⟩, groupsMet⟩) trivial others
  | case4 items rest inductionHypothesis =>
      exact inductionHypothesis groupsMet itemsMet (List.forall_mem_cons.mp partsMet).2
  | case5 items rest group groups inductionHypothesis =>
      obtain ⟨groupMet, groupsMet⟩ := List.forall_mem_cons.mp groupsMet
      exact inductionHypothesis groupsMet (OpenGroup.allMeet_close groupMet itemsMet)
        (List.forall_mem_cons.mp partsMet).2

/-- Whatever the text, what is read of it is shaped. -/
theorem allMeet_read (css : String) : AllMeet shaped (Sheet.read css).items :=
  allMeet_nest (by simp) trivial fun _ => meets_of_mem_pieces

end Css
end MailPress
