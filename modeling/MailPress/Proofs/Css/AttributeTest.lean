import MailPress.Css.Matching
import MailPress.Proofs.Css.Lexing
import MailPress.Proofs.Css.Mark
import MailPress.Proofs.Markup.Reference
import MailPress.Proofs.Text.Ascii

/-!
# Tests of attributes

A test of an attribute compares the value of the attribute with a value between quotes. The sign
of the relation is searched in the whole test, the value included, and some signs are searched
before others. So a test means what it says exactly when its value holds no sign that is searched
before its own.
-/

namespace MailPress
namespace Css

/-! ## Relations of values -/

/-- A value stands in a relation to the wanted value. -/
def Relation.Stands (wanted actual : List Char) : Relation → Prop
  | .present => True
  | .equals => actual = wanted
  | .includes =>
      wanted ≠ [] ∧ (∀ c ∈ wanted, Text.isAsciiBlank c = false) ∧
        ∃ before after, actual = before ++ (wanted ++ after) ∧
          (∀ c ∈ before.getLast?, Text.isAsciiBlank c = true) ∧
            ∀ c ∈ after.head?, Text.isAsciiBlank c = true
  | .dashMatches => actual = wanted ∨ wanted ++ ['-'] <+: actual
  | .startsWith => wanted ≠ [] ∧ wanted <+: actual
  | .endsWith => wanted ≠ [] ∧ wanted <:+ actual
  | .contains => wanted ≠ [] ∧ wanted <:+: actual

/-- A word of a value stands between blanks or ends. -/
theorem contains_asciiWords_iff
    {wanted actual : String} :
    (Text.asciiWords actual).contains wanted = true ↔
      Relation.includes.Stands wanted.toList actual.toList := by
  rw [List.contains_iff_mem, Text.asciiWords, Text.wordsOf, Relation.Stands]
  constructor
  · intro member
    obtain ⟨word, inside, rfl⟩ := List.mem_map.mp member
    obtain ⟨piece, nonempty⟩ := List.mem_filter.mp inside
    rw [String.toList_ofList]
    exact ⟨by simpa using nonempty, Text.mem_splitAtEach_iff.mp piece⟩
  · rintro ⟨nonempty, piece⟩
    refine List.mem_map.mpr ⟨wanted.toList, List.mem_filter.mpr ⟨?_, ?_⟩, String.ofList_toList⟩
    · exact Text.mem_splitAtEach_iff.mpr piece
    · simpa using nonempty

theorem isEmpty_eq_false_iff {text : String} : (!text.isEmpty) = true ↔ text.toList ≠ [] := by
  rw [Bool.not_eq_true', ← Bool.not_eq_true, String.isEmpty_iff, ne_eq, String.toList_eq_nil_iff]

theorem Relation.holds_iff_stands
    {relation : Relation}
    {wanted actual : String} :
    relation.holds wanted actual = true ↔ relation.Stands wanted.toList actual.toList := by
  cases relation with
  | present => exact ⟨fun _ => trivial, fun _ => rfl⟩
  | equals => rw [holds, beq_iff_eq, Stands, String.toList_inj]
  | includes => exact contains_asciiWords_iff
  | dashMatches =>
      rw [holds, Bool.or_eq_true, beq_iff_eq, Text.hasStart, Text.startsWith_iff, Stands,
        String.toList_append, String.toList_inj]
      rfl
  | startsWith =>
      rw [holds, Bool.and_eq_true, isEmpty_eq_false_iff, Text.hasStart, Text.startsWith_iff, Stands]
  | endsWith =>
      rw [holds, Bool.and_eq_true, isEmpty_eq_false_iff, Text.hasEnd, Text.endsWith_iff, Stands]
  | contains => rw [holds, Bool.and_eq_true, isEmpty_eq_false_iff, Text.holds_eq_true_iff, Stands]

/-- A selector that is one test of an attribute matches the elements that pass the test. -/
theorem matches_attr_iff
    {test : AttributeTest}
    {mode : MatchMode}
    {document : Markup.Document}
    {id : Nat} :
    (Selector.compound [.attr test]).matches mode document id = true ↔
      ∃ element actual, document.element? id = some element ∧
        element.decodedAttr? test.name = some actual ∧
          test.relation.Stands test.value.toList actual.toList := by
  simp only [Selector.matches, testsHold, Simple.holds, AttributeTest.holds, Bool.and_true,
    Option.any_eq_true, Relation.holds_iff_stands, exists_and_left]

/-! ## The inside of a bracket -/

/-- Text without quotes and closing brackets is taken as it is. -/
theorem takeBracket_append
    {front : List Char}
    (plain : ∀ c ∈ front, isQuote c = false ∧ c ≠ ']')
    (rest : List Char) :
    takeBracket none (front ++ rest) =
      (takeBracket none rest).map fun found => (front ++ found.1, found.2) := by
  induction front with
  | nil => simp
  | cons c front inductionHypothesis =>
      obtain ⟨⟨notQuote, notClosing⟩, plainRest⟩ := List.forall_mem_cons.mp plain
      rw [List.cons_append, takeBracket, if_neg notClosing]
      simp [notQuote, inductionHypothesis plainRest, Function.comp_def]

/-- A string is taken up to its end. -/
theorem takeBracket_quoted
    {quote : Char}
    {body : List Char}
    (fresh : quote ∉ body)
    (rest : List Char) :
    takeBracket (some quote) (body ++ quote :: rest) =
      (takeBracket none rest).map fun found => (body ++ quote :: found.1, found.2) := by
  induction body with
  | nil => simp [takeBracket]
  | cons c body inductionHypothesis =>
      obtain ⟨different, freshRest⟩ := List.ne_and_not_mem_of_not_mem_cons fresh
      simp [takeBracket, different.symm, inductionHypothesis freshRest, Function.comp_def]

/-- A selector in one pair of brackets is one test of an attribute. -/
theorem readSelector_bracket
    {inner : List Char}
    {test : AttributeTest}
    (taken : takeBracket none (inner ++ [']']) = some (inner, []))
    (read : readAttributeTest inner = some test) :
    readSelector ('[' :: (inner ++ [']'])) = some (.compound [.attr test]) := by
  have trimmed : Text.trim ('[' :: (inner ++ [']'])) = '[' :: (inner ++ [']']) := by
    refine Text.trim_eq_self ?_ ?_
    · rintro c ⟨⟩
      decide
    · rw [← List.cons_append, List.getLast?_concat]
      rintro c ⟨⟩
      decide
  have mark : takeTest true ('[' :: (inner ++ [']'])) = .mark (.bracketed inner) [] := by
    simp only [takeTest, taken, read, Option.isSome_some, if_true]
  have behind : takeTests false [] = ([], some []) := takeTests_of_stop rfl
  rw [readSelector_eq_joinWords, trimmed, selectorWords_of_mark (by decide) (by decide) mark, behind,
    Option.elim_some, selectorWords_nil]
  simp only [joinWords, List.foldlM_cons, List.foldlM_nil, Joining.takeWord, List.filterMap_cons,
    List.filterMap_nil, Mark.resolve, read, Option.map_some]
  rfl

/-! ## Signs -/

/-- The signs that are looked for before a sign. -/
def earlierSigns (sign : List Char) : List (List Char) :=
  (relationSigns.map Prod.fst).takeWhile (· != sign)

/-- The characters that stand in front of the equals sign in a sign. -/
def signMarks : List Char :=
  ['~', '|', '^', '$', '*']

theorem of_mem_signMarks {c : Char} (mark : c ∈ signMarks) :
    isQuote c = false ∧ c ≠ ']' ∧ c ≠ '=' := by
  simp only [signMarks, List.mem_cons, List.not_mem_nil, or_false] at mark
  rcases mark with rfl | rfl | rfl | rfl | rfl <;> decide

theorem isBlank_of_mem_signMarks {c : Char} (mark : c ∈ signMarks) : Text.isBlank c = false := by
  simp only [signMarks, List.mem_cons, List.not_mem_nil, or_false] at mark
  rcases mark with rfl | rfl | rfl | rfl | rfl <;> rfl

/-- Two characters that follow each other do not stand in a text without the second one, nor over
its end if the first one is not its last. -/
theorem pair_infix_append_iff
    {a e : Char}
    {front rest : List Char}
    (fresh : e ∉ front)
    (last : front.getLast? ≠ some a) :
    [a, e] <:+: front ++ rest ↔ [a, e] <:+: rest := by
  refine ⟨fun inside => ?_, fun inside => inside.trans (List.suffix_append _ _).isInfix⟩
  induction front with
  | nil => exact inside
  | cons c front inductionHypothesis =>
      obtain ⟨_, freshRest⟩ := List.ne_and_not_mem_of_not_mem_cons fresh
      rw [List.cons_append, List.infix_cons_iff] at inside
      rcases inside with start | inside
      · obtain ⟨rfl, next⟩ := List.cons_prefix_cons.mp start
        cases front with
        | nil => exact absurd rfl last
        | cons d front =>
            obtain ⟨rfl, _⟩ := List.cons_prefix_cons.mp next
            exact absurd List.mem_cons_self freshRest
      · refine inductionHypothesis freshRest ?_ inside
        cases front with
        | nil => exact nofun
        | cons d front => rwa [List.getLast?_cons_cons] at last

section Signs

variable {sign marks : List Char} {relation : Relation}

/-- A sign ends in an equals sign, with one other character in front of it or none. The signs
that are looked for earlier have another one. -/
theorem exists_marks
    (known : (sign, relation) ∈ relationSigns) :
    ∃ marks, sign = marks ++ ['='] ∧ (∀ c ∈ marks, c ∈ signMarks) ∧
      ∀ earlier ∈ earlierSigns sign, ∃ a ∈ signMarks, earlier = [a, '='] ∧
        marks.getLast? ≠ some a := by
  simp only [relationSigns, List.mem_cons, List.not_mem_nil, or_false, Prod.mk.injEq] at known
  rcases known with ⟨rfl, _⟩ | ⟨rfl, _⟩ | ⟨rfl, _⟩ | ⟨rfl, _⟩ | ⟨rfl, _⟩ | ⟨rfl, _⟩
  · exact ⟨['~'], rfl, by simp [signMarks], by simp [earlierSigns, relationSigns]⟩
  · exact ⟨['|'], rfl, by simp [signMarks], by simp [earlierSigns, relationSigns, signMarks]⟩
  · exact ⟨['^'], rfl, by simp [signMarks], by simp [earlierSigns, relationSigns, signMarks]⟩
  · exact ⟨['$'], rfl, by simp [signMarks], by simp [earlierSigns, relationSigns, signMarks]⟩
  · exact ⟨['*'], rfl, by simp [signMarks], by simp [earlierSigns, relationSigns, signMarks]⟩
  · exact ⟨[], rfl, by simp [signMarks], by simp [earlierSigns, relationSigns, signMarks]⟩

/-- The signs in the order in which they are looked for, cut at a sign. -/
theorem exists_relationSigns_eq
    (known : (sign, relation) ∈ relationSigns) :
    ∃ front rest, relationSigns = front ++ (sign, relation) :: rest ∧
      front.map Prod.fst = earlierSigns sign := by
  simp only [relationSigns, List.mem_cons, List.not_mem_nil, or_false, Prod.mk.injEq] at known
  rcases known with ⟨rfl, rfl⟩ | ⟨rfl, rfl⟩ | ⟨rfl, rfl⟩ | ⟨rfl, rfl⟩ | ⟨rfl, rfl⟩ | ⟨rfl, rfl⟩
  · exact ⟨[], _, rfl, by decide⟩
  · exact ⟨relationSigns.take 1, _, rfl, by decide⟩
  · exact ⟨relationSigns.take 2, _, rfl, by decide⟩
  · exact ⟨relationSigns.take 3, _, rfl, by decide⟩
  · exact ⟨relationSigns.take 4, _, rfl, by decide⟩
  · exact ⟨relationSigns.take 5, _, rfl, by decide⟩

/-- A test is cut at the first sign that occurs in it. -/
theorem readAttributeTest_of_first
    {front rest : List (List Char × Relation)}
    {inner left right : List Char}
    (order : relationSigns = front ++ (sign, relation) :: rest)
    (absent : ∀ earlier ∈ front, ¬earlier.1 <:+: inner)
    (split : Text.splitOnce sign inner = some (left, right)) :
    readAttributeTest inner = some ⟨Text.lower (String.ofList (Text.trim left)), relation,
      String.ofList (unquote (Text.trim right))⟩ := by
  have first : relationSigns.findSome? (fun sign =>
      (Text.splitOnce sign.1 inner).map fun parts => (parts, sign.2)) =
        some ((left, right), relation) := by
    have none : front.findSome? (fun sign =>
        (Text.splitOnce sign.1 inner).map fun parts => (parts, sign.2)) = none := by
      rw [List.findSome?_eq_none_iff]
      intro earlier member
      rw [Text.splitOnce_eq_none_iff_absent.mpr (absent earlier member), Option.map_none]
    rw [order, List.findSome?_append, none, Option.none_or, List.findSome?_cons, split]
    rfl
  rw [readAttributeTest]
  simp only [first]

/-- A test is cut at its sign, when no earlier sign stands behind it and no other mark in front. -/
theorem readAttributeTest_append
    {left right : List Char}
    (known : (marks ++ ['='], relation) ∈ relationSigns)
    (fresh : '=' ∉ left)
    (last : ∀ c ∈ left.getLast?, c ∉ signMarks)
    (absent : ∀ earlier ∈ earlierSigns (marks ++ ['=']), ¬earlier <:+: right) :
    readAttributeTest (left ++ (marks ++ '=' :: right)) =
      some ⟨Text.lower (String.ofList (Text.trim left)), relation,
        String.ofList (unquote (Text.trim right))⟩ := by
  obtain ⟨front, rest, order, earlierEq⟩ := exists_relationSigns_eq known
  obtain ⟨marks', same, isMark, others⟩ := exists_marks known
  obtain rfl := List.append_cancel_right same
  have freshMarks : '=' ∉ marks := fun member => (of_mem_signMarks (isMark _ member)).2.2 rfl
  refine readAttributeTest_of_first order (fun pair member => ?_)
    (Text.splitOnce_append_concat fresh freshMarks right)
  have isEarlier := earlierEq ▸ List.mem_map_of_mem (f := Prod.fst) member
  obtain ⟨a, mark, eq, different⟩ := others _ isEarlier
  have freshFront : '=' ∉ left ++ marks := by
    rw [List.mem_append, not_or]
    exact ⟨fresh, freshMarks⟩
  have lastFront : (left ++ marks).getLast? ≠ some a := by
    rw [List.getLast?_append]
    cases inMarks : marks.getLast? with
    | some b => exact fun found => different (inMarks.trans found)
    | none => exact fun found => last a found mark
  rw [eq, ← List.append_assoc, pair_infix_append_iff freshFront lastFront, List.infix_cons_iff,
    or_iff_right fun start => (of_mem_signMarks mark).2.2 (List.cons_prefix_cons.mp start).1, ← eq]
  exact absent _ isEarlier

/-- Without an equals sign, a test asks for an attribute alone. -/
theorem readAttributeTest_of_fresh {inner : List Char} (fresh : '=' ∉ inner) :
    readAttributeTest inner =
      if (Text.lower (String.ofList (Text.trim inner))).isEmpty then none
      else some ⟨Text.lower (String.ofList (Text.trim inner)), .present, ""⟩ := by
  have noSign : relationSigns.findSome? (fun sign =>
      (Text.splitOnce sign.1 inner).map fun parts => (parts, sign.2)) = none := by
    rw [List.findSome?_eq_none_iff]
    rintro ⟨sign, relation⟩ known
    obtain ⟨marks, rfl, _⟩ := exists_marks known
    rw [Option.map_eq_none_iff, Text.splitOnce_eq_none_iff_absent]
    exact fun inside => fresh (inside.subset (by simp))
  simp only [readAttributeTest, noSign]

end Signs

/-! ## Written tests -/

/-- A character of a plain attribute name: a small letter, a digit or a hyphen. -/
def isLowerNameChar (c : Char) : Bool :=
  ('a' ≤ c && c ≤ 'z') || Text.isAsciiDigit c || c == '-'

/-- A test as it is written between its brackets, with the value in quotes. -/
def testInside (name before sign after value : List Char) : List Char :=
  name ++ (before ++ (sign ++ (after ++ '"' :: (value ++ ['"']))))

theorem of_isLowerNameChar {c : Char} (named : isLowerNameChar c = true) :
    Text.isBlank c = false ∧ Text.lowerChar c = c ∧ isQuote c = false ∧ c ≠ ']' ∧ c ≠ '=' ∧
      c ∉ signMarks := by
  have codes : ∀ code < 128, isLowerNameChar (Char.ofNat code) = true →
      Text.isBlank (Char.ofNat code) = false ∧
        Text.lowerChar (Char.ofNat code) = Char.ofNat code ∧ isQuote (Char.ofNat code) = false ∧
          Char.ofNat code ≠ ']' ∧ Char.ofNat code ≠ '=' ∧ Char.ofNat code ∉ signMarks := by
    decide
  have small : c.toNat < 128 := by
    simp only [isLowerNameChar, Text.isAsciiDigit, Bool.or_eq_true, Bool.and_eq_true,
      decide_eq_true_eq, beq_iff_eq, Char.le_def, UInt32.le_iff_toNat_le] at named
    rcases named with (⟨_, upper⟩ | ⟨_, upper⟩) | rfl
    · exact Nat.lt_of_le_of_lt upper (by decide)
    · exact Nat.lt_of_le_of_lt upper (by decide)
    · decide
  have here := codes c.toNat small
  rw [Char.ofNat_toNat] at here
  exact here named

theorem of_isBlank {c : Char} (blank : Text.isBlank c = true) :
    isQuote c = false ∧ c ≠ ']' ∧ c ≠ '=' ∧ c ∉ signMarks :=
  ⟨isQuote_of_isBlank blank, ne_of_test blank rfl, ne_of_test blank rfl,
    not_mem_of_test blank (by decide)⟩

section Written

variable {name before marks after value : List Char} {relation : Relation}

/-- The parts of a written test: a plain name, blanks on both sides of the sign, and no double
quote in the value. -/
structure IsWritten (name before marks after value : List Char) : Prop where
  /-- The name is plain. -/
  name : ∀ c ∈ name, isLowerNameChar c = true
  /-- Blanks stand in front of the sign. -/
  before : ∀ c ∈ before, Text.isBlank c = true
  /-- The sign has no other marks than signs have. -/
  marks : ∀ c ∈ marks, c ∈ signMarks
  /-- Blanks stand behind the sign. -/
  after : ∀ c ∈ after, Text.isBlank c = true
  /-- The value ends at the closing quote. -/
  value : '"' ∉ value

namespace IsWritten

/-- What stands in front of the equals sign. -/
theorem of_mem_front
    (written : IsWritten name before marks after value)
    {c : Char}
    (member : c ∈ name ++ (before ++ marks)) :
    isQuote c = false ∧ c ≠ ']' ∧ c ≠ '=' := by
  rcases List.mem_append.mp member with inName | member
  · have plain := of_isLowerNameChar (written.name c inName)
    exact ⟨plain.2.2.1, plain.2.2.2.1, plain.2.2.2.2.1⟩
  · rcases List.mem_append.mp member with inBefore | inMarks
    · have blank := of_isBlank (written.before c inBefore)
      exact ⟨blank.1, blank.2.1, blank.2.2.1⟩
    · exact of_mem_signMarks (written.marks c inMarks)

/-- No mark stands in front of the sign. -/
theorem not_mem_signMarks
    (written : IsWritten name before marks after value)
    {c : Char}
    (member : c ∈ name ++ before) :
    c ∉ signMarks := by
  rcases List.mem_append.mp member with inName | inBefore
  · exact (of_isLowerNameChar (written.name c inName)).2.2.2.2.2
  · exact (of_isBlank (written.before c inBefore)).2.2.2

theorem testInside_eq (name before marks after value : List Char) :
    testInside name before (marks ++ ['=']) after value =
      (name ++ (before ++ marks)) ++ '=' :: (after ++ '"' :: (value ++ ['"'])) := by
  simp [testInside]

/-- A written test ends at its bracket. -/
theorem takeBracket_testInside (written : IsWritten name before marks after value) :
    takeBracket none (testInside name before (marks ++ ['=']) after value ++ [']']) =
      some (testInside name before (marks ++ ['=']) after value, []) := by
  have plain : ∀ c ∈ name ++ (before ++ marks) ++ '=' :: after, isQuote c = false ∧ c ≠ ']' := by
    intro c member
    rcases List.mem_append.mp member with front | behind
    · exact ⟨(written.of_mem_front front).1, (written.of_mem_front front).2.1⟩
    · rcases List.mem_cons.mp behind with rfl | inAfter
      · decide
      · exact ⟨(of_isBlank (written.after c inAfter)).1, (of_isBlank (written.after c inAfter)).2.1⟩
  have whole : testInside name before (marks ++ ['=']) after value ++ [']'] =
      (name ++ (before ++ marks) ++ '=' :: after) ++ '"' :: (value ++ '"' :: [']']) := by
    simp [testInside]
  have string : takeBracket none ('"' :: (value ++ '"' :: [']'])) =
      some ('"' :: (value ++ ['"']), []) := by
    rw [takeBracket, if_neg (by decide), if_pos (by decide), takeBracket_quoted written.value]
    simp [takeBracket]
  rw [whole, takeBracket_append plain, string, Option.map_some, testInside_eq]
  simp

/-- A sign of two characters that has another first one stands behind the sign of a written test,
if anywhere. -/
theorem pair_infix_front_iff
    (written : IsWritten name before marks after value)
    {a : Char}
    (mark : a ∈ signMarks)
    (different : marks.getLast? ≠ some a)
    {rest : List Char} :
    [a, '='] <:+: (name ++ (before ++ marks)) ++ '=' :: rest ↔ [a, '='] <:+: rest := by
  have fresh : '=' ∉ name ++ (before ++ marks) := fun member =>
    (written.of_mem_front member).2.2 rfl
  have last : (name ++ (before ++ marks)).getLast? ≠ some a := by
    intro last
    rw [← List.append_assoc, List.getLast?_append] at last
    cases inMarks : marks.getLast? with
    | some b =>
        rw [inMarks, Option.some_or] at last
        exact different (inMarks.trans last)
    | none =>
        rw [inMarks, Option.none_or] at last
        exact written.not_mem_signMarks (List.mem_of_getLast? last) mark
  rw [pair_infix_append_iff fresh last, List.infix_cons_iff]
  exact or_iff_right fun start => (of_mem_signMarks mark).2.2 (List.cons_prefix_cons.mp start).1

theorem not_mem_after (written : IsWritten name before marks after value) : '=' ∉ after :=
  fun member => (of_isBlank (written.after _ member)).2.2.1 rfl

/-- Such a sign stands in a written test exactly when it stands in the value. -/
theorem pair_infix_iff
    (written : IsWritten name before marks after value)
    {a : Char}
    (mark : a ∈ signMarks)
    (different : marks.getLast? ≠ some a) :
    [a, '='] <:+: testInside name before (marks ++ ['=']) after value ↔ [a, '='] <:+: value := by
  have fresh : '=' ∉ after ++ ['"'] := by
    rw [List.mem_append, not_or]
    exact ⟨written.not_mem_after, by decide⟩
  have last : (after ++ ['"']).getLast? ≠ some a := by
    rw [List.getLast?_concat]
    rintro ⟨⟩
    exact absurd mark (by decide)
  have behind : after ++ '"' :: (value ++ ['"']) = (after ++ ['"']) ++ (value ++ ['"']) := by simp
  rw [testInside_eq, written.pair_infix_front_iff mark different, behind,
    pair_infix_append_iff fresh last, List.infix_concat_iff, or_iff_right]
  rintro ⟨front, whole⟩
  simpa using congrArg List.getLast? whole

/-- Without an earlier sign in the value, a written test is read as it is written. -/
theorem readAttributeTest_eq
    (written : IsWritten name before marks after value)
    (known : (marks ++ ['='], relation) ∈ relationSigns)
    (absent : ∀ earlier ∈ earlierSigns (marks ++ ['=']), ¬earlier <:+: value) :
    readAttributeTest (testInside name before (marks ++ ['=']) after value) =
      some ⟨String.ofList name, relation, String.ofList value⟩ := by
  obtain ⟨marks', same, _, others⟩ := exists_marks known
  obtain rfl := List.append_cancel_right same
  have absentBehind : ∀ earlier ∈ earlierSigns (marks ++ ['=']),
      ¬earlier <:+: after ++ '"' :: (value ++ ['"']) := by
    intro earlier isEarlier
    obtain ⟨a, mark, eq, different⟩ := others _ isEarlier
    rw [eq, ← written.pair_infix_front_iff mark different, ← testInside_eq,
      written.pair_infix_iff mark different, ← eq]
    exact absent earlier isEarlier
  have fresh : '=' ∉ name ++ before := fun member =>
    (written.of_mem_front (List.append_assoc .. ▸ List.mem_append_left marks member)).2.2 rfl
  have last : ∀ c ∈ (name ++ before).getLast?, c ∉ signMarks := fun c found =>
    written.not_mem_signMarks (List.mem_of_getLast? found)
  have whole : testInside name before (marks ++ ['=']) after value =
      name ++ before ++ (marks ++ '=' :: (after ++ '"' :: (value ++ ['"']))) := by
    simp [testInside]
  have nameTrimmed : Text.trim (name ++ before) = name := by
    rw [Text.trim_append_of_forall_isBlank written.before]
    exact Text.trim_eq_self_of_forall fun c member => (of_isLowerNameChar (written.name c member)).1
  have quotedTrimmed : Text.trim ('"' :: (value ++ ['"'])) = '"' :: (value ++ ['"']) := by
    refine Text.trim_eq_self ?_ ?_
    · rintro c ⟨⟩
      decide
    · rw [← List.cons_append, List.getLast?_concat]
      rintro c ⟨⟩
      decide
  have noTrail : ∀ c ∈ ([] : List Char), Text.isBlank c = true := List.forall_mem_nil _
  have valueTrimmed :=
    Text.trim_append_append written.after noTrail quotedTrimmed (List.cons_ne_nil _ _)
  rw [List.append_nil] at valueTrimmed
  have lowered : Text.lower (String.ofList name) = String.ofList name := by
    rw [Text.lower, String.toList_ofList]
    refine congrArg String.ofList ((List.map_congr_left fun c member => ?_).trans (List.map_id' name))
    exact (of_isLowerNameChar (written.name c member)).2.1
  have unquoted : unquote ('"' :: (value ++ ['"'])) = value := by
    simp [unquote, isQuote]
  rw [whole, readAttributeTest_append known fresh last absentBehind, nameTrimmed, valueTrimmed,
    lowered, unquoted]

/-- What stands in front of such a sign has the opening quote in it. -/
theorem quote_mem_of_splitOnce
    (written : IsWritten name before marks after value)
    {a : Char}
    (mark : a ∈ signMarks)
    (different : marks.getLast? ≠ some a)
    {left right : List Char}
    (cut : Text.splitOnce [a, '='] (testInside name before (marks ++ ['=']) after value) =
      some (left, right)) :
    '"' ∈ left := by
  by_contra fresh
  have freshLeft : '"' ∉ left ++ [a, '='] := by
    rw [List.mem_append, not_or]
    refine ⟨fresh, fun member => ?_⟩
    rcases List.mem_cons.mp member with rfl | equals
    · exact absurd mark (by decide)
    · exact absurd equals (by decide)
  have whole : left ++ [a, '='] ++ right =
      ((name ++ (before ++ marks)) ++ '=' :: after) ++ '"' :: (value ++ ['"']) := by
    rw [List.append_assoc, ← Text.eq_append_of_splitOnce cut, testInside_eq,
      List.append_assoc _ ('=' :: after), List.cons_append]
  have inFront : [a, '='] <:+: (name ++ (before ++ marks)) ++ '=' :: after := by
    rcases List.append_eq_append_iff.mp whole with ⟨between, eq, _⟩ | ⟨between, eq, rest⟩
    · exact ⟨left, between, eq.symm⟩
    · cases between with
      | nil => exact ⟨left, [], by simpa using eq⟩
      | cons c between =>
          obtain ⟨rfl, _⟩ := List.cons.inj rest
          rw [eq] at freshLeft
          exact absurd (List.mem_append_right _ List.mem_cons_self) freshLeft
  rw [written.pair_infix_front_iff mark different] at inFront
  exact written.not_mem_after (inFront.subset (by simp))

/-- With an earlier sign in the value, a written test is read as one of an attribute whose name
has a quote in it. -/
theorem exists_readAttributeTest_eq
    (written : IsWritten name before marks after value)
    (known : (marks ++ ['='], relation) ∈ relationSigns)
    {earlier : List Char}
    (isEarlier : earlier ∈ earlierSigns (marks ++ ['=']))
    (inside : earlier <:+: value) :
    ∃ test, readAttributeTest (testInside name before (marks ++ ['=']) after value) = some test ∧
      '"' ∈ test.name.toList := by
  obtain ⟨front, rest, order, earlierEq⟩ := exists_relationSigns_eq known
  obtain ⟨marks', same, _, others⟩ := exists_marks known
  obtain rfl := List.append_cancel_right same
  -- The first sign that stands in the test is one of the earlier ones.
  obtain ⟨⟨sign, other⟩, front', rest', split, occurs, absent⟩ :
      ∃ first front' rest', front = front' ++ first :: rest' ∧
        first.1 <:+: testInside name before (marks ++ ['=']) after value ∧
          ∀ pair ∈ front', ¬pair.1 <:+: testInside name before (marks ++ ['=']) after value := by
    obtain ⟨a, mark, rfl, different⟩ := others _ isEarlier
    obtain ⟨pair, member, eq⟩ := List.mem_map.mp (earlierEq ▸ isEarlier)
    have found : (front.find? fun pair => decide (pair.1 <:+:
        testInside name before (marks ++ ['=']) after value)).isSome = true := by
      rw [List.find?_isSome]
      refine ⟨pair, member, decide_eq_true ?_⟩
      rw [eq]
      exact (written.pair_infix_iff mark different).mpr inside
    obtain ⟨first, found⟩ := Option.isSome_iff_exists.mp found
    obtain ⟨occurs, front', rest', split, absent⟩ := List.find?_eq_some_iff_append.mp found
    exact ⟨first, front', rest', split, of_decide_eq_true occurs, fun pair member => by
      simpa using absent pair member⟩
  obtain ⟨a, mark, rfl, different⟩ := others sign (earlierEq ▸ List.mem_map_of_mem (f := Prod.fst)
    (split ▸ List.mem_append_right front' List.mem_cons_self))
  obtain ⟨⟨left, right⟩, cut⟩ := Option.ne_none_iff_exists'.mp
    (mt Text.splitOnce_eq_none_iff_absent.mp (not_not.mpr occurs))
  have newOrder : relationSigns =
      front' ++ ([a, '='], other) :: (rest' ++ (marks ++ ['='], relation) :: rest) := by
    rw [order, split, List.append_assoc, List.cons_append]
  refine ⟨_, readAttributeTest_of_first newOrder absent cut, ?_⟩
  rw [Text.toList_lower, String.toList_ofList]
  refine List.mem_map.mpr ⟨'"', ?_, by decide⟩
  have quote := written.quote_mem_of_splitOnce mark different cut
  obtain ⟨lead, trail, whole, leadBlanks, trailBlanks⟩ := Text.exists_trim left
  rw [whole, List.mem_append, List.mem_append] at quote
  rcases quote with (inLead | inside) | inTrail
  · exact absurd (leadBlanks _ inLead) (by decide)
  · exact inside
  · exact absurd (trailBlanks _ inTrail) (by decide)

end IsWritten

end Written

/-! ## What tests mean -/

/-- A value that holds an earlier sign stands in the relation to itself. -/
theorem Relation.stands_self
    {sign value earlier : List Char}
    {relation : Relation}
    (known : (sign, relation) ∈ relationSigns)
    (isEarlier : earlier ∈ earlierSigns sign)
    (inside : earlier <:+: value) :
    relation.Stands value value := by
  have nonempty : value ≠ [] := by
    rintro rfl
    obtain ⟨_, _, _, others⟩ := exists_marks known
    obtain ⟨a, _, rfl, _⟩ := others earlier isEarlier
    cases List.infix_nil.mp inside
  simp only [relationSigns, List.mem_cons, List.not_mem_nil, or_false, Prod.mk.injEq] at known
  rcases known with ⟨rfl, _⟩ | ⟨_, rfl⟩ | ⟨_, rfl⟩ | ⟨_, rfl⟩ | ⟨_, rfl⟩ | ⟨_, rfl⟩
  · cases isEarlier
  · exact .inl rfl
  · exact ⟨nonempty, List.prefix_rfl⟩
  · exact ⟨nonempty, List.suffix_rfl⟩
  · exact ⟨nonempty, List.infix_rfl⟩
  · exact rfl

/-- A document with one element that has one attribute. -/
def singleAttribute (name value : String) : Markup.Document where
  nodes := #[⟨.root, none, [1]⟩,
    ⟨.element ⟨"a", [⟨name, Markup.escapeAttribute value⟩], false⟩, some 0, []⟩]

theorem decodedAttr?_singleAttribute (name value : String) :
    Markup.Element.decodedAttr? ⟨"a", [⟨name, Markup.escapeAttribute value⟩], false⟩ name =
      some value := by
  simp [Markup.Element.decodedAttr?, Markup.Element.attr?, Markup.decode_escapeAttribute]

theorem name_eq_of_decodedAttr?
    {name value other actual : String}
    (found : Markup.Element.decodedAttr? ⟨"a", [⟨name, value⟩], false⟩ other = some actual) :
    other = name := by
  by_contra different
  simp [Markup.Element.decodedAttr?, Markup.Element.attr?, Ne.symm different] at found

/-- A test of an attribute with a quoted value is understood. It matches the elements that have
the attribute with a value in the relation exactly when the quoted value holds no sign that is
looked for before the sign of the test. -/
theorem attribute_test_means_relation_iff
    {name before sign after value : List Char}
    {relation : Relation}
    (plain : ∀ c ∈ name, isLowerNameChar c = true)
    (blanksBefore : ∀ c ∈ before, Text.isBlank c = true)
    (known : (sign, relation) ∈ relationSigns)
    (blanksAfter : ∀ c ∈ after, Text.isBlank c = true)
    (unquoted : '"' ∉ value) :
    ∃ selector,
      Selector.read (String.ofList ('[' :: (testInside name before sign after value ++ [']']))) =
          some selector ∧
        ((∀ mode document id, selector.matches mode document id = true ↔
            ∃ element actual, document.element? id = some element ∧
              element.decodedAttr? (String.ofList name) = some actual ∧
                relation.Stands value actual.toList) ↔
          ∀ earlier ∈ earlierSigns sign, ¬earlier <:+: value) := by
  obtain ⟨marks, rfl, isMark, _⟩ := exists_marks known
  have written : IsWritten name before marks after value :=
    ⟨plain, blanksBefore, isMark, blanksAfter, unquoted⟩
  have understood {test : AttributeTest}
      (read : readAttributeTest (testInside name before (marks ++ ['=']) after value) = some test) :
      Selector.read (String.ofList
        ('[' :: (testInside name before (marks ++ ['=']) after value ++ [']']))) =
          some (.compound [.attr test]) := by
    rw [Selector.read, String.toList_ofList]
    exact readSelector_bracket written.takeBracket_testInside read
  by_cases absent : ∀ earlier ∈ earlierSigns (marks ++ ['=']), ¬earlier <:+: value
  · refine ⟨_, understood (written.readAttributeTest_eq known absent),
      iff_of_true (fun mode document id => ?_) absent⟩
    rw [matches_attr_iff]
    simp only [String.toList_ofList]
  · simp only [not_forall, not_not] at absent
    obtain ⟨earlier, isEarlier, inside⟩ := absent
    obtain ⟨test, read, quote⟩ := written.exists_readAttributeTest_eq known isEarlier inside
    refine ⟨_, understood read, iff_of_false (fun means => ?_) fun absent =>
      absent earlier isEarlier inside⟩
    -- The test asks for an attribute with another name, which no element with one attribute has.
    have matched := (means .static (singleAttribute (String.ofList name) (String.ofList value)) 1).mpr
      ⟨_, _, rfl, decodedAttr?_singleAttribute .., by
        rw [String.toList_ofList]
        exact Relation.stands_self known isEarlier inside⟩
    obtain ⟨element, actual, ⟨⟩, found, _⟩ := matches_attr_iff.mp matched
    have named := name_eq_of_decodedAttr? found
    rw [named, String.toList_ofList] at quote
    exact absurd (plain _ quote) (by decide)

/-! ### Links -/

theorem attribute_test_means_relation_iff_https :
    (∀ c ∈ ['h', 'r', 'e', 'f'], isLowerNameChar c = true) ∧
      (['^', '='], Relation.startsWith) ∈ relationSigns ∧
        ∃ selector, Selector.read "[href ^= \"https:\"]" = some selector ∧
          ∀ mode document id, selector.matches mode document id = true ↔
            ∃ element actual, document.element? id = some element ∧
              element.decodedAttr? "href" = some actual ∧
                Relation.startsWith.Stands "https:".toList actual.toList := by
  have plain : ∀ c ∈ ['h', 'r', 'e', 'f'], isLowerNameChar c = true :=
    List.all_eq_true.mp (by decide)
  have blank : ∀ c ∈ [' '], Text.isBlank c = true :=
    List.forall_mem_singleton.mpr rfl
  have known : (['^', '='], Relation.startsWith) ∈ relationSigns := by decide
  have unquoted : '"' ∉ "https:".toList := by decide
  obtain ⟨selector, read, means⟩ :=
    attribute_test_means_relation_iff plain blank known blank unquoted
  exact ⟨plain, known, selector, read, means.mpr (by decide)⟩

/-- A test for a value with another sign in it does not match an element that has the value. -/
theorem sign_in_value_misread :
    ∃ selector, Selector.read "[href=\"x~=y\"]" = some selector ∧
      ∃ element, (singleAttribute "href" "x~=y").element? 1 = some element ∧
        element.decodedAttr? "href" = some "x~=y" ∧
          Relation.equals.Stands "x~=y".toList "x~=y".toList ∧
            selector.matches .static (singleAttribute "href" "x~=y") 1 = false := by
  have read : readSelector ('[' :: ("href=\"x~=y\"".toList ++ [']'])) =
      some (.compound [.attr ⟨"href=\"x", .includes, "y\""⟩]) :=
    readSelector_bracket (by decide) (by decide)
  exact ⟨_, read, _, rfl, by decide, rfl, by decide⟩

end Css
end MailPress
