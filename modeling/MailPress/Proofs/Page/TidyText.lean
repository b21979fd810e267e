import Mathlib
import MailPress.Page.PlainText
import MailPress.Proofs.Text.Blank
import MailPress.Proofs.Text.Search

/-!
# Tidy texts

The lines of a plain text are tidied before they are folded to ASCII: each is trimmed, the
first and the last are not blank, and no two neighbours are.

Folding drops the characters that have no ASCII form. What it leaves of the lines is tidy
exactly when enough is left of them: of the first and the last line, of one of two neighbours,
and of what stands in front of the first space of a line and behind its last.
-/

namespace MailPress
namespace Page

open Markup (Document)
open Text (isBlank isAscii asciiForm splitAtEach trim)

/-! ## Tidy lines -/

/-- Nothing can be seen of a line. -/
def IsBlankLine (line : List Char) : Prop :=
  ∀ c ∈ line, isBlank c = true

/-- Lines that are tidy. -/
structure AreTidy (lines : List (List Char)) : Prop where
  /-- The first line is not blank. -/
  first : ∀ line ∈ lines.head?, ¬IsBlankLine line
  /-- The last line is not blank. -/
  last : ∀ line ∈ lines.getLast?, ¬IsBlankLine line
  /-- Of two neighbouring lines, one is not blank. -/
  single : lines.IsChain fun line next => ¬(IsBlankLine line ∧ IsBlankLine next)
  /-- No line starts or ends with a space. -/
  edges : ∀ line ∈ lines, line.head? ≠ some ' ' ∧ line.getLast? ≠ some ' '

/-- A text is a single line feed, or its lines are tidy and end in one line feed. -/
def IsTidyText (text : List Char) : Prop :=
  text = ['\n'] ∨ ∃ body, text = body ++ ['\n'] ∧ AreTidy (splitAtEach (· == '\n') body)

/-! ## Folded lines -/

/-- A line folded to ASCII. -/
def foldLine (line : List Char) : List Char :=
  line.flatMap asciiForm

/-- A character is lost when it has no ASCII form. -/
def IsLost (c : Char) : Prop :=
  asciiForm c = []

/-- Something can be seen of a character that is folded. -/
def IsShown (c : Char) : Prop :=
  ∃ d ∈ asciiForm c, isBlank d = false

/-- Enough is left of some lines when they are folded. -/
structure FoldTidily (lines : List (List Char)) : Prop where
  /-- Something is seen of the first line. -/
  first : ∀ line ∈ lines.head?, ∃ c ∈ line, IsShown c
  /-- Something is seen of the last line. -/
  last : ∀ line ∈ lines.getLast?, ∃ c ∈ line, IsShown c
  /-- Something is seen of one of two neighbouring lines. -/
  single : lines.IsChain fun line next => (∃ c ∈ line, IsShown c) ∨ ∃ c ∈ next, IsShown c
  /-- Something is left in front of a space. -/
  front : ∀ line ∈ lines, ∀ before after, line = before ++ ' ' :: after →
    ∃ c ∈ before, ¬IsLost c
  /-- Something is left behind a space. -/
  back : ∀ line ∈ lines, ∀ before after, line = before ++ ' ' :: after →
    ∃ c ∈ after, ¬IsLost c

/-- The forms that a character can take in ASCII. -/
theorem asciiForm_cases (c : Char) :
    (isAscii c = true ∧ asciiForm c = [c]) ∨
      asciiForm c ∈ [['\''], ['"'], ['-'], ['.', '.', '.'], []] := by
  unfold asciiForm
  by_cases ascii : isAscii c = true
  · exact .inl ⟨ascii, if_pos ascii⟩
  · rw [if_neg ascii]
    right
    repeat' split
    all_goals decide

theorem isAscii_of_mem_asciiForm
    {c d : Char}
    (member : d ∈ asciiForm c) :
    isAscii d = true := by
  rcases asciiForm_cases c with ⟨ascii, form⟩ | form
  · rw [form, List.mem_singleton] at member
    rwa [member]
  · have letters : ([['\''], ['"'], ['-'], ['.', '.', '.'], []].all (·.all isAscii)) = true := by
      decide
    exact List.all_eq_true.mp (List.all_eq_true.mp letters _ form) d member

/-- Only a blank becomes a blank. -/
theorem eq_of_mem_asciiForm
    {c d : Char}
    (member : d ∈ asciiForm c)
    (blank : isBlank d = true) :
    d = c := by
  rcases asciiForm_cases c with ⟨_, form⟩ | form
  · rwa [form, List.mem_singleton] at member
  · have letters : ([['\''], ['"'], ['-'], ['.', '.', '.'], []].all
        (·.all (!isBlank ·))) = true := by decide
    have shown := List.all_eq_true.mp (List.all_eq_true.mp letters _ form) d member
    rw [blank] at shown
    cases shown

/-- A letter that is not lost can be seen. -/
theorem isShown_of_not_isLost
    {c : Char}
    (letter : isBlank c = false)
    (kept : ¬IsLost c) :
    IsShown c := by
  obtain ⟨d, rest, form⟩ := List.exists_cons_of_ne_nil kept
  have member : d ∈ asciiForm c := form ▸ List.mem_cons_self
  refine ⟨d, member, ?_⟩
  rw [← Bool.not_eq_true]
  intro blank
  rw [eq_of_mem_asciiForm member blank, letter] at blank
  cases blank

theorem isBlankLine_foldLine_iff
    {line : List Char} :
    IsBlankLine (foldLine line) ↔ ¬∃ c ∈ line, IsShown c := by
  constructor
  · rintro blank ⟨c, member, d, form, letter⟩
    rw [blank d (List.mem_flatMap.mpr ⟨c, member, form⟩)] at letter
    cases letter
  · intro unseen d member
    obtain ⟨c, inside, form⟩ := List.mem_flatMap.mp member
    rw [← Bool.not_eq_false]
    exact fun letter => unseen ⟨c, inside, d, form, letter⟩

theorem head?_foldLine_iff
    {line : List Char} :
    (foldLine line).head? = some ' ' ↔
      ∃ before after, line = before ++ ' ' :: after ∧ ∀ c ∈ before, IsLost c := by
  induction line with
  | nil => simp [foldLine]
  | cons c line inductionHypothesis =>
      have folded : foldLine (c :: line) = asciiForm c ++ foldLine line := rfl
      rw [folded]
      by_cases lost : IsLost c
      · have notSpace : c ≠ ' ' := by
          rintro rfl
          cases lost
        rw [show asciiForm c = [] from lost, List.nil_append, inductionHypothesis]
        constructor
        · rintro ⟨before, after, rfl, allLost⟩
          exact ⟨c :: before, after, rfl, List.forall_mem_cons.mpr ⟨lost, allLost⟩⟩
        · rintro ⟨_ | ⟨d, before⟩, after, split, allLost⟩
          · exact absurd (List.cons.inj split).1 notSpace
          · exact ⟨before, after, (List.cons.inj split).2, (List.forall_mem_cons.mp allLost).2⟩
      · obtain ⟨d, rest, form⟩ := List.exists_cons_of_ne_nil lost
        rw [form, List.cons_append, List.head?_cons, Option.some_inj]
        constructor
        · rintro rfl
          have same := eq_of_mem_asciiForm (c := c) (form ▸ List.mem_cons_self) Text.isBlank_space
          exact ⟨[], line, by rw [← same]; rfl, nofun⟩
        · rintro ⟨_ | ⟨e, before⟩, after, split, allLost⟩
          · rw [(List.cons.inj split).1] at form
            exact (List.cons.inj form).1.symm
          · rw [(List.cons.inj split).1] at lost
            exact absurd (allLost e List.mem_cons_self) lost

theorem reverse_foldLine (line : List Char) :
    (foldLine line).reverse = foldLine line.reverse := by
  have palindrome (c : Char) : (asciiForm c).reverse = asciiForm c := by
    rcases asciiForm_cases c with ⟨_, form⟩ | form
    · rw [form, List.reverse_singleton]
    · generalize asciiForm c = letters at form
      revert letters
      decide
  simp [foldLine, List.reverse_flatMap, Function.comp_def, palindrome]

theorem getLast?_foldLine_iff
    {line : List Char} :
    (foldLine line).getLast? = some ' ' ↔
      ∃ before after, line = before ++ ' ' :: after ∧ ∀ c ∈ after, IsLost c := by
  rw [← List.head?_reverse, reverse_foldLine, head?_foldLine_iff]
  constructor
  · rintro ⟨after, before, split, allLost⟩
    refine ⟨before.reverse, after.reverse, ?_, by simpa using allLost⟩
    rw [← List.reverse_reverse line, split]
    simp
  · rintro ⟨before, after, rfl, allLost⟩
    exact ⟨after.reverse, before.reverse, by simp, by simpa using allLost⟩

/-- Lines that are folded are tidy exactly when enough is left of them. -/
theorem areTidy_map_foldLine_iff
    {lines : List (List Char)} :
    AreTidy (lines.map foldLine) ↔ FoldTidily lines := by
  have seen {line : List Char} : ¬IsBlankLine (foldLine line) ↔ ∃ c ∈ line, IsShown c := by
    rw [isBlankLine_foldLine_iff, not_not]
  constructor
  · intro tidy
    refine ⟨?_, ?_, ?_, ?_, ?_⟩
    · intro line first
      exact seen.mp (tidy.first _ (by rw [List.head?_map, first, Option.map_some]; rfl))
    · intro line last
      exact seen.mp (tidy.last _ (by rw [List.getLast?_map, last, Option.map_some]; rfl))
    · refine (List.isChain_map _ |>.mp tidy.single).imp fun line next single => ?_
      rw [← seen, ← seen]
      exact not_and_or.mp single
    · rintro line member before after split
      by_contra allLost
      exact (tidy.edges _ (List.mem_map_of_mem member)).1
        (head?_foldLine_iff.mpr ⟨before, after, split, by simpa using allLost⟩)
    · rintro line member before after split
      by_contra allLost
      exact (tidy.edges _ (List.mem_map_of_mem member)).2
        (getLast?_foldLine_iff.mpr ⟨before, after, split, by simpa using allLost⟩)
  · intro left
    refine ⟨?_, ?_, ?_, ?_⟩
    · intro folded first
      rw [List.head?_map] at first
      obtain ⟨line, isFirst, rfl⟩ := Option.map_eq_some_iff.mp first
      exact seen.mpr (left.first line isFirst)
    · intro folded last
      rw [List.getLast?_map] at last
      obtain ⟨line, isLast, rfl⟩ := Option.map_eq_some_iff.mp last
      exact seen.mpr (left.last line isLast)
    · refine (List.isChain_map _).mpr (left.single.imp fun line next single => ?_)
      rw [not_and_or, seen, seen]
      exact single
    · intro folded member
      obtain ⟨line, present, rfl⟩ := List.mem_map.mp member
      refine ⟨fun start => ?_, fun finish => ?_⟩
      · obtain ⟨before, after, split, allLost⟩ := head?_foldLine_iff.mp start
        obtain ⟨c, inside, kept⟩ := left.front line present before after split
        exact kept (allLost c inside)
      · obtain ⟨before, after, split, allLost⟩ := getLast?_foldLine_iff.mp finish
        obtain ⟨c, inside, kept⟩ := left.back line present before after split
        exact kept (allLost c inside)

/-! ## Tidied lines -/

theorem singleBlanks_subset
    (afterBlank : Bool)
    (lines : List (List Char)) :
    singleBlanks afterBlank lines ⊆ lines := by
  fun_induction singleBlanks afterBlank lines with
  | case1 => exact List.Subset.refl []
  | case2 line lines blank inductionHypothesis =>
      exact List.subset_cons_of_subset _ inductionHypothesis
  | case3 afterBlank line lines blank single inductionHypothesis =>
      exact List.cons_subset_cons _ inductionHypothesis
  | case4 afterBlank line lines notBlank inductionHypothesis =>
      exact List.cons_subset_cons _ inductionHypothesis

/-- No two neighbours are empty, nor is the first line behind a blank one. -/
theorem isChain_singleBlanks
    (afterBlank : Bool)
    (lines : List (List Char)) :
    (singleBlanks afterBlank lines).IsChain (fun line next => ¬(line = [] ∧ next = [])) ∧
      (afterBlank = true → ∀ line ∈ (singleBlanks afterBlank lines).head?, line ≠ []) := by
  fun_induction singleBlanks afterBlank lines with
  | case1 => exact ⟨.nil, nofun⟩
  | case2 line lines blank inductionHypothesis =>
      exact ⟨inductionHypothesis.1, fun _ => inductionHypothesis.2 rfl⟩
  | case3 afterBlank line lines blank single inductionHypothesis =>
      obtain ⟨chain, start⟩ := inductionHypothesis
      refine ⟨List.isChain_cons.mpr ⟨fun next first both => ?_, chain⟩, fun after => ?_⟩
      · exact start rfl next first both.2
      · exact absurd after single
  | case4 afterBlank line lines notBlank inductionHypothesis =>
      have nonempty : line ≠ [] := mt List.isEmpty_iff.mpr notBlank
      refine ⟨List.isChain_cons.mpr ⟨fun _ _ both => nonempty both.1, inductionHypothesis.1⟩, ?_⟩
      intro _ first isFirst
      rwa [← Option.some.inj isFirst]

/-- The lines of a text, blank ones at its end left out. -/
theorem exists_singleBlanks_eq (text : List Char) :
    ∃ trail, singleBlanks true ((splitAtEach (· == '\n') text).map trim) =
        tidyLines text ++ trail ∧
      (∀ line ∈ trail, line = []) ∧ ∀ line ∈ (tidyLines text).getLast?, line ≠ [] := by
  let lines := singleBlanks true ((splitAtEach (· == '\n') text).map trim)
  refine ⟨(lines.reverse.takeWhile List.isEmpty).reverse, ?_, fun line member => ?_, ?_⟩
  · rw [tidyLines, ← List.reverse_append, List.takeWhile_append_dropWhile, List.reverse_reverse]
  · exact List.isEmpty_iff.mp
      (List.all_eq_true.mp List.all_takeWhile line (List.mem_reverse.mp member))
  · intro line last
    rw [tidyLines, List.getLast?_reverse] at last
    have found := List.head?_dropWhile_not List.isEmpty lines.reverse
    rw [Option.mem_def.mp last] at found
    simpa using found

/-- A line of a tidied text is trimmed and holds no line feed. -/
theorem exists_piece_of_mem_tidyLines
    {text line : List Char}
    (member : line ∈ tidyLines text) :
    trim line = line ∧ ∃ piece ∈ splitAtEach (· == '\n') text, line = trim piece := by
  obtain ⟨trail, split, _⟩ := exists_singleBlanks_eq text
  have inLines := singleBlanks_subset _ _ (split ▸ List.mem_append_left trail member)
  obtain ⟨piece, present, rfl⟩ := List.mem_map.mp inLines
  exact ⟨Text.trim_trim piece, piece, present, rfl⟩

/-- A trimmed line that nothing can be seen of is empty. -/
theorem eq_nil_of_isBlankLine
    {line : List Char}
    (trimmed : trim line = line)
    (blank : IsBlankLine line) :
    line = [] := by
  rw [← trimmed, Text.trim_of_forall_isBlank blank]

/-- The lines of a tidied text are tidy. -/
theorem areTidy_tidyLines (text : List Char) : AreTidy (tidyLines text) := by
  obtain ⟨trail, split, _, last⟩ := exists_singleBlanks_eq text
  obtain ⟨chain, start⟩ := isChain_singleBlanks true ((splitAtEach (· == '\n') text).map trim)
  rw [split] at chain start
  have empty {line : List Char} (member : line ∈ tidyLines text) :
      IsBlankLine line → line = [] :=
    eq_nil_of_isBlankLine (exists_piece_of_mem_tidyLines member).1
  refine ⟨fun line first blank => ?_, fun line isLast blank => ?_, ?_, fun line member => ?_⟩
  · have isFirst : line ∈ (tidyLines text ++ trail).head? := by
      rw [List.head?_append, Option.mem_def.mp first, Option.some_or]
      rfl
    exact start rfl line isFirst (empty (List.mem_of_head? first) blank)
  · exact last line isLast (empty (List.mem_of_getLast? isLast) blank)
  · refine chain.left_of_append.imp_of_mem_imp fun line next member nextMember single => ?_
    exact fun both => single ⟨empty member both.1, empty nextMember both.2⟩
  · obtain ⟨trimmed, _⟩ := exists_piece_of_mem_tidyLines member
    have head := Text.isBlank_head?_trim line
    have finish := Text.isBlank_getLast?_trim line
    rw [trimmed] at head finish
    exact ⟨fun space => Bool.noConfusion (head ' ' space),
      fun space => Bool.noConfusion (finish ' ' space)⟩

theorem mem_of_mem_tidyLines
    {text line : List Char}
    (member : line ∈ tidyLines text)
    {c : Char}
    (inside : c ∈ line) :
    c ∈ text ∧ c ≠ '\n' := by
  obtain ⟨_, piece, present, rfl⟩ := exists_piece_of_mem_tidyLines member
  have inPiece := (Text.trim_infix piece).subset inside
  obtain ⟨plain, before, after, rfl, _⟩ := Text.mem_splitAtEach_iff.mp present
  refine ⟨by simp [inPiece], ?_⟩
  rintro rfl
  cases plain '\n' inPiece

/-- Tidy lines from which nothing is lost are tidy when they are folded. -/
theorem foldTidily_of_forall
    {lines : List (List Char)}
    (tidy : AreTidy lines)
    (kept : ∀ line ∈ lines, ∀ c ∈ line, ¬IsLost c) :
    FoldTidily lines := by
  have seen {line : List Char} (member : line ∈ lines) (notBlank : ¬IsBlankLine line) :
      ∃ c ∈ line, IsShown c := by
    obtain ⟨c, inside, letter⟩ : ∃ c ∈ line, isBlank c = false := by
      simpa [IsBlankLine] using notBlank
    exact ⟨c, inside, isShown_of_not_isLost letter (kept line member c inside)⟩
  refine ⟨fun line first => ?_, fun line last => ?_, ?_, ?_, ?_⟩
  · exact seen (List.mem_of_head? first) (tidy.first line first)
  · exact seen (List.mem_of_getLast? last) (tidy.last line last)
  · refine tidy.single.imp_of_mem_imp fun line next member nextMember single => ?_
    exact (not_and_or.mp single).imp (seen member) (seen nextMember)
  · rintro line member (_ | ⟨c, before⟩) after rfl
    · exact absurd rfl (tidy.edges _ member).1
    · exact ⟨c, List.mem_cons_self, kept _ member c List.mem_cons_self⟩
  · rintro line member before after rfl
    rcases List.eq_nil_or_concat after with rfl | ⟨front, c, rfl⟩
    · exact absurd (by simp) (tidy.edges _ member).2
    · exact ⟨c, by simp, kept _ member c (by simp)⟩

/-! ## Folded texts -/

theorem flatMap_asciiForm_intercalate (lines : List (List Char)) :
    (['\n'].intercalate lines).flatMap asciiForm = ['\n'].intercalate (lines.map foldLine) := by
  induction lines with
  | nil => rfl
  | cons line lines inductionHypothesis =>
      cases lines with
      | nil => simp [foldLine]
      | cons next lines =>
          have feed : ['\n'].flatMap asciiForm = ['\n'] := by decide
          have folded : line.flatMap asciiForm = foldLine line := rfl
          rw [List.intercalate_cons_cons, List.flatMap_append, List.flatMap_append, feed, folded,
            inductionHypothesis, List.map_cons, List.map_cons, List.map_cons,
            List.intercalate_cons_cons]

/-- The text that is collected from a document. -/
def collected (document : Document) : List Char :=
  (writeTree (document.tree Document.root) []).reverse

theorem toList_textOf (document : Document) :
    (textOf document).toList =
      ['\n'].intercalate ((tidyLines (collected document)).map foldLine) ++ ['\n'] := by
  rw [textOf, String.toList_append, Text.normalize, String.toList_ofList, String.toList_ofList,
    flatMap_asciiForm_intercalate]
  rfl

theorem isAscii_of_mem_textOf
    {document : Document}
    {c : Char}
    (member : c ∈ (textOf document).toList) :
    isAscii c = true := by
  rw [toList_textOf, ← flatMap_asciiForm_intercalate, List.mem_append] at member
  rcases member with inside | final
  · obtain ⟨d, _, form⟩ := List.mem_flatMap.mp inside
    exact isAscii_of_mem_asciiForm form
  · rw [List.mem_singleton.mp final]
    rfl

theorem isTidyText_concat_iff
    {body : List Char} :
    IsTidyText (body ++ ['\n']) ↔ body = [] ∨ AreTidy (splitAtEach (· == '\n') body) := by
  constructor
  · rintro (single | ⟨_, whole, tidy⟩)
    · exact .inl (List.append_left_eq_self.mp single)
    · exact .inr ((List.append_inj_left' whole rfl).symm ▸ tidy)
  · rintro (rfl | tidy)
    · exact .inl rfl
    · exact .inr ⟨body, rfl, tidy⟩

theorem foldLine_eq_nil_iff
    {line : List Char} :
    foldLine line = [] ↔ ∀ c ∈ line, IsLost c :=
  List.flatMap_eq_nil_iff

/-- Lines that are folded come apart again. -/
theorem splitAtEach_intercalate_foldLine
    {lines : List (List Char)}
    (nonempty : lines ≠ [])
    (plain : ∀ line ∈ lines, ∀ c ∈ line, c ≠ '\n') :
    splitAtEach (· == '\n') (['\n'].intercalate (lines.map foldLine)) = lines.map foldLine := by
  refine Text.splitAtEach_intercalate (by simp) (by simpa using nonempty) ?_
  intro folded member d inside
  obtain ⟨line, present, rfl⟩ := List.mem_map.mp member
  obtain ⟨c, inLine, form⟩ := List.mem_flatMap.mp inside
  rw [beq_eq_false_iff_ne]
  rintro rfl
  exact plain line present c inLine (eq_of_mem_asciiForm form rfl).symm

/-- What is left of lines when they are folded: enough of all of them, or nothing of a single
one. -/
def KeepShape (lines : List (List Char)) : Prop :=
  FoldTidily lines ∨ ∃ line, lines = [line] ∧ ∀ c ∈ line, IsLost c

theorem isTidyText_textOf_iff (document : Document) :
    IsTidyText (textOf document).toList ↔ KeepShape (tidyLines (collected document)) := by
  have plain : ∀ line ∈ tidyLines (collected document), ∀ c ∈ line, c ≠ '\n' :=
    fun line member c inside => (mem_of_mem_tidyLines member inside).2
  rw [toList_textOf, isTidyText_concat_iff, KeepShape]
  cases lines_eq : tidyLines (collected document) with
  | nil =>
      refine iff_of_true (.inl rfl) (.inl ⟨?_, ?_, ?_, ?_, ?_⟩) <;> simp
  | cons line lines =>
      rw [lines_eq] at plain
      rw [splitAtEach_intercalate_foldLine (List.cons_ne_nil _ _) plain, areTidy_map_foldLine_iff,
        or_comm]
      refine or_congr_right ?_
      cases lines with
      | nil => simp [foldLine_eq_nil_iff]
      | cons next lines => simp [List.intercalate_cons_cons]

/-- The plain text of a page is ASCII. It is tidy exactly when folding leaves enough of its lines,
and so it is when no character is lost. -/
theorem plainText_tidy_iff
    {page : String}
    {document : Document}
    (reads : Document.read page = .ok document) :
    ∃ text, plainText page = .ok text ∧ (∀ c ∈ text.toList, isAscii c = true) ∧
      (IsTidyText text.toList ↔ KeepShape (tidyLines (collected document))) ∧
      ((∀ c ∈ collected document, ¬IsLost c) → IsTidyText text.toList) := by
  refine ⟨textOf document, ?_, fun c => isAscii_of_mem_textOf, isTidyText_textOf_iff document,
    fun kept => ?_⟩
  · rw [plainText, reads]
    rfl
  · refine (isTidyText_textOf_iff document).mpr (.inl (foldTidily_of_forall ?_ ?_))
    · exact areTidy_tidyLines _
    · intro line member c inside
      exact kept c (mem_of_mem_tidyLines member inside).1

/-- A document with two paragraphs. -/
def twoParagraphs (first second : String) : Document :=
  ⟨#[⟨.root, none, [1, 3]⟩, ⟨.element ⟨"p", [], false⟩, some 0, [2]⟩, ⟨.text first, some 1, []⟩,
    ⟨.element ⟨"p", [], false⟩, some 0, [4]⟩, ⟨.text second, some 3, []⟩]⟩

theorem read_dashes :
    Document.read "<p>a – b</p><p>c…</p>" = .ok (twoParagraphs "a – b" "c…") := by
  cbv

theorem plainText_tidy_iff_dashes :
    Document.read "<p>a – b</p><p>c…</p>" = .ok (twoParagraphs "a – b" "c…") ∧
      plainText "<p>a – b</p><p>c…</p>" = .ok "a - b\n\nc...\n" ∧
      IsTidyText "a - b\n\nc...\n".toList := by
  have collected_eq : collected (twoParagraphs "a – b" "c…") =
      "\n\na – b\n\n\n\nc…\n\n".toList := by cbv
  have plain : plainText "<p>a – b</p><p>c…</p>" = .ok "a - b\n\nc...\n" := by cbv
  obtain ⟨text, found, _, _, tidy⟩ := plainText_tidy_iff read_dashes
  obtain rfl := Except.ok.inj (plain.symm.trans found)
  have kept : ((collected (twoParagraphs "a – b" "c…")).all (asciiForm · != [])) = true := by
    rw [collected_eq]
    decide
  exact ⟨read_dashes, plain, tidy fun c inside => bne_iff_ne.mp (List.all_eq_true.mp kept c inside)⟩

/-- A first line that is lost leaves a blank one. -/
theorem lost_line_stays :
    plainText "<p>&#8203;</p><p>x</p>" = .ok "\n\nx\n" ∧ ¬IsTidyText "\n\nx\n".toList := by
  refine ⟨by cbv, ?_⟩
  rw [show "\n\nx\n".toList = ['\n', '\n', 'x'] ++ ['\n'] from rfl, isTidyText_concat_iff]
  rintro (nothing | tidy)
  · cases nothing
  · have blankLine : IsBlankLine [] := List.forall_mem_nil _
    exact tidy.first [] rfl blankLine

end Page
end MailPress
