import MailPress.Proofs.Markup.Layout
import MailPress.Proofs.Markup.Appending
import MailPress.Proofs.Page.TidyText
import MailPress.Proofs.Text.Words

/-!
# Words of plain texts

The text that a document shows is put together of its texts, with a space for every line break
and at both ends of every block. The plain text of a document without images and addresses has
the words of that text, but for one thing: what a link shows is trimmed, and with the blanks at
its edges the gap between two words may be lost.

So every character that is shown is marked when it is a blank at an edge of a link. The words
are the same exactly when every gap between two of them holds a blank that is not marked.
-/

namespace MailPress
namespace Page

open Markup (Content Document Element Tree decode isVoid)
open Text (blankWords isAscii isBlank joinedWords splitAtEach squash squashCons trim)

/-! ## The text that is shown -/

/-- A character that is shown, and whether it is lost at an edge of a link. -/
structure Glyph where
  /-- The character. -/
  char : Char
  /-- Whether a link drops it. -/
  lost : Bool
  deriving DecidableEq, Repr

/-- A character that is not lost. -/
def Glyph.kept (c : Char) : Glyph := ⟨c, false⟩

/-- The blanks in front are lost. -/
def loseLead : List Glyph → List Glyph
  | [] => []
  | first :: rest =>
      if isBlank first.char then ⟨first.char, true⟩ :: loseLead rest else first :: rest

/-- The blanks at both ends are lost. -/
def loseEdges (glyphs : List Glyph) : List Glyph :=
  (loseLead (loseLead glyphs).reverse).reverse

mutual

/-- What is shown of a tree. -/
def glyphsOf : Tree → List Glyph
  | .node _ content children =>
      match content with
      | .text raw => (decode raw).toList.map Glyph.kept
      | .comment _ => []
      | .verbatim _ => []
      | .root => glyphsOfAll children
      | .element element =>
          if hiddenNames.contains element.name then []
          else if element.name = "br" then Glyph.kept ' ' :: glyphsOfAll children
          else if element.name = "a" then loseEdges (glyphsOfAll children)
          else if blockNames.contains element.name then
            Glyph.kept ' ' :: glyphsOfAll children ++ [Glyph.kept ' ']
          else glyphsOfAll children

/-- What is shown of several trees. -/
def glyphsOfAll : List Tree → List Glyph
  | [] => []
  | tree :: trees => glyphsOf tree ++ glyphsOfAll trees

end

/-- What is shown of a document. -/
def glyphs (document : Document) : List Glyph :=
  glyphsOf (document.tree Document.root)

/-- The characters of glyphs, whether lost or not. -/
def shownText (glyphs : List Glyph) : List Char :=
  glyphs.map Glyph.char

/-- The characters of glyphs that are not lost. -/
def keptText (glyphs : List Glyph) : List Char :=
  (glyphs.filter (!·.lost)).map Glyph.char

/-- Only blanks are lost. -/
def LoseBlanks (glyphs : List Glyph) : Prop :=
  ∀ glyph ∈ glyphs, glyph.lost = true → isBlank glyph.char = true

@[simp] theorem shownText_append (first second : List Glyph) :
    shownText (first ++ second) = shownText first ++ shownText second :=
  List.map_append

@[simp] theorem keptText_nil : keptText [] = [] := rfl

@[simp] theorem keptText_append (first second : List Glyph) :
    keptText (first ++ second) = keptText first ++ keptText second := by
  simp [keptText]

@[simp] theorem keptText_cons_lost
    (c : Char)
    (rest : List Glyph) :
    keptText (⟨c, true⟩ :: rest) = keptText rest := rfl

@[simp] theorem keptText_cons_kept
    (c : Char)
    (rest : List Glyph) :
    keptText (⟨c, false⟩ :: rest) = c :: keptText rest := rfl

@[simp] theorem keptText_reverse (glyphs : List Glyph) :
    keptText glyphs.reverse = (keptText glyphs).reverse := by
  simp [keptText]

theorem shownText_loseLead (glyphs : List Glyph) :
    shownText (loseLead glyphs) = shownText glyphs := by
  fun_induction loseLead glyphs with
  | case1 => rfl
  | case2 first rest blank inductionHypothesis =>
      exact congrArg (first.char :: ·) inductionHypothesis
  | case3 => rfl

/-- Losing blanks does not change what is shown. -/
theorem shownText_loseEdges (glyphs : List Glyph) :
    shownText (loseEdges glyphs) = shownText glyphs := by
  have reversed (glyphs : List Glyph) : shownText glyphs.reverse = (shownText glyphs).reverse :=
    List.map_reverse
  rw [loseEdges, reversed, shownText_loseLead, reversed, shownText_loseLead, List.reverse_reverse]

theorem loseBlanks_loseLead
    {glyphs : List Glyph}
    (blanks : LoseBlanks glyphs) :
    LoseBlanks (loseLead glyphs) := by
  fun_induction loseLead glyphs with
  | case1 => exact blanks
  | case2 first rest blank inductionHypothesis =>
      exact List.forall_mem_cons.mpr
        ⟨fun _ => blank, inductionHypothesis (List.forall_mem_cons.mp blanks).2⟩
  | case3 => exact blanks

theorem loseBlanks_reverse
    {glyphs : List Glyph}
    (blanks : LoseBlanks glyphs) :
    LoseBlanks glyphs.reverse :=
  fun glyph member => blanks glyph (List.mem_reverse.mp member)

theorem loseBlanks_loseEdges
    {glyphs : List Glyph}
    (blanks : LoseBlanks glyphs) :
    LoseBlanks (loseEdges glyphs) :=
  loseBlanks_reverse (loseBlanks_loseLead (loseBlanks_reverse (loseBlanks_loseLead blanks)))

theorem loseBlanks_append
    {first second : List Glyph}
    (firstBlanks : LoseBlanks first)
    (secondBlanks : LoseBlanks second) :
    LoseBlanks (first ++ second) :=
  List.forall_mem_append.mpr ⟨firstBlanks, secondBlanks⟩

theorem loseBlanks_map_kept (text : List Char) : LoseBlanks (text.map Glyph.kept) := by
  intro first member lost
  obtain ⟨c, _, rfl⟩ := List.mem_map.mp member
  cases lost

theorem keptText_loseLead
    {glyphs : List Glyph}
    (blanks : LoseBlanks glyphs) :
    keptText (loseLead glyphs) = Text.trimStart (keptText glyphs) := by
  fun_induction loseLead glyphs with
  | case1 => rfl
  | case2 first rest blank inductionHypothesis =>
      rw [keptText_cons_lost, inductionHypothesis (List.forall_mem_cons.mp blanks).2]
      obtain ⟨c, _ | _⟩ := first
      · simp [Text.trimStart, Text.trimStartOf, show isBlank c = true from blank]
      · rfl
  | case3 first rest letter =>
      obtain ⟨c, _ | _⟩ := first
      · simp [Text.trimStart, Text.trimStartOf, show ¬isBlank c = true from letter]
      · exact absurd ((List.forall_mem_cons.mp blanks).1 rfl) letter

/-- What is left of the edges is trimmed. -/
theorem keptText_loseEdges
    {glyphs : List Glyph}
    (blanks : LoseBlanks glyphs) :
    keptText (loseEdges glyphs) = trim (keptText glyphs) := by
  have ends := loseBlanks_reverse (loseBlanks_loseLead blanks)
  rw [loseEdges, keptText_reverse, keptText_loseLead ends, keptText_reverse,
    keptText_loseLead blanks, ← Text.trimEnd_eq_reverse, trim]

mutual

theorem loseBlanks_glyphsOf (tree : Tree) : LoseBlanks (glyphsOf tree) := by
  obtain ⟨id, content, children⟩ := tree
  have inside := loseBlanks_glyphsOfAll children
  cases content with
  | text raw => exact loseBlanks_map_kept _
  | comment | verbatim => exact loseBlanks_map_kept []
  | root => exact inside
  | element element =>
      simp only [glyphsOf]
      split
      · exact loseBlanks_map_kept []
      · split
        · exact loseBlanks_append (loseBlanks_map_kept [' ']) inside
        · split
          · exact loseBlanks_loseEdges inside
          · split
            · exact loseBlanks_append (loseBlanks_append (loseBlanks_map_kept [' ']) inside)
                (loseBlanks_map_kept [' '])
            · exact inside

theorem loseBlanks_glyphsOfAll (trees : List Tree) : LoseBlanks (glyphsOfAll trees) := by
  cases trees with
  | nil => exact loseBlanks_map_kept []
  | cons tree trees =>
      exact loseBlanks_append (loseBlanks_glyphsOf tree) (loseBlanks_glyphsOfAll trees)

end

/-! ## Writing what is shown -/

/-- Behind what was written stands what is kept of some glyphs, but for the length of its
blanks. What is written is kept with its last character first. -/
structure Writes (before : List Char) (glyphs : List Glyph) (after : List Char) : Prop where
  /-- Blanks apart, what is kept is written. -/
  squashed : squash after.reverse = squash (before.reverse ++ keptText glyphs)
  /-- What is written is shown, or it is a blank of ASCII. -/
  shown : ∀ c ∈ after, c ∈ before ∨ c ∈ shownText glyphs ∨ isAscii c = true

namespace Writes

variable {before middle after : List Char}
variable {first second : List Glyph}

theorem refl (before : List Char) : Writes before [] before :=
  ⟨by simp, fun _ => .inl⟩

theorem append
    (writesFirst : Writes before first middle)
    (writesSecond : Writes middle second after) :
    Writes before (first ++ second) after := by
  refine ⟨?_, fun c member => ?_⟩
  · rw [writesSecond.squashed, keptText_append, ← List.append_assoc]
    exact Text.squash_append_congr writesFirst.squashed rfl
  · rw [shownText_append, List.mem_append]
    rcases writesSecond.shown c member with early | shown | ascii
    · rcases writesFirst.shown c early with earlier | shown | ascii
      · exact .inl earlier
      · exact .inr (.inl (.inl shown))
      · exact .inr (.inr ascii)
    · exact .inr (.inl (.inr shown))
    · exact .inr (.inr ascii)

/-- A text that is written as a whole. -/
theorem text
    (text : List Char)
    {glyphs : List Glyph}
    (same : squash text = squash (keptText glyphs))
    (shown : ∀ c ∈ text, c ∈ shownText glyphs ∨ isAscii c = true)
    (before : List Char) :
    Writes before glyphs (text.reverse ++ before) := by
  refine ⟨?_, fun c member => ?_⟩
  · rw [List.reverse_append, List.reverse_reverse]
    exact Text.squash_append_congr rfl same
  · rcases List.mem_append.mp member with inside | early
    · exact .inr (shown c (List.mem_reverse.mp inside))
    · exact .inl early

theorem space (before : List Char) : Writes before [Glyph.kept ' '] ('\n' :: before) :=
  text ['\n'] rfl (by simp [isAscii]) before

theorem twoSpaces (before : List Char) : Writes before [Glyph.kept ' '] ('\n' :: '\n' :: before) :=
  text ['\n', '\n'] rfl (by simp [isAscii]) before

/-- A space is written for a blank, unless one was written last. -/
theorem writeSpace
    {c : Char}
    (blank : isBlank c = true)
    (before : List Char) :
    Writes before [Glyph.kept c] (writeSpace before) := by
  have spaced : Writes before [Glyph.kept c] (' ' :: before) :=
    text [' '] (by simp [Glyph.kept, Text.squashCons_of_isBlank blank])
      (List.forall_mem_singleton.mpr (.inr rfl)) before
  have joined (d : Char) (known : isBlank d = true) (rest : List Char) :
      Writes (d :: rest) [Glyph.kept c] (d :: rest) := by
    refine ⟨?_, fun _ => .inl⟩
    rw [List.reverse_cons, List.append_assoc]
    refine Text.squash_append_congr rfl ?_
    simp [Glyph.kept, Text.squashCons_of_isBlank blank, Text.squashCons_of_isBlank known]
  unfold Page.writeSpace
  split
  · next starts =>
      obtain ⟨rest, rfl⟩ := List.head?_eq_some_iff.mp starts
      exact joined ' ' rfl rest
  · next starts =>
      obtain ⟨rest, rfl⟩ := List.head?_eq_some_iff.mp starts
      exact joined '\n' rfl rest
  · exact spaced

/-- A hard space is written as a space, every other letter as it is. -/
theorem writeWord
    (c : Char)
    (before : List Char) :
    Writes before [Glyph.kept c] (writeWord before [c]) := by
  by_cases hard : c = hardSpace
  · have blank : isBlank c = true := by
      rw [hard]
      rfl
    have written : Page.writeWord before [c] = [' '].reverse ++ before := by
      simp [Page.writeWord, hard]
    rw [written]
    exact text [' '] (by simp [Glyph.kept, Text.squashCons_of_isBlank blank])
      (List.forall_mem_singleton.mpr (.inr rfl)) before
  · have written : Page.writeWord before [c] = [c].reverse ++ before := by
      simp [Page.writeWord, hard]
    rw [written]
    exact text [c] rfl (by simp [shownText, Glyph.kept]) before

end Writes

/-- Texts are written character by character. -/
theorem writeCollapsed_cons
    (written : List Char)
    (c : Char)
    (rest : List Char) :
    writeCollapsed written (String.ofList (c :: rest)) =
      writeCollapsed
        (if isBlank c && c != hardSpace then writeSpace written else writeWord written [c])
        (String.ofList rest) := by
  unfold writeCollapsed
  rw [String.toList_ofList, String.toList_ofList, splitAtEach]
  obtain ⟨piece, pieces, found⟩ := List.exists_cons_of_ne_nil
    (Text.splitAtEach_ne_nil (fun c => isBlank c && c != hardSpace) rest)
  rw [found]
  by_cases separates : (isBlank c && c != hardSpace) = true
  · rw [if_pos separates]
    dsimp only
    rw [if_pos separates]
    rfl
  · rw [if_neg separates]
    dsimp only
    rw [if_neg separates]
    rfl

theorem writes_writeCollapsed
    (text : List Char)
    (before : List Char) :
    Writes before (text.map Glyph.kept) (writeCollapsed before (String.ofList text)) := by
  induction text generalizing before with
  | nil => exact .refl before
  | cons c rest inductionHypothesis =>
      rw [writeCollapsed_cons]
      refine Writes.append (?_ : Writes before [Glyph.kept c] _) (inductionHypothesis _)
      split
      · next separates => exact .writeSpace (Bool.and_eq_true_iff.mp separates).1 before
      · exact .writeWord c before

/-- The text of a document without images and addresses is what is kept of its glyphs, but for
the length of its blanks. -/
theorem writes_writeTree
    {document : Document}
    (forest : document.IsForest)
    (voids : document.KeepsVoidsEmpty)
    (noImage : ∀ id, document.isNamed "img" id = false)
    (noAddress : ∀ id element, document.element? id = some element → element.attr? "href" = none)
    (id : Nat)
    (before : List Char) :
    Writes before (glyphsOf (document.tree id)) (writeTree (document.tree id) before) := by
  induction id using forest.induction generalizing before with
  | node id inductionHypothesis =>
      have inside (before : List Char) :
          Writes before (glyphsOfAll ((document.children id).map document.tree))
            (writeForest ((document.children id).map document.tree) before) := by
        generalize document.children id = children at inductionHypothesis
        induction children generalizing before with
        | nil => exact .refl before
        | cons child children others =>
            obtain ⟨here, rest⟩ := List.forall_mem_cons.mp inductionHypothesis
            exact (here before).append (others _ rest)
      rw [forest.tree_eq]
      cases content : document.content id with
      | text raw =>
          have written := writes_writeCollapsed (decode raw).toList before
          rwa [String.ofList_toList] at written
      | comment | verbatim => exact .refl before
      | root => exact inside before
      | element element =>
          have known : document.element? id = some element := by
            rw [Document.element?_eq, content]
            rfl
          have notImage : element.name ≠ "img" := by
            simpa [Document.isNamed, known] using noImage id
          simp only [glyphsOf, writeTree, if_neg notImage]
          split
          · exact .refl before
          · split
            · next isBreak =>
                have void : isVoid element.name = true := by
                  rw [isBreak]
                  decide
                rw [voids id element content void]
                exact .space before
            · split
              · have label := (inside []).squashed
                have shown := (inside []).shown
                generalize writeForest _ [] = written at label shown
                have noneShown : shownAddress element (trim written.reverse) = [] := by
                  rw [shownAddress, Element.decodedAttr?, noAddress id element known]
                  rfl
                rw [noneShown, List.append_nil]
                refine .text _ ?_ (fun c member => ?_) before
                · rw [keptText_loseEdges (loseBlanks_glyphsOfAll _), Text.squash_trim,
                    Text.squash_trim, joinedWords, joinedWords, Text.blankWords_congr label]
                  rfl
                · rw [shownText_loseEdges]
                  have inLabel := List.mem_reverse.mp ((Text.trim_infix _).subset member)
                  exact (shown c inLabel).resolve_left List.not_mem_nil
              · split
                · exact ((Writes.twoSpaces before).append (inside _)).append (.twoSpaces _)
                · exact inside before

/-! ## Gaps between words -/

/-- Every gap between two words holds a blank that is not lost. -/
def KeepGaps (glyphs : List Glyph) : Prop :=
  ∀ first gap second after, first :: (gap ++ second :: after) <:+ glyphs →
    isBlank first.char = false → isBlank second.char = false →
    gap ≠ [] → (∀ blank ∈ gap, isBlank blank.char = true) →
    ∃ blank ∈ gap, blank.lost = false

theorem KeepGaps.tail
    {first : Glyph}
    {rest : List Glyph}
    (keep : KeepGaps (first :: rest)) :
    KeepGaps rest :=
  fun before gap second after suffix =>
    keep before gap second after (List.suffix_cons_iff.mpr (.inr suffix))

/-- No gap starts at a blank. -/
theorem keepGaps_cons_of_isBlank
    {first : Glyph}
    (blank : isBlank first.char = true)
    {rest : List Glyph} :
    KeepGaps (first :: rest) ↔ KeepGaps rest := by
  refine ⟨.tail, fun keep before gap second after suffix letter => ?_⟩
  rcases List.suffix_cons_iff.mp suffix with whole | inner
  · rw [(List.cons.inj whole).1, blank] at letter
    cases letter
  · exact keep before gap second after inner letter

/-- There is no gap between two letters. -/
theorem keepGaps_cons_cons_of_letter
    (first : Glyph)
    {second : Glyph}
    (letter : isBlank second.char = false)
    {rest : List Glyph} :
    KeepGaps (first :: second :: rest) ↔ KeepGaps (second :: rest) := by
  refine ⟨.tail, fun keep before gap behind after suffix starts ends nonempty blanks => ?_⟩
  rcases List.suffix_cons_iff.mp suffix with whole | inner
  · obtain ⟨blank, others, rfl⟩ := List.exists_cons_of_ne_nil nonempty
    have known := (List.forall_mem_cons.mp blanks).1
    rw [(List.cons.inj (List.cons.inj whole).2).1, letter] at known
    cases known
  · exact keep before gap behind after inner starts ends nonempty blanks

theorem lost_eq_false_of_letter
    {glyphs : List Glyph}
    (blanks : LoseBlanks glyphs)
    {glyph : Glyph}
    (member : glyph ∈ glyphs)
    (letter : isBlank glyph.char = false) :
    glyph.lost = false := by
  rw [← Bool.not_eq_true]
  intro lost
  rw [blanks glyph member lost] at letter
  cases letter

theorem keptText_cons_of_letter
    {first : Glyph}
    {rest : List Glyph}
    (blanks : LoseBlanks (first :: rest))
    (letter : isBlank first.char = false) :
    keptText (first :: rest) = first.char :: keptText rest := by
  rw [keptText, List.filter_cons_of_pos
    (by simp [lost_eq_false_of_letter blanks List.mem_cons_self letter])]
  rfl

/-- What is kept of a gap and a letter goes on with a blank when the gap keeps one. -/
theorem isBlank_head?_keptText_iff
    {gap : List Glyph}
    (blanks : ∀ blank ∈ gap, isBlank blank.char = true)
    {second : Glyph}
    (letter : isBlank second.char = false)
    (kept : second.lost = false)
    (after : List Glyph) :
    (∀ c ∈ (keptText (gap ++ second :: after)).head?, isBlank c = true) ↔
      ∃ blank ∈ gap, blank.lost = false := by
  induction gap with
  | nil =>
      obtain ⟨c, _ | _⟩ := second
      · simp_all
      · cases kept
  | cons first gap inductionHypothesis =>
      obtain ⟨blank, others⟩ := List.forall_mem_cons.mp blanks
      obtain ⟨c, _ | _⟩ := first
      · exact iff_of_true (by simpa using blank) ⟨_, List.mem_cons_self, rfl⟩
      · simpa using inductionHypothesis others

/-- The gap behind a letter is kept when what is kept of the rest goes on with a blank. -/
theorem keepGaps_cons_iff
    {first : Glyph}
    (letter : isBlank first.char = false)
    {rest : List Glyph}
    (starts : ∀ glyph ∈ rest.head?, isBlank glyph.char = true)
    (blanks : LoseBlanks rest) :
    KeepGaps (first :: rest) ↔
      KeepGaps rest ∧ ∀ c ∈ (keptText rest).head?, isBlank c = true := by
  constructor
  · refine fun keep => ⟨keep.tail, ?_⟩
    have split := List.takeWhile_append_dropWhile (p := fun glyph : Glyph => isBlank glyph.char)
      (l := rest)
    have gapBlanks := List.all_eq_true.mp
      (List.all_takeWhile (p := fun glyph : Glyph => isBlank glyph.char) (l := rest))
    have stops := List.head?_dropWhile_not (fun glyph : Glyph => isBlank glyph.char) rest
    generalize rest.takeWhile (fun glyph : Glyph => isBlank glyph.char) = gap at split gapBlanks
    generalize rest.dropWhile (fun glyph : Glyph => isBlank glyph.char) = behind at split stops
    subst split
    cases behind with
    | nil =>
        intro c isFirst
        obtain ⟨glyph, member, rfl⟩ := List.mem_map.mp (List.mem_of_head? isFirst)
        exact gapBlanks glyph (by simpa using (List.mem_filter.mp member).1)
    | cons second after =>
        have secondLetter : isBlank second.char = false := by simpa using stops
        have kept := lost_eq_false_of_letter blanks (by simp) secondLetter
        refine (isBlank_head?_keptText_iff gapBlanks secondLetter kept after).mpr ?_
        refine keep first gap second after List.suffix_rfl letter secondLetter ?_ gapBlanks
        rintro rfl
        rw [starts second rfl] at secondLetter
        cases secondLetter
  · rintro ⟨keep, goesOn⟩ before gap second after suffix beforeLetter secondLetter nonempty
      gapBlanks
    rcases List.suffix_cons_iff.mp suffix with same | inner
    · obtain ⟨rfl, rfl⟩ := List.cons.inj same
      have kept := lost_eq_false_of_letter blanks (by simp) secondLetter
      exact (isBlank_head?_keptText_iff gapBlanks secondLetter kept after).mp goesOn
    · exact keep before gap second after inner beforeLetter secondLetter nonempty gapBlanks

/-- What is kept has the words of what is shown when it keeps every gap. -/
theorem blankWords_keptText_iff
    {glyphs : List Glyph}
    (blanks : LoseBlanks glyphs) :
    blankWords (keptText glyphs) = blankWords (shownText glyphs) ↔ KeepGaps glyphs := by
  induction glyphs with
  | nil => exact iff_of_true rfl fun _ _ _ _ suffix => by cases List.suffix_nil.mp suffix
  | cons first rest inductionHypothesis =>
      obtain ⟨_, restBlanks⟩ := List.forall_mem_cons.mp blanks
      have shown : shownText (first :: rest) = first.char :: shownText rest := rfl
      rw [shown]
      cases letter : isBlank first.char with
      | true =>
          rw [keepGaps_cons_of_isBlank letter, ← inductionHypothesis restBlanks,
            Text.blankWords_cons_of_isBlank letter]
          obtain ⟨c, _ | _⟩ := first
          · rw [keptText_cons_kept, Text.blankWords_cons_of_isBlank letter]
          · rw [keptText_cons_lost]
      | false =>
          rw [keptText_cons_of_letter blanks letter]
          by_cases starts : ∀ glyph ∈ rest.head?, isBlank glyph.char = true
          · have shownStarts : ∀ c ∈ (shownText rest).head?, isBlank c = true := by
              simpa [shownText] using starts
            rw [Text.blankWords_cons_eq_iff letter shownStarts, inductionHypothesis restBlanks,
              keepGaps_cons_iff letter starts restBlanks]
          · cases rest with
            | nil => exact absurd nofun starts
            | cons second after =>
                have next : isBlank second.char = false := by simpa using starts
                have keptRest := keptText_cons_of_letter restBlanks next
                have shownRest : shownText (second :: after) = second.char :: shownText after := rfl
                rw [keepGaps_cons_cons_of_letter first next, ← inductionHypothesis restBlanks,
                  keptRest, shownRest, Text.blankWords_cons_cons_eq_iff letter next]

/-! ## The words of the plain text -/

theorem flatMap_blankWords_singleBlanks
    (afterBlank : Bool)
    (lines : List (List Char)) :
    (singleBlanks afterBlank lines).flatMap blankWords = lines.flatMap blankWords := by
  fun_induction singleBlanks afterBlank lines with
  | case1 => rfl
  | case2 line lines blank inductionHypothesis =>
      rw [inductionHypothesis, List.flatMap_cons, List.isEmpty_iff.mp blank, Text.blankWords_nil,
        List.nil_append]
  | case3 afterBlank line lines blank single inductionHypothesis =>
      rw [List.flatMap_cons, List.flatMap_cons, inductionHypothesis]
  | case4 afterBlank line lines notBlank inductionHypothesis =>
      rw [List.flatMap_cons, List.flatMap_cons, inductionHypothesis]

/-- Tidying the lines of a text keeps its words. -/
theorem flatMap_blankWords_tidyLines (text : List Char) :
    (tidyLines text).flatMap blankWords = blankWords text := by
  obtain ⟨trail, split, empty, _⟩ := exists_singleBlanks_eq text
  have noWords : trail.flatMap blankWords = [] := by
    rw [List.flatMap_eq_nil_iff]
    intro line member
    rw [empty line member, Text.blankWords_nil]
  calc (tidyLines text).flatMap blankWords
      = (tidyLines text ++ trail).flatMap blankWords := by
        rw [List.flatMap_append, noWords, List.append_nil]
    _ = (splitAtEach (· == '\n') text).flatMap blankWords := by
        rw [← split, flatMap_blankWords_singleBlanks, List.flatMap_map]
        simp only [Text.blankWords_trim]
    _ = blankWords text := by
        rw [← Text.blankWords_intercalate (c := '\n') rfl, Text.intercalate_splitAtEach]

theorem foldLine_eq_self
    {line : List Char}
    (ascii : ∀ c ∈ line, isAscii c = true) :
    foldLine line = line := by
  induction line with
  | nil => rfl
  | cons c line inductionHypothesis =>
      obtain ⟨first, rest⟩ := List.forall_mem_cons.mp ascii
      have form : Text.asciiForm c = [c] := by simp [Text.asciiForm, first]
      have folded : foldLine (c :: line) = Text.asciiForm c ++ foldLine line := rfl
      rw [folded, form, inductionHypothesis rest, List.singleton_append]

/-- Plain texts that are collected as ASCII have the words that were collected. -/
theorem blankWords_textOf
    {document : Document}
    (ascii : ∀ c ∈ collected document, isAscii c = true) :
    blankWords (textOf document).toList = blankWords (collected document) := by
  have unfolded :
      (tidyLines (collected document)).map foldLine = tidyLines (collected document) := by
    refine (List.map_congr_left fun line member => ?_).trans (List.map_id _)
    exact foldLine_eq_self fun c inside => ascii c (mem_of_mem_tidyLines member inside).1
  rw [toList_textOf, unfolded, Text.blankWords_append_cons rfl, Text.blankWords_nil,
    List.append_nil, Text.blankWords_intercalate rfl, flatMap_blankWords_tidyLines]

/-- The plain text of a page without images and addresses has the words that are kept at the
edges of links. They are the words that are shown exactly when no gap between two words is lost. -/
theorem plainText_words_iff
    {page : String}
    {document : Document}
    (reads : Document.read page = .ok document)
    (noImage : document.findAll "img" = [])
    (noAddress : ∀ id ∈ document.elements, ∀ element, document.element? id = some element →
      element.attr? "href" = none)
    (ascii : ∀ c ∈ shownText (glyphs document), isAscii c = true) :
    ∃ text, plainText page = .ok text ∧
      blankWords text.toList = blankWords (keptText (glyphs document)) ∧
      (blankWords text.toList = blankWords (shownText (glyphs document)) ↔
        KeepGaps (glyphs document)) := by
  obtain ⟨events, _, built⟩ := Markup.read_eq_ok_iff.mp reads
  have rooted : document.IsRooted := built ▸ Document.IsRooted.ofEvents events
  have written : Writes [] (glyphs document) (writeTree (document.tree Document.root) []) := by
    refine writes_writeTree rooted.forest (Document.keepsVoidsEmpty_of_read reads)
      (fun id => ?_) (fun id element known => ?_) Document.root []
    · rw [← Bool.not_eq_true]
      intro named
      have listed := rooted.mem_findAll named
      rw [noImage] at listed
      cases listed
    · have named : document.isNamed element.name id = true := by
        simp [Document.isNamed, known]
      exact noAddress id (List.mem_filter.mp (rooted.mem_findAll named)).1 element known
  have collectedAscii : ∀ c ∈ collected document, isAscii c = true := by
    intro c member
    rcases written.shown c (List.mem_reverse.mp member) with nowhere | shown | known
    · cases nowhere
    · exact ascii c shown
    · exact known
  have words : blankWords (textOf document).toList = blankWords (keptText (glyphs document)) := by
    rw [blankWords_textOf collectedAscii]
    exact Text.blankWords_congr written.squashed
  refine ⟨textOf document, by rw [plainText, reads]; rfl, words, ?_⟩
  rw [words]
  exact blankWords_keptText_iff (loseBlanks_glyphsOf _)

/-- A document with one paragraph, a text and a link. -/
def textAndLink (text label : String) : Document :=
  ⟨#[⟨.root, none, [1]⟩, ⟨.element ⟨"p", [], false⟩, some 0, [2, 3]⟩, ⟨.text text, some 1, []⟩,
    ⟨.element ⟨"a", [], false⟩, some 1, [4]⟩, ⟨.text label, some 3, []⟩]⟩

theorem read_spacedLink :
    Document.read "<p>a <a> b</a></p>" = .ok (textAndLink "a " " b") := by
  cbv

theorem read_joinedLink : Document.read "<p>a<a> b</a></p>" = .ok (textAndLink "a" " b") := by
  cbv

theorem plainText_words_iff_spacedLink :
    Document.read "<p>a <a> b</a></p>" = .ok (textAndLink "a " " b") ∧
      plainText "<p>a <a> b</a></p>" = .ok "a b\n" ∧
      blankWords "a b\n".toList = blankWords (shownText (glyphs (textAndLink "a " " b"))) ∧
      KeepGaps (glyphs (textAndLink "a " " b")) := by
  have elements_eq : (textAndLink "a " " b").elements = [1, 3] := by cbv
  have noImage : (textAndLink "a " " b").findAll "img" = [] := by cbv
  have shown : shownText (glyphs (textAndLink "a " " b")) = " a  b ".toList := by cbv
  have plain : plainText "<p>a <a> b</a></p>" = .ok "a b\n" := by cbv
  have same : blankWords "a b\n".toList =
      blankWords (shownText (glyphs (textAndLink "a " " b"))) := by
    rw [shown]
    decide
  obtain ⟨text, found, _, gaps⟩ := plainText_words_iff read_spacedLink noImage
    (by rw [elements_eq]; decide +revert) (List.all_eq_true.mp (by rw [shown]; decide))
  obtain rfl := Except.ok.inj (plain.symm.trans found)
  exact ⟨read_spacedLink, plain, same, gaps.mp same⟩

/-- Without its blank, what a link shows runs into the word in front of it. -/
theorem link_joins_words :
    Document.read "<p>a<a> b</a></p>" = .ok (textAndLink "a" " b") ∧
      shownText (glyphs (textAndLink "a" " b")) = " a b ".toList ∧
      plainText "<p>a<a> b</a></p>" = .ok "ab\n" ∧
      blankWords "ab\n".toList ≠ blankWords " a b ".toList :=
  ⟨read_joinedLink, by cbv, by cbv, by decide⟩

end Page
end MailPress
