import MailPress.Proofs.Text.Blank
import MailPress.Proofs.Text.Search

/-!
# Words

The words of a text are its stretches without blanks. They do not depend on how long
the blanks between them are, nor on blanks at the ends, so a text can be squashed, each
of its runs of blanks to one space, without changing its words.

Squashing is done from the right. What is put together of squashed texts is squashed
like what is put together of the texts themselves.
-/

namespace MailPress
namespace Text

/-! ## The words of a text -/

@[simp] theorem blankWords_nil : blankWords [] = [] := rfl

theorem blankWords_append_cons
    {c : Char}
    (blank : isBlank c = true)
    (before after : List Char) :
    blankWords (before ++ c :: after) = blankWords before ++ blankWords after := by
  rw [blankWords, wordsOf, splitAtEach_append_cons blank, List.filter_append]
  rfl

theorem blankWords_cons_of_isBlank
    {c : Char}
    (blank : isBlank c = true)
    (rest : List Char) :
    blankWords (c :: rest) = blankWords rest :=
  blankWords_append_cons blank [] rest

theorem blankWords_append_of_forall_isBlank
    {lead : List Char}
    (blanks : ∀ c ∈ lead, isBlank c = true)
    (rest : List Char) :
    blankWords (lead ++ rest) = blankWords rest := by
  induction lead with
  | nil => rfl
  | cons c lead inductionHypothesis =>
      obtain ⟨blank, blanks⟩ := List.forall_mem_cons.mp blanks
      rw [List.cons_append, blankWords_cons_of_isBlank blank, inductionHypothesis blanks]

/-- A letter in front of a blank is a word of its own. -/
theorem blankWords_cons_cons_of_isBlank
    {c d : Char}
    (letter : isBlank c = false)
    (blank : isBlank d = true)
    (rest : List Char) :
    blankWords (c :: d :: rest) = [c] :: blankWords rest := by
  have single : blankWords [c] = [[c]] := by simp [blankWords, wordsOf, splitAtEach, letter]
  rw [← List.singleton_append, blankWords_append_cons blank, single, List.singleton_append]

/-- A letter in front of a letter belongs to its word. -/
theorem blankWords_cons_cons_of_letter
    {c d : Char}
    (letter : isBlank c = false)
    (next : isBlank d = false)
    (rest : List Char) :
    blankWords (c :: d :: rest) = (blankWords (d :: rest)).modifyHead (c :: ·) := by
  obtain ⟨piece, pieces, split⟩ := List.exists_cons_of_ne_nil (splitAtEach_ne_nil isBlank rest)
  simp [blankWords, wordsOf, splitAtEach_cons_of_not_separator letter,
    splitAtEach_cons_of_not_separator next, split]

/-- A letter in front of a text that goes on with a blank is a word of its own. -/
theorem blankWords_cons_of_head?
    {c : Char}
    (letter : isBlank c = false)
    {text : List Char}
    (starts : ∀ d ∈ text.head?, isBlank d = true) :
    blankWords (c :: text) = [c] :: blankWords text := by
  cases text with
  | nil => simp [blankWords, wordsOf, splitAtEach, letter]
  | cons d rest =>
      rw [blankWords_cons_cons_of_isBlank letter (starts d rfl),
        blankWords_cons_of_isBlank (starts d rfl)]

theorem exists_blankWords_cons
    {c : Char}
    (letter : isBlank c = false)
    (rest : List Char) :
    ∃ word words, blankWords (c :: rest) = (c :: word) :: words := by
  obtain ⟨piece, pieces, split⟩ := List.exists_cons_of_ne_nil (splitAtEach_ne_nil isBlank rest)
  refine ⟨piece, pieces.filter (!·.isEmpty), ?_⟩
  simp [blankWords, wordsOf, splitAtEach_cons_of_not_separator letter, split]

/-- Behind a letter, a text has the same words as one that goes on with a blank exactly when it
has them on its own and goes on with a blank too. -/
theorem blankWords_cons_eq_iff
    {c : Char}
    (letter : isBlank c = false)
    {first second : List Char}
    (starts : ∀ d ∈ second.head?, isBlank d = true) :
    blankWords (c :: first) = blankWords (c :: second) ↔
      blankWords first = blankWords second ∧ ∀ d ∈ first.head?, isBlank d = true := by
  rw [blankWords_cons_of_head? letter starts]
  by_cases goesOn : ∀ d ∈ first.head?, isBlank d = true
  · rw [blankWords_cons_of_head? letter goesOn, and_iff_left goesOn, List.cons_inj_right]
  · refine iff_of_false (fun same => ?_) fun both => goesOn both.2
    cases first with
    | nil => exact goesOn nofun
    | cons d rest =>
        have next : isBlank d = false := by simpa using goesOn
        obtain ⟨word, words, found⟩ := exists_blankWords_cons next rest
        rw [blankWords_cons_cons_of_letter letter next, found] at same
        cases (List.cons.inj same).1

/-- Two texts that start with the same letter have the same words exactly when they still have
them behind one more letter. -/
theorem blankWords_cons_cons_eq_iff
    {c d : Char}
    (letter : isBlank c = false)
    (next : isBlank d = false)
    {first second : List Char} :
    blankWords (c :: d :: first) = blankWords (c :: d :: second) ↔
      blankWords (d :: first) = blankWords (d :: second) := by
  obtain ⟨_, _, firstWords⟩ := exists_blankWords_cons next first
  obtain ⟨_, _, secondWords⟩ := exists_blankWords_cons next second
  simp [blankWords_cons_cons_of_letter letter next, firstWords, secondWords]

/-- Only blanks have no words. -/
theorem blankWords_eq_nil_iff
    {text : List Char} :
    blankWords text = [] ↔ ∀ c ∈ text, isBlank c = true := by
  induction text with
  | nil => simp
  | cons c text inductionHypothesis =>
      cases letter : isBlank c with
      | false =>
          obtain ⟨word, words, found⟩ := exists_blankWords_cons letter text
          simp [found, letter]
      | true =>
          rw [blankWords_cons_of_isBlank letter, inductionHypothesis]
          simp [letter]

/-- Two texts that start alike and have the same words still have the same words behind one
more letter. -/
theorem blankWords_cons_congr
    {first second : List Char}
    (start : first.head?.map isBlank = second.head?.map isBlank)
    (same : blankWords first = blankWords second)
    (c : Char) :
    blankWords (c :: first) = blankWords (c :: second) := by
  cases letter : isBlank c with
  | true => rw [blankWords_cons_of_isBlank letter, blankWords_cons_of_isBlank letter, same]
  | false =>
      cases first with
      | nil =>
          cases second with
          | nil => rfl
          | cons e second => cases start
      | cons d first =>
          cases second with
          | nil => cases start
          | cons e second =>
              have kind : isBlank d = isBlank e := Option.some.inj start
              cases next : isBlank d with
              | true =>
                  rw [blankWords_cons_of_isBlank next,
                    blankWords_cons_of_isBlank (kind ▸ next)] at same
                  rw [blankWords_cons_cons_of_isBlank letter next,
                    blankWords_cons_cons_of_isBlank letter (kind ▸ next), same]
              | false =>
                  rw [blankWords_cons_cons_of_letter letter next,
                    blankWords_cons_cons_of_letter letter (kind ▸ next), same]

@[simp] theorem blankWords_trim (text : List Char) :
    blankWords (trim text) = blankWords text := by
  obtain ⟨lead, trail, split, leadBlanks, trailBlanks⟩ := exists_trim text
  have whole : blankWords text = blankWords (trim text ++ trail) := by
    conv_lhs => rw [split, List.append_assoc]
    exact blankWords_append_of_forall_isBlank leadBlanks _
  rw [whole]
  cases trail with
  | nil => rw [List.append_nil]
  | cons c trail =>
      obtain ⟨blank, blanks⟩ := List.forall_mem_cons.mp trailBlanks
      rw [blankWords_append_cons blank, blankWords_eq_nil_iff.mpr blanks, List.append_nil]

/-- The words of lines are the words of the text that they make up. -/
theorem blankWords_intercalate
    {c : Char}
    (blank : isBlank c = true)
    (lines : List (List Char)) :
    blankWords ([c].intercalate lines) = lines.flatMap blankWords := by
  induction lines with
  | nil => rfl
  | cons line lines inductionHypothesis =>
      cases lines with
      | nil => simp
      | cons second lines =>
          rw [List.flatMap_cons, ← inductionHypothesis, List.intercalate_cons_cons,
            List.append_assoc, List.singleton_append, blankWords_append_cons blank]

/-! ## Squashed texts -/

/-- Put a character in front of a squashed text; a blank joins the space that is there. -/
def squashCons (c : Char) (text : List Char) : List Char :=
  if isBlank c then if text.head? = some ' ' then text else ' ' :: text else c :: text

/-- A text with every run of blanks as one space. -/
def squash (text : List Char) : List Char :=
  text.foldr squashCons []

@[simp] theorem squash_nil : squash [] = [] := rfl

@[simp] theorem squash_cons (c : Char) (text : List Char) :
    squash (c :: text) = squashCons c (squash text) := by
  rw [squash, List.foldr_cons, squash]

theorem squashCons_of_letter
    {c : Char}
    (letter : isBlank c = false)
    (text : List Char) :
    squashCons c text = c :: text := by
  simp [squashCons, letter]

/-- Blanks are all the same to a squashed text. -/
theorem squashCons_of_isBlank
    {c : Char}
    (blank : isBlank c = true)
    (text : List Char) :
    squashCons c text = squashCons ' ' text := by
  simp [squashCons, blank]

theorem head?_squashCons_space (text : List Char) : (squashCons ' ' text).head? = some ' ' := by
  by_cases space : text.head? = some ' ' <;> simp [squashCons, space]

/-- A blank in front of a blank changes nothing. -/
@[simp] theorem squashCons_squashCons_space (text : List Char) :
    squashCons ' ' (squashCons ' ' text) = squashCons ' ' text := by
  conv_lhs => rw [squashCons]
  simp [head?_squashCons_space]

theorem foldr_squashCons_squash (text behind : List Char) :
    (squash text).foldr squashCons behind = text.foldr squashCons behind := by
  induction text with
  | nil => rfl
  | cons c text inductionHypothesis =>
      rw [squash_cons, List.foldr_cons, ← inductionHypothesis]
      cases letter : isBlank c with
      | false => rw [squashCons_of_letter letter, List.foldr_cons]
      | true =>
          rw [squashCons_of_isBlank letter, squashCons_of_isBlank letter]
          by_cases space : (squash text).head? = some ' '
          · obtain ⟨rest, starts⟩ := List.head?_eq_some_iff.mp space
            have joined : squashCons ' ' (squash text) = squash text := by simp [squashCons, space]
            rw [joined, starts, List.foldr_cons, squashCons_squashCons_space]
          · have joined : squashCons ' ' (squash text) = ' ' :: squash text := by
              simp [squashCons, space]
            rw [joined, List.foldr_cons]

/-- A text that is put together is squashed part by part. -/
theorem squash_append (first second : List Char) :
    squash (first ++ second) = (squash first).foldr squashCons (squash second) := by
  rw [foldr_squashCons_squash, squash, List.foldr_append]
  rfl

theorem squash_append_congr
    {first first' second second' : List Char}
    (firstSame : squash first = squash first')
    (secondSame : squash second = squash second') :
    squash (first ++ second) = squash (first' ++ second') := by
  rw [squash_append, squash_append, firstSame, secondSame]

theorem head?_squash (text : List Char) :
    (squash text).head?.map isBlank = text.head?.map isBlank := by
  cases text with
  | nil => rfl
  | cons c text =>
      cases letter : isBlank c with
      | false => simp [squashCons_of_letter letter, letter]
      | true => simp [squashCons_of_isBlank letter, head?_squashCons_space, letter]

@[simp] theorem blankWords_squash (text : List Char) :
    blankWords (squash text) = blankWords text := by
  induction text with
  | nil => rfl
  | cons c text inductionHypothesis =>
      rw [squash_cons]
      cases letter : isBlank c with
      | false =>
          rw [squashCons_of_letter letter]
          exact blankWords_cons_congr (head?_squash text) inductionHypothesis c
      | true =>
          rw [blankWords_cons_of_isBlank letter, ← inductionHypothesis, squashCons, if_pos letter]
          split
          · rfl
          · rw [blankWords_cons_of_isBlank isBlank_space]

theorem blankWords_congr
    {first second : List Char}
    (same : squash first = squash second) :
    blankWords first = blankWords second := by
  rw [← blankWords_squash first, same, blankWords_squash]

/-! ## Words joined by spaces -/

/-- The words of a text with one space between them. -/
def joinedWords (text : List Char) : List Char :=
  [' '].intercalate (blankWords text)

theorem joinedWords_cons_of_isBlank
    {c : Char}
    (blank : isBlank c = true)
    (rest : List Char) :
    joinedWords (c :: rest) = joinedWords rest := by
  rw [joinedWords, blankWords_cons_of_isBlank blank, joinedWords]

theorem joinedWords_cons_cons_of_letter
    {c d : Char}
    (letter : isBlank c = false)
    (next : isBlank d = false)
    (rest : List Char) :
    joinedWords (c :: d :: rest) = c :: joinedWords (d :: rest) := by
  obtain ⟨word, words, found⟩ := exists_blankWords_cons next rest
  rw [joinedWords, blankWords_cons_cons_of_letter letter next, found, joinedWords, found]
  cases words with
  | nil => simp
  | cons second words => simp [List.intercalate_cons_cons]

/-- A letter in front of a blank is joined to the words behind it by a space, if there are any. -/
theorem joinedWords_cons_cons_of_isBlank
    {c d : Char}
    (letter : isBlank c = false)
    (blank : isBlank d = true)
    (rest : List Char) :
    joinedWords (c :: d :: rest) =
      c :: (if blankWords rest = [] then [] else ' ' :: joinedWords rest) := by
  rw [joinedWords, blankWords_cons_cons_of_isBlank letter blank, joinedWords]
  cases blankWords rest with
  | nil => simp
  | cons word words => simp [List.intercalate_cons_cons]

theorem head?_joinedWords_cons
    {c : Char}
    (letter : isBlank c = false)
    (rest : List Char) :
    (joinedWords (c :: rest)).head? = some c := by
  obtain ⟨word, words, found⟩ := exists_blankWords_cons letter rest
  rw [joinedWords, found]
  cases words with
  | nil => simp
  | cons second words => simp [List.intercalate_cons_cons]

/-- A text that ends in a letter is, squashed, its words joined, behind a space if it starts with
a blank. -/
theorem squash_of_getLast?
    {text : List Char}
    (finish : ∀ c ∈ text.getLast?, isBlank c = false) :
    squash text =
      if text.head?.any isBlank then ' ' :: joinedWords text else joinedWords text := by
  induction text with
  | nil => rfl
  | cons c text inductionHypothesis =>
      cases text with
      | nil =>
          have letter : isBlank c = false := finish c rfl
          simp [squashCons, joinedWords, blankWords, wordsOf, splitAtEach, letter]
      | cons d rest =>
          have restFinish : ∀ e ∈ (d :: rest).getLast?, isBlank e = false := by
            simpa [List.getLast?_cons_cons] using finish
          rw [squash_cons, inductionHypothesis restFinish, List.head?_cons, List.head?_cons,
            Option.any_some, Option.any_some]
          cases letter : isBlank c with
          | true =>
              rw [joinedWords_cons_of_isBlank letter, squashCons_of_isBlank letter, if_pos rfl]
              cases next : isBlank d with
              | true => simp [squashCons]
              | false =>
                  have notSpace : d ≠ ' ' := by
                    rintro rfl
                    cases next
                  simp [squashCons, head?_joinedWords_cons next, notSpace]
          | false =>
              rw [squashCons_of_letter letter, if_neg Bool.false_ne_true]
              cases next : isBlank d with
              | false =>
                  rw [joinedWords_cons_cons_of_letter letter next, if_neg Bool.false_ne_true]
              | true =>
                  -- The last character is a letter, so there are words behind the blank.
                  have words_ne : blankWords rest ≠ [] := by
                    rw [← blankWords_cons_of_isBlank next, ne_eq, blankWords_eq_nil_iff]
                    intro blanks
                    have last := List.getLast?_eq_some_getLast (List.cons_ne_nil d rest)
                    have blank := blanks _ (List.mem_of_getLast? last)
                    rw [restFinish _ last] at blank
                    cases blank
                  rw [joinedWords_cons_cons_of_isBlank letter next, if_neg words_ne, if_pos rfl,
                    joinedWords_cons_of_isBlank next]

/-- A trimmed text is, squashed, its words joined. -/
theorem squash_trim (text : List Char) : squash (trim text) = joinedWords text := by
  have start : ¬(trim text).head?.any isBlank = true := by
    rw [Option.any_eq_true]
    rintro ⟨c, first, blank⟩
    rw [isBlank_head?_trim text c first] at blank
    cases blank
  rw [squash_of_getLast? (isBlank_getLast?_trim text), if_neg start, joinedWords,
    blankWords_trim, joinedWords]

end Text
end MailPress
