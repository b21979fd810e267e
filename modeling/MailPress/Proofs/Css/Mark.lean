import Mathlib.Tactic.ByContra
import MailPress.Proofs.Css.Tighten
import MailPress.Proofs.Text.Search

/-!
# Importance marks

A value that does not end in an importance mark has no written form that does:
the scan takes blanks out only beside commas, and the word of the mark holds
none, so a mark at the end of the written form was a mark at the end of the value.
-/

namespace MailPress
namespace Css

/-- The text ends in an exclamation mark and the word `important`. -/
def EndsMarked (text : List Char) : Prop :=
  ∃ before mark, text = before ++ '!' :: mark ∧
    Text.sameIgnoringCase (String.ofList (Text.trim mark)) "important" = true

/-- The letters of a mark are letters. -/
theorem isAsciiLetter_of_lowerChar_mem
    {c : Char}
    (member : Text.lowerChar c ∈ "important".toList) :
    Text.isAsciiLetter c = true := by
  by_cases upper : ('A' ≤ c && c ≤ 'Z') = true
  · rw [Text.isAsciiLetter, upper, Bool.or_true]
  · rw [Text.lowerChar, if_neg upper] at member
    have listed : c ∈ ['i', 'm', 'p', 'o', 'r', 't', 'a', 'n', 't'] := member
    have letters : ['i', 'm', 'p', 'o', 'r', 't', 'a', 'n', 't'].all Text.isAsciiLetter = true :=
      by decide
    exact List.all_eq_true.mp letters c listed

theorem isAsciiLetter_of_mem_mark
    {mark : List Char}
    (important : Text.sameIgnoringCase (String.ofList mark) "important" = true)
    {c : Char}
    (member : c ∈ mark) :
    Text.isAsciiLetter c = true := by
  have same : String.ofList (mark.map Text.lowerChar) = String.ofList
      ("important".toList.map Text.lowerChar) := by
    have lowered := beq_iff_eq.mp important
    rwa [Text.lower, Text.lower, String.toList_ofList] at lowered
  have letters := String.ofList_injective same
  refine isAsciiLetter_of_lowerChar_mem ?_
  rw [show "important".toList = "important".toList.map Text.lowerChar by decide, ← letters]
  exact List.mem_map_of_mem member

/-- A character of a name is no blank. -/
theorem isBlank_of_isAtNameChar
    {c : Char}
    (named : isAtNameChar c = true) :
    Text.isBlank c = false := by
  simp only [isAtNameChar, Text.isAsciiAlphanumeric, Bool.or_eq_true, Bool.and_eq_true,
    decide_eq_true_eq, Char.le_def, UInt32.le_iff_toNat_le, beq_iff_eq] at named
  rcases named with (alphanumeric | rfl) | rfl
  · have bounds : ((97 ≤ c.toNat ∧ c.toNat ≤ 122) ∨ (65 ≤ c.toNat ∧ c.toNat ≤ 90)) ∨
        (48 ≤ c.toNat ∧ c.toNat ≤ 57) := alphanumeric
    simp only [Text.isBlank, Bool.or_eq_false_iff, Bool.and_eq_false_iff, decide_eq_false_iff_not,
      beq_eq_false_iff_ne]
    omega
  · decide
  · decide

/-- A letter is no blank. -/
theorem isBlank_of_isAsciiLetter
    {c : Char}
    (letter : Text.isAsciiLetter c = true) :
    Text.isBlank c = false := by
  refine isBlank_of_isAtNameChar ?_
  rw [Text.isAsciiLetter] at letter
  rw [isAtNameChar, Text.isAsciiAlphanumeric, letter]
  rfl

/-- The mark is taken off exactly the texts that end in one. -/
theorem takeImportance_of_endsMarked
    {before mark : List Char}
    (important : Text.sameIgnoringCase (String.ofList (Text.trim mark)) "important" = true) :
    takeImportance (before ++ '!' :: mark) = (Text.trimEnd before, true) := by
  have fresh : '!' ∉ mark := by
    intro member
    obtain ⟨lead, trail, split, leadBlanks, trailBlanks⟩ := Text.exists_trim mark
    rw [split, List.mem_append, List.mem_append] at member
    rcases member with (inLead | inWord) | inTrail
    · exact absurd (leadBlanks _ inLead) (by decide)
    · exact absurd (isAsciiLetter_of_mem_mark important inWord) (by decide)
    · exact absurd (trailBlanks _ inTrail) (by decide)
  rw [takeImportance, Text.splitLast_append_cons before fresh]
  dsimp only
  rw [if_pos important]

theorem takeImportance_of_not_endsMarked
    {text : List Char}
    (unmarked : ¬EndsMarked text) :
    takeImportance text = (text, false) := by
  unfold takeImportance
  split
  · next before mark split =>
      rw [if_neg]
      intro important
      exact unmarked ⟨before, mark, Text.eq_append_of_splitLast split, important⟩
  · rfl

theorem endsMarked_iff (text : List Char) :
    EndsMarked text ↔ (takeImportance text).2 = true := by
  constructor
  · rintro ⟨before, mark, rfl, important⟩
    rw [takeImportance_of_endsMarked important]
  · intro taken
    by_contra unmarked
    rw [takeImportance_of_not_endsMarked unmarked] at taken
    cases taken

instance (text : List Char) : Decidable (EndsMarked text) :=
  decidable_of_iff _ (endsMarked_iff text).symm

/-! ## Marks and the scan -/

/-- What a scan writes behind a character that is no blank is what it makes of the text behind
that character. -/
theorem exists_of_squeezeFrom_eq
    {keeps : Option Char → Char → Bool}
    {state : TightenState}
    {text before after : List Char}
    {c : Char}
    (nonblank : Text.isBlank c = false)
    (written : squeezeFrom keeps state text = before ++ c :: after) :
    ∃ lead rest, text = lead ++ c :: rest ∧
      after = squeezeFrom keeps ⟨(lead ++ [c]).foldl nextQuote state.quote, some c, false⟩ rest := by
  have notSpace : ' ' ≠ c := by
    rintro rfl
    cases nonblank
  fun_induction squeezeFrom keeps state text generalizing before with
  | case1 => cases before <;> cases written
  | case2 quote previous pending d rest inductionHypothesis =>
      cases before with
      | nil =>
          obtain ⟨rfl, rfl⟩ := List.cons.inj written
          exact ⟨[], rest, rfl, rfl⟩
      | cons e before =>
          obtain ⟨rfl, later⟩ := List.cons.inj written
          obtain ⟨lead, rest, rfl, after_eq⟩ := inductionHypothesis later
          exact ⟨d :: lead, rest, rfl, after_eq⟩
  | case3 previous pending d rest blank inductionHypothesis =>
      obtain ⟨lead, rest, rfl, after_eq⟩ := inductionHypothesis written
      refine ⟨d :: lead, rest, rfl, ?_⟩
      rw [List.cons_append, List.foldl_cons, nextQuote, isQuote_of_isBlank blank]
      exact after_eq
  | case4 previous pending d rest _ tail kept =>
      rename_i inductionHypothesis
      cases before with
      | nil => exact absurd (List.cons.inj written).1 notSpace
      | cons e before =>
          have tail_eq := (List.cons.inj written).2
          cases before with
          | nil =>
              obtain ⟨rfl, rfl⟩ := List.cons.inj tail_eq
              exact ⟨[], rest, rfl, rfl⟩
          | cons f before =>
              obtain ⟨rfl, later⟩ := List.cons.inj tail_eq
              obtain ⟨lead, rest, rfl, after_eq⟩ := inductionHypothesis later
              exact ⟨d :: lead, rest, rfl, after_eq⟩
  | case5 previous pending d rest _ tail dropped =>
      rename_i inductionHypothesis
      cases before with
      | nil =>
          obtain ⟨rfl, rfl⟩ := List.cons.inj written
          exact ⟨[], rest, rfl, rfl⟩
      | cons e before =>
          obtain ⟨rfl, later⟩ := List.cons.inj written
          obtain ⟨lead, rest, rfl, after_eq⟩ := inductionHypothesis later
          exact ⟨d :: lead, rest, rfl, after_eq⟩

/-- A character of which a scan keeps all that surrounds it: no blank, no quote and not tight. -/
def IsLoose (isTight : Char → Bool) (c : Char) : Prop :=
  Text.isBlank c = false ∧ isQuote c = false ∧ isTight c = false

/-- A word written right behind a loose character stands in the text, with blanks behind it and
none in front. -/
theorem exists_of_squeezeFrom_eq_word
    {isTight : Char → Bool}
    {previous : Char}
    (previousLoose : isTight previous = false)
    {pending : Bool}
    {text word trail : List Char}
    (loose : ∀ c ∈ word, IsLoose isTight c)
    (trailBlanks : ∀ c ∈ trail, Text.isBlank c = true)
    (written : squeezeFrom (keepsBeside isTight) ⟨none, some previous, pending⟩ text =
      word ++ trail) :
    ∃ behind, text = word ++ behind ∧ (∀ c ∈ behind, Text.isBlank c = true) ∧
      (pending = true → word = []) := by
  induction text generalizing previous pending word with
  | nil =>
      obtain ⟨rfl, rfl⟩ := List.append_eq_nil_iff.mp written.symm
      exact ⟨[], rfl, trailBlanks, fun _ => rfl⟩
  | cons c rest inductionHypothesis =>
      by_cases blank : Text.isBlank c = true
      · rw [squeezeFrom, if_pos blank] at written
        obtain ⟨behind, rfl, blanks, empty⟩ := inductionHypothesis previousLoose loose written
        obtain rfl := empty rfl
        exact ⟨c :: behind, rfl, List.forall_mem_cons.mpr ⟨blank, blanks⟩, fun _ => rfl⟩
      · rw [squeezeFrom, if_neg blank] at written
        cases word with
        | nil =>
            have present : c ∈ trail := by
              rw [← List.nil_append trail, ← written]
              cases pending && keepsBeside isTight (some previous) c <;> simp
            exact absurd (trailBlanks c present) blank
        | cons d word =>
            obtain ⟨dLoose, wordLoose⟩ := List.forall_mem_cons.mp loose
            have notKept : ¬(pending && keepsBeside isTight (some previous) c) = true := by
              intro kept
              rw [if_pos kept] at written
              obtain rfl := (List.cons.inj written).1
              exact absurd dLoose.1 (by decide)
            rw [if_neg notKept] at written
            obtain ⟨rfl, later⟩ := List.cons.inj written
            obtain ⟨_, notQuote, notTight⟩ := dLoose
            rw [if_neg (by simp [notQuote])] at later
            obtain ⟨behind, rfl, blanks, _⟩ := inductionHypothesis notTight wordLoose later
            refine ⟨behind, rfl, blanks, fun isPending => ?_⟩
            simp [isPending, keepsBeside, notTight, previousLoose] at notKept

/-- A text that starts with no blank has no blanks in front. -/
theorem eq_of_cons_eq_append
    {c : Char}
    (nonblank : ¬Text.isBlank c = true)
    {lead rest text : List Char}
    (leadBlanks : ∀ d ∈ lead, Text.isBlank d = true)
    (same : c :: rest = lead ++ text) :
    c :: rest = text := by
  cases lead with
  | nil => exact same
  | cons d lead =>
      obtain rfl := (List.cons.inj same).1
      exact absurd (leadBlanks c List.mem_cons_self) nonblank

/-- A word that is written between blanks, if any, stands in the text between blanks. -/
theorem exists_of_squeezeFrom_eq_blanks
    {isTight : Char → Bool}
    {previous : Char}
    {pending : Bool}
    {text lead word trail : List Char}
    (nonempty : word ≠ [])
    (loose : ∀ c ∈ word, IsLoose isTight c)
    (leadBlanks : ∀ c ∈ lead, Text.isBlank c = true)
    (trailBlanks : ∀ c ∈ trail, Text.isBlank c = true)
    (written : squeezeFrom (keepsBeside isTight) ⟨none, some previous, pending⟩ text =
      lead ++ (word ++ trail)) :
    ∃ front behind, text = front ++ word ++ behind ∧ (∀ c ∈ front, Text.isBlank c = true) ∧
      ∀ c ∈ behind, Text.isBlank c = true := by
  induction text generalizing pending with
  | nil =>
      have empty := (List.append_eq_nil_iff.mp (List.append_eq_nil_iff.mp written.symm).2).1
      exact absurd empty nonempty
  | cons c rest inductionHypothesis =>
      by_cases blank : Text.isBlank c = true
      · rw [squeezeFrom, if_pos blank] at written
        obtain ⟨front, behind, rfl, frontBlanks, behindBlanks⟩ := inductionHypothesis written
        exact ⟨c :: front, behind, rfl, List.forall_mem_cons.mpr ⟨blank, frontBlanks⟩,
          behindBlanks⟩
      · have start : c :: squeezeFrom (keepsBeside isTight)
            ⟨if isQuote c then some c else none, some c, false⟩ rest = word ++ trail := by
          rw [squeezeFrom, if_neg blank] at written
          by_cases kept : (pending && keepsBeside isTight (some previous) c) = true
          · rw [if_pos kept] at written
            cases lead with
            | nil =>
                cases word with
                | nil => exact absurd rfl nonempty
                | cons d word =>
                    obtain rfl := (List.cons.inj written).1
                    exact absurd (loose ' ' List.mem_cons_self).1 (by decide)
            | cons d lead =>
                exact eq_of_cons_eq_append blank (List.forall_mem_cons.mp leadBlanks).2
                  (List.cons.inj written).2
          · rw [if_neg kept] at written
            exact eq_of_cons_eq_append blank leadBlanks written
        cases word with
        | nil => exact absurd rfl nonempty
        | cons d word =>
            obtain ⟨rfl, later⟩ := List.cons.inj start
            obtain ⟨⟨_, notQuote, notTight⟩, wordLoose⟩ := List.forall_mem_cons.mp loose
            rw [if_neg (by simp [notQuote])] at later
            obtain ⟨behind, rfl, behindBlanks, _⟩ :=
              exists_of_squeezeFrom_eq_word notTight wordLoose trailBlanks later
            exact ⟨[], behind, rfl, by simp, behindBlanks⟩

/-- A string that is still open after a character is closed by a quote behind it. -/
theorem mem_of_foldl_nextQuote_eq_none
    {quote : Char}
    {text : List Char}
    (closed : text.foldl nextQuote (some quote) = none) :
    quote ∈ text := by
  induction text with
  | nil => cases closed
  | cons c rest inductionHypothesis =>
      by_cases ends : c = quote
      · rw [ends]
        exact List.mem_cons_self
      · rw [List.foldl_cons, nextQuote, if_neg ends] at closed
        exact List.mem_cons_of_mem c (inductionHypothesis closed)

/-- A closed text has no open string where no quote follows. -/
theorem IsClosed.foldl_nextQuote_eq_none
    {barred front behind : List Char}
    (closed : IsClosed barred (front ++ behind))
    (unquoted : ∀ c ∈ behind, isQuote c = false) :
    front.foldl nextQuote none = none := by
  cases opened : front.foldl nextQuote none with
  | none => rfl
  | some quote =>
      have ends := congrArg CutState.quote closed.run_eq
      rw [CutState.quote_run, List.foldl_append, show CutState.top.quote = none from rfl,
        opened] at ends
      have isQuote_quote : isQuote quote = true := by
        refine CutState.isProper_run CutState.isProper_top front quote ?_
        rw [CutState.quote_run]
        exact opened
      rw [unquoted quote (mem_of_foldl_nextQuote_eq_none ends)] at isQuote_quote
      cases isQuote_quote

theorem isLoose_of_isAsciiLetter
    {isTight : Char → Bool}
    {c : Char}
    (letter : Text.isAsciiLetter c = true)
    (notTight : isTight c = false) :
    IsLoose isTight c :=
  ⟨isBlank_of_isAsciiLetter letter, isQuote_of_test letter (by decide), notTight⟩

/-- A closed text whose written form ends in an importance mark ends in one itself. -/
theorem EndsMarked.of_squeeze
    {isTight : Char → Bool}
    (letterLoose : ∀ c, Text.isAsciiLetter c = true → isTight c = false)
    {barred text : List Char}
    (closed : IsClosed barred text)
    (marked : EndsMarked (squeeze (keepsBeside isTight) text)) :
    EndsMarked text := by
  obtain ⟨before, mark, written, important⟩ := marked
  obtain ⟨start, rest, text_eq, mark_eq⟩ := exists_of_squeezeFrom_eq (by decide) written
  obtain ⟨lead, trail, mark_split, leadBlanks, trailBlanks⟩ := Text.exists_trim mark
  have loose : ∀ c ∈ Text.trim mark, IsLoose isTight c := by
    intro c member
    have letter := isAsciiLetter_of_mem_mark important member
    exact isLoose_of_isAsciiLetter letter (letterLoose c letter)
  have nonempty : Text.trim mark ≠ [] := by
    intro empty
    rw [empty] at important
    exact absurd important (by decide)
  -- the scan keeps quotes, and there is none in the written mark
  have unquoted : ∀ c ∈ rest, isQuote c = false := by
    intro c member
    by_contra quoted
    rw [Bool.not_eq_false] at quoted
    have nonblank := isBlank_of_isQuote quoted
    have inMark : c ∈ mark := by
      rw [mark_eq]
      exact ((respaced_squeezeFrom (keepsBeside isTight) ⟨_, some '!', false⟩ rest).mem_iff
        nonblank).mpr member
    rw [mark_split, List.mem_append, List.mem_append] at inMark
    rcases inMark with (inLead | inWord) | inTrail
    · exact absurd (leadBlanks c inLead) (by simp [nonblank])
    · exact absurd (loose c inWord).2.1 (by simp [quoted])
    · exact absurd (trailBlanks c inTrail) (by simp [nonblank])
  have outside : (start ++ ['!']).foldl nextQuote none = none := by
    have closedTrim := closed.trim
    rw [text_eq, show start ++ '!' :: rest = start ++ ['!'] ++ rest by simp] at closedTrim
    exact closedTrim.foldl_nextQuote_eq_none unquoted
  rw [show (⟨none, none, false⟩ : TightenState).quote = none from rfl, outside, mark_split,
    List.append_assoc] at mark_eq
  obtain ⟨front, behind, rest_eq, frontBlanks, behindBlanks⟩ :=
    exists_of_squeezeFrom_eq_blanks nonempty loose leadBlanks trailBlanks mark_eq.symm
  obtain ⟨first, last, text_split, _, lastBlanks⟩ := Text.exists_trim text
  refine ⟨first ++ start, front ++ Text.trim mark ++ (behind ++ last), ?_, ?_⟩
  · rw [text_split, text_eq, rest_eq]
    simp
  · rw [Text.trim_append_append frontBlanks (List.forall_mem_append.mpr ⟨behindBlanks, lastBlanks⟩)
      (Text.trim_trim mark) nonempty]
    exact important

/-- A closed value without a mark has a written form without one. -/
theorem not_endsMarked_minifyValue
    {barred : List Char}
    {value : String}
    (closed : IsClosed barred value.toList)
    (unmarked : ¬EndsMarked value.toList) :
    ¬EndsMarked (minifyValue value).toList := by
  intro marked
  rw [toList_minifyValue] at marked
  refine unmarked (EndsMarked.of_squeeze (fun c letter => ?_) closed marked)
  by_contra tight
  rw [Bool.not_eq_false, isTightInValue, beq_iff_eq] at tight
  subst tight
  exact absurd letter (by decide)

end Css
end MailPress
