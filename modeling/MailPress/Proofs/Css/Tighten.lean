import Mathlib.Tactic.ByContra
import MailPress.Css.Writer
import MailPress.Proofs.Css.Closed
import MailPress.Proofs.Text.Blank

/-!
# Tightened texts

Tightening is a scan that drops runs of blanks outside strings, or keeps one space
of them. Which is kept depends only on the characters on both sides.

All that the written forms of a text have in common follows from one relation: a
text is respaced when some of its blanks are left out and others are made spaces.
A respaced text is closed when the text is, and its ends are those of the text.
Only the start of a comment needs more care, since a slash and a star could be
brought together.
-/
namespace MailPress
namespace Css

/-! ## Blanks and closed texts -/

theorem isInert_of_isBlank {c : Char} (blank : Text.isBlank c = true) : isInert c = true :=
  isInert_of_test blank (by decide)

theorem isQuote_of_isBlank {c : Char} (blank : Text.isBlank c = true) : isQuote c = false :=
  isQuote_of_test blank (by decide)

theorem isBlank_of_isQuote {c : Char} (quoted : isQuote c = true) : Text.isBlank c = false := by
  by_contra blank
  rw [Bool.not_eq_false] at blank
  rw [isQuote_of_isBlank blank] at quoted
  cases quoted

/-- A state that a scan can be in: only a quote ends a string. -/
def CutState.IsProper (state : CutState) : Prop :=
  ∀ quote ∈ state.quote, isQuote quote = true

theorem CutState.isProper_after
    {state : CutState}
    (proper : state.IsProper)
    (c : Char) :
    (state.after c).IsProper := by
  intro quote member
  rw [quote_after] at member
  exact isQuote_of_mem_nextQuote proper member

theorem CutState.isProper_run
    {state : CutState}
    (proper : state.IsProper)
    (text : List Char) :
    (state.run text).IsProper := by
  induction text generalizing state with
  | nil => exact proper
  | cons c rest inductionHypothesis => exact inductionHypothesis (isProper_after proper c)

theorem CutState.isProper_top : top.IsProper := by
  rintro quote ⟨⟩

/-- Blanks change no state. -/
theorem CutState.after_of_isBlank
    {state : CutState}
    (proper : state.IsProper)
    {c : Char}
    (blank : Text.isBlank c = true) :
    state.after c = state := by
  obtain ⟨depth, _ | quote⟩ := state
  · exact after_of_isInert (isInert_of_isBlank blank) depth
  · have different : c ≠ quote := by
      rintro rfl
      have quoted := proper c rfl
      rw [isQuote_of_isBlank blank] at quoted
      cases quoted
    simp [after, different]

theorem CutState.run_of_forall_isBlank
    {state : CutState}
    (proper : state.IsProper)
    {text : List Char}
    (blanks : ∀ c ∈ text, Text.isBlank c = true) :
    state.run text = state := by
  induction text with
  | nil => rfl
  | cons c rest inductionHypothesis =>
      obtain ⟨first, rest⟩ := List.forall_mem_cons.mp blanks
      rw [run_cons, after_of_isBlank proper first, inductionHypothesis rest]

theorem Unbarred.trim
    {barred text : List Char}
    (unbarred : Unbarred barred .top text) :
    Unbarred barred .top (Text.trim text) := by
  obtain ⟨lead, trail, split, leadBlanks, _⟩ := Text.exists_trim text
  have lead_eq := CutState.run_of_forall_isBlank CutState.isProper_top leadBlanks
  rw [split, unbarred_append_iff, unbarred_append_iff, lead_eq] at unbarred
  exact unbarred.1.2

/-- A closed text stays closed when it is trimmed. -/
theorem IsClosed.trim
    {barred text : List Char}
    (closed : IsClosed barred text) :
    IsClosed barred (Text.trim text) := by
  obtain ⟨lead, trail, split, leadBlanks, trailBlanks⟩ := Text.exists_trim text
  have lead_eq := CutState.run_of_forall_isBlank CutState.isProper_top leadBlanks
  have trail_eq := CutState.run_of_forall_isBlank
    (CutState.isProper_run CutState.isProper_top (Text.trim text)) trailBlanks
  obtain ⟨run_eq, unbarred, uncommented⟩ := closed
  refine ⟨?_, unbarred.trim, ?_⟩
  · rw [split, CutState.run_append, CutState.run_append, lead_eq, trail_eq] at run_eq
    exact run_eq
  · rw [split, uncommented_append_iff, uncommented_append_iff] at uncommented
    exact uncommented.1.2.1

/-! ## Respaced texts -/

/-- The second text is the first one with some of its blanks left out, and others made
spaces. -/
inductive Respaced : List Char → List Char → Prop
  /-- Nothing is left of nothing. -/
  | nil : Respaced [] []
  /-- A character is kept. -/
  | keep (c : Char) {text written : List Char} (rest : Respaced text written) :
      Respaced (c :: text) (c :: written)
  /-- A blank is left out. -/
  | drop {c : Char} (blank : Text.isBlank c = true) {text written : List Char}
      (rest : Respaced text written) : Respaced (c :: text) written
  /-- A blank is made a space. -/
  | space {c : Char} (blank : Text.isBlank c = true) {text written : List Char}
      (rest : Respaced text written) : Respaced (c :: text) (' ' :: written)

namespace Respaced

theorem trans
    {text between written : List Char}
    (first : Respaced text between)
    (second : Respaced between written) :
    Respaced text written := by
  induction first generalizing written with
  | nil => exact second
  | keep c rest inductionHypothesis =>
      cases second with
      | keep _ more => exact keep c (inductionHypothesis more)
      | drop blank more => exact drop blank (inductionHypothesis more)
      | space blank more => exact space blank (inductionHypothesis more)
  | drop blank rest inductionHypothesis => exact drop blank (inductionHypothesis second)
  | space blank rest inductionHypothesis =>
      cases second with
      | keep _ more => exact space blank (inductionHypothesis more)
      | drop _ more => exact drop blank (inductionHypothesis more)
      | space _ more => exact space blank (inductionHypothesis more)

theorem refl (text : List Char) : Respaced text text := by
  induction text with
  | nil => exact nil
  | cons c text inductionHypothesis => exact inductionHypothesis.keep c

theorem append
    {text written more moreWritten : List Char}
    (first : Respaced text written)
    (second : Respaced more moreWritten) :
    Respaced (text ++ more) (written ++ moreWritten) := by
  induction first with
  | nil => exact second
  | keep c rest inductionHypothesis => exact inductionHypothesis.keep c
  | drop blank rest inductionHypothesis => exact inductionHypothesis.drop blank
  | space blank rest inductionHypothesis => exact inductionHypothesis.space blank

theorem of_forall_isBlank
    {text : List Char}
    (blanks : ∀ c ∈ text, Text.isBlank c = true) :
    Respaced text [] := by
  induction text with
  | nil => exact nil
  | cons c text inductionHypothesis =>
      obtain ⟨blank, rest⟩ := List.forall_mem_cons.mp blanks
      exact (inductionHypothesis rest).drop blank

theorem trimStart (text : List Char) : Respaced text (Text.trimStart text) := by
  obtain ⟨lead, split, blanks⟩ := Text.exists_trimStart text
  have respaced := (of_forall_isBlank blanks).append (refl (Text.trimStart text))
  rwa [← split] at respaced

theorem trimEnd (text : List Char) : Respaced text (Text.trimEnd text) := by
  obtain ⟨trail, split, blanks⟩ := Text.exists_trimEnd text
  have respaced := (refl (Text.trimEnd text)).append (of_forall_isBlank blanks)
  rwa [← split, List.append_nil] at respaced

theorem trim (text : List Char) : Respaced text (Text.trim text) :=
  (trimStart text).trans (trimEnd (Text.trimStart text))

/-- All but the blanks stays. -/
theorem filter_eq
    {text written : List Char}
    (respaced : Respaced text written) :
    written.filter (fun c => !Text.isBlank c) = text.filter fun c => !Text.isBlank c := by
  induction respaced with
  | nil => rfl
  | keep c rest inductionHypothesis => rw [List.filter_cons, List.filter_cons, inductionHypothesis]
  | drop blank rest inductionHypothesis => simp [blank, inductionHypothesis]
  | space blank rest inductionHypothesis => simp [blank, inductionHypothesis]

theorem mem_iff
    {text written : List Char}
    (respaced : Respaced text written)
    {c : Char}
    (nonblank : Text.isBlank c = false) :
    c ∈ written ↔ c ∈ text := by
  have same := congrArg (c ∈ ·) respaced.filter_eq
  simpa [nonblank] using same

/-- The parts of a respaced text are respaced. -/
theorem exists_append
    {first second written : List Char}
    (respaced : Respaced (first ++ second) written) :
    ∃ firstWritten secondWritten, written = firstWritten ++ secondWritten ∧
      Respaced first firstWritten ∧ Respaced second secondWritten := by
  induction first generalizing written with
  | nil => exact ⟨[], written, rfl, nil, respaced⟩
  | cons c first inductionHypothesis =>
      cases respaced with
      | keep _ rest =>
          obtain ⟨front, behind, rfl, frontRespaced, behindRespaced⟩ := inductionHypothesis rest
          exact ⟨c :: front, behind, rfl, frontRespaced.keep c, behindRespaced⟩
      | drop blank rest =>
          obtain ⟨front, behind, rfl, frontRespaced, behindRespaced⟩ := inductionHypothesis rest
          exact ⟨front, behind, rfl, frontRespaced.drop blank, behindRespaced⟩
      | space blank rest =>
          obtain ⟨front, behind, rfl, frontRespaced, behindRespaced⟩ := inductionHypothesis rest
          exact ⟨' ' :: front, behind, rfl, frontRespaced.space blank, behindRespaced⟩

theorem forall_isBlank_iff
    {text written : List Char}
    (respaced : Respaced text written) :
    (∀ c ∈ written, Text.isBlank c = true) ↔ ∀ c ∈ text, Text.isBlank c = true := by
  have blank (text : List Char) : (∀ c ∈ text, Text.isBlank c = true) ↔
      text.filter (fun c => !Text.isBlank c) = [] := by
    simp [List.filter_eq_nil_iff]
  rw [blank, blank, respaced.filter_eq]

/-- A text without blanks is kept. -/
theorem eq_of_forall_not_isBlank
    {text written : List Char}
    (respaced : Respaced text written)
    (solid : ∀ c ∈ text, Text.isBlank c = false) :
    written = text := by
  induction respaced with
  | nil => rfl
  | keep c rest inductionHypothesis =>
      exact congrArg (c :: ·) (inductionHypothesis (List.forall_mem_cons.mp solid).2)
  | drop blank rest inductionHypothesis =>
      exact absurd ((solid _ List.mem_cons_self).symm.trans blank) Bool.false_ne_true
  | space blank rest inductionHypothesis =>
      exact absurd ((solid _ List.mem_cons_self).symm.trans blank) Bool.false_ne_true

/-- A word between blanks is kept. -/
theorem trim_eq
    {text written : List Char}
    (respaced : Respaced text written)
    (solid : ∀ c ∈ Text.trim text, Text.isBlank c = false) :
    Text.trim written = Text.trim text := by
  obtain ⟨lead, trail, split, leadBlanks, trailBlanks⟩ := Text.exists_trim text
  rw [split] at respaced
  obtain ⟨front, behind, rfl, frontRespaced, behindRespaced⟩ := respaced.exists_append
  obtain ⟨before, word, rfl, beforeRespaced, wordRespaced⟩ := frontRespaced.exists_append
  rw [wordRespaced.eq_of_forall_not_isBlank solid]
  have beforeBlanks := beforeRespaced.forall_isBlank_iff.mpr leadBlanks
  have behindBlanks := behindRespaced.forall_isBlank_iff.mpr trailBlanks
  by_cases empty : Text.trim text = []
  · rw [empty, List.append_nil]
    exact Text.trim_of_forall_isBlank (List.forall_mem_append.mpr ⟨beforeBlanks, behindBlanks⟩)
  · exact Text.trim_append_append beforeBlanks behindBlanks (Text.trim_trim text) empty

/-- A blank that is respaced may have been any blank. -/
theorem of_space
    {c : Char}
    (blank : Text.isBlank c = true)
    {text written : List Char}
    (respaced : Respaced (' ' :: text) written) :
    Respaced (c :: text) written := by
  cases respaced with
  | keep _ rest => exact space blank rest
  | drop _ rest => exact drop blank rest
  | space _ rest => exact space blank rest

theorem run_eq
    {text written : List Char}
    (respaced : Respaced text written)
    {state : CutState}
    (proper : state.IsProper) :
    state.run written = state.run text := by
  induction respaced generalizing state with
  | nil => rfl
  | keep c rest inductionHypothesis =>
      exact inductionHypothesis (CutState.isProper_after proper c)
  | drop blank rest inductionHypothesis =>
      rw [CutState.run_cons, CutState.after_of_isBlank proper blank]
      exact inductionHypothesis proper
  | space blank rest inductionHypothesis =>
      rw [CutState.run_cons, CutState.run_cons, CutState.after_of_isBlank proper blank,
        CutState.after_of_isBlank proper Text.isBlank_space]
      exact inductionHypothesis proper

/-- A text is in the same string behind a respaced text. -/
theorem foldl_nextQuote_eq
    {text written : List Char}
    (respaced : Respaced text written) :
    written.foldl nextQuote none = text.foldl nextQuote none := by
  have same := congrArg CutState.quote (respaced.run_eq CutState.isProper_top)
  rwa [CutState.quote_run, CutState.quote_run] at same

theorem unbarred
    {barred : List Char}
    (spaceAllowed : ' ' ∉ barred)
    {text written : List Char}
    (respaced : Respaced text written)
    {state : CutState}
    (proper : state.IsProper)
    (textUnbarred : Unbarred barred state text) :
    Unbarred barred state written := by
  induction respaced generalizing state with
  | nil => trivial
  | keep c rest inductionHypothesis =>
      obtain ⟨plain, allowed, restUnbarred⟩ := textUnbarred
      exact ⟨plain, allowed,
        inductionHypothesis (CutState.isProper_after proper c) restUnbarred⟩
  | drop blank rest inductionHypothesis =>
      obtain ⟨_, _, restUnbarred⟩ := textUnbarred
      rw [CutState.after_of_isBlank proper blank] at restUnbarred
      exact inductionHypothesis proper restUnbarred
  | space blank rest inductionHypothesis =>
      obtain ⟨_, _, restUnbarred⟩ := textUnbarred
      rw [CutState.after_of_isBlank proper blank] at restUnbarred
      refine ⟨by decide, fun _ => spaceAllowed, ?_⟩
      rw [CutState.after_of_isBlank proper Text.isBlank_space]
      exact inductionHypothesis proper restUnbarred

theorem eq_nil
    {text written : List Char}
    (respaced : Respaced text written)
    (empty : text = []) :
    written = [] := by
  subst empty
  cases respaced
  rfl

/-- A character that is no blank and stands at both ends can be taken off. -/
theorem of_concat
    {c : Char}
    (nonblank : Text.isBlank c = false)
    {text written : List Char}
    (respaced : Respaced (text ++ [c]) (written ++ [c])) :
    Respaced text written := by
  have notBlank {d : Char} (blank : Text.isBlank d = true) : d ≠ c := by
    rintro rfl
    rw [nonblank] at blank
    cases blank
  induction text generalizing written with
  | nil =>
      cases written with
      | nil => exact nil
      | cons d written =>
          cases respaced with
          | keep _ rest => simpa using rest.eq_nil rfl
          | drop blank _ => exact absurd rfl (notBlank blank)
          | space blank _ => exact absurd rfl (notBlank blank)
  | cons d text inductionHypothesis =>
      cases written with
      | nil =>
          cases respaced with
          | keep _ rest =>
              have member := (rest.mem_iff nonblank).mpr (List.mem_append_right text (by simp))
              cases member
          | drop blank rest =>
              exact (inductionHypothesis rest).drop blank
          | space blank rest => exact absurd rfl (notBlank Text.isBlank_space)
      | cons e written =>
          cases respaced with
          | keep _ rest => exact (inductionHypothesis rest).keep d
          | drop blank rest => exact (inductionHypothesis rest).drop blank
          | space blank rest => exact (inductionHypothesis rest).space blank

/-- A text that starts with no blank still starts with the same character. -/
theorem head?_eq
    {text written : List Char}
    (respaced : Respaced text written)
    (start : ∀ c ∈ text.head?, Text.isBlank c = false) :
    written.head? = text.head? := by
  cases respaced with
  | nil => rfl
  | keep c rest => rfl
  | drop blank rest =>
      rw [start _ rfl] at blank
      cases blank
  | space blank rest =>
      rw [start _ rfl] at blank
      cases blank

/-- A text that ends with no blank still ends with the same character. -/
theorem getLast?_eq
    {text written : List Char}
    (respaced : Respaced text written)
    (finish : ∀ c ∈ text.getLast?, Text.isBlank c = false) :
    written.getLast? = text.getLast? := by
  have extended {c : Char} {text written : List Char} (nonempty : text ≠ [])
      (same : written.getLast? = text.getLast?) : (c :: written).getLast? = text.getLast? := by
    have writtenNonempty : written ≠ [] := by
      rintro rfl
      exact nonempty (List.getLast?_eq_none_iff.mp same.symm)
    rw [List.getLast?_cons_of_ne_nil writtenNonempty, same]
  have remains {c : Char} {text : List Char} (blank : Text.isBlank c = true)
      (nonblankEnd : ∀ d ∈ (c :: text).getLast?, Text.isBlank d = false) : text ≠ [] := by
    rintro rfl
    rw [nonblankEnd c rfl] at blank
    cases blank
  induction respaced with
  | nil => rfl
  | @keep c text written rest inductionHypothesis =>
      by_cases empty : text = []
      · rw [empty, rest.eq_nil empty]
      · rw [List.getLast?_cons_of_ne_nil empty] at finish ⊢
        exact extended empty (inductionHypothesis finish)
  | drop blank rest inductionHypothesis =>
      have nonempty := remains blank finish
      rw [List.getLast?_cons_of_ne_nil nonempty] at finish ⊢
      exact inductionHypothesis finish
  | space blank rest inductionHypothesis =>
      have nonempty := remains blank finish
      rw [List.getLast?_cons_of_ne_nil nonempty] at finish ⊢
      exact extended nonempty (inductionHypothesis finish)

end Respaced

/-- What all written forms of a text have in common: the trimmed text is respaced, without a
comment being started. -/
structure IsTightened (text written : List Char) : Prop where
  /-- Only blanks differ. -/
  respaced : Respaced (Text.trim text) written
  /-- No comment is started. -/
  uncommented (textUncommented : Uncommented (Text.trim text)) : Uncommented written

namespace IsTightened

variable {text written : List Char}

theorem head?_eq (tightened : IsTightened text written) :
    written.head? = (Text.trim text).head? :=
  tightened.respaced.head?_eq (Text.isBlank_head?_trim text)

theorem getLast?_eq (tightened : IsTightened text written) :
    written.getLast? = (Text.trim text).getLast? :=
  tightened.respaced.getLast?_eq (Text.isBlank_getLast?_trim text)

/-- A written form has no blanks at its ends. -/
theorem trim_eq (tightened : IsTightened text written) : Text.trim written = written := by
  refine Text.trim_eq_self ?_ ?_
  · rw [tightened.head?_eq]
    exact Text.isBlank_head?_trim text
  · rw [tightened.getLast?_eq]
    exact Text.isBlank_getLast?_trim text

theorem eq_nil_iff (tightened : IsTightened text written) :
    written = [] ↔ Text.trim text = [] := by
  rw [← List.head?_eq_none_iff, tightened.head?_eq, List.head?_eq_none_iff]

/-- The written form of a closed text is closed. -/
theorem isClosed
    (tightened : IsTightened text written)
    {barred : List Char}
    (spaceAllowed : ' ' ∉ barred)
    (closed : IsClosed barred text) :
    IsClosed barred written := by
  obtain ⟨run_eq, unbarred, uncommented⟩ := closed.trim
  refine ⟨?_, ?_, tightened.uncommented uncommented⟩
  · rw [tightened.respaced.run_eq CutState.isProper_top, run_eq]
  · exact tightened.respaced.unbarred spaceAllowed CutState.isProper_top unbarred

end IsTightened

/-! ## The scan -/

/-- Keep of each run of blanks outside strings one space or nothing, as the characters on
both sides require. -/
def squeezeFrom (keeps : Option Char → Char → Bool) : TightenState → List Char → List Char
  | _, [] => []
  | ⟨some quote, _, _⟩, c :: rest =>
      c :: squeezeFrom keeps ⟨if c = quote then none else some quote, some c, false⟩ rest
  | ⟨none, previous, pending⟩, c :: rest =>
      if Text.isBlank c then
        squeezeFrom keeps ⟨none, previous, true⟩ rest
      else
        let tail := c :: squeezeFrom keeps ⟨if isQuote c then some c else none, some c, false⟩ rest
        if pending && keeps previous c then ' ' :: tail else tail

@[simp] theorem squeezeFrom_nil (keeps : Option Char → Char → Bool) (state : TightenState) :
    squeezeFrom keeps state [] = [] := by
  rw [squeezeFrom]

/-- What the scan remembers after one more character. -/
def TightenState.after : TightenState → Char → TightenState
  | ⟨some quote, _, _⟩, c => ⟨if c = quote then none else some quote, some c, false⟩
  | ⟨none, previous, _⟩, c =>
      if Text.isBlank c then ⟨none, previous, true⟩
      else ⟨if isQuote c then some c else none, some c, false⟩

/-- What the scan remembers after a whole text. -/
def TightenState.run (state : TightenState) (text : List Char) : TightenState :=
  text.foldl after state

theorem TightenState.quote_after (state : TightenState) (c : Char) :
    (state.after c).quote = nextQuote state.quote c := by
  obtain ⟨_ | quote, previous, pending⟩ := state
  · by_cases blank : Text.isBlank c = true
    · simp [after, blank, nextQuote, isQuote_of_isBlank blank]
    · simp [after, blank, nextQuote]
  · rfl

theorem TightenState.quote_run (state : TightenState) (text : List Char) :
    (state.run text).quote = text.foldl nextQuote state.quote := by
  induction text generalizing state with
  | nil => rfl
  | cons c rest inductionHypothesis =>
      rw [List.foldl_cons, ← quote_after]
      exact inductionHypothesis (state.after c)

/-- The scan goes through a text and on with what follows. -/
theorem squeezeFrom_append
    (keeps : Option Char → Char → Bool)
    (state : TightenState)
    (text more : List Char) :
    squeezeFrom keeps state (text ++ more) =
      squeezeFrom keeps state text ++ squeezeFrom keeps (state.run text) more := by
  induction text generalizing state with
  | nil => simp [squeezeFrom, TightenState.run]
  | cons c rest inductionHypothesis =>
      have behind : state.run (c :: rest) = (state.after c).run rest := rfl
      rw [behind, List.cons_append]
      obtain ⟨_ | quote, previous, pending⟩ := state
      · by_cases blank : Text.isBlank c = true
        · simp only [squeezeFrom, TightenState.after, if_pos blank, inductionHypothesis]
        · simp only [squeezeFrom, TightenState.after, if_neg blank, inductionHypothesis]
          split <;> rfl
      · simp only [squeezeFrom, TightenState.after, inductionHypothesis, List.cons_append]

/-- What the scan writes for the blanks it has read since the last character, if `c` is next. -/
def TightenState.gap (keeps : Option Char → Char → Bool) (state : TightenState) (c : Char) :
    List Char :=
  if state.pending && keeps state.previous c then [' '] else []

theorem squeezeFrom_cons_of_nonblank
    (keeps : Option Char → Char → Bool)
    {state : TightenState}
    (outside : state.quote = none)
    {c : Char}
    (nonblank : Text.isBlank c = false)
    (rest : List Char) :
    squeezeFrom keeps state (c :: rest) =
      state.gap keeps c ++ c :: squeezeFrom keeps (state.after c) rest := by
  obtain ⟨quote, previous, pending⟩ := state
  obtain rfl : quote = none := outside
  simp only [squeezeFrom, TightenState.after, TightenState.gap, nonblank, Bool.false_eq_true,
    if_false]
  split <;> rfl

/-- A string is kept as it is. -/
theorem squeezeFrom_quoted
    (keeps : Option Char → Char → Bool)
    {quote : Char}
    {body : List Char}
    (fresh : quote ∉ body)
    (previous : Option Char)
    (pending : Bool)
    (rest : List Char) :
    squeezeFrom keeps ⟨some quote, previous, pending⟩ (body ++ quote :: rest) =
      body ++ quote :: squeezeFrom keeps ⟨none, some quote, false⟩ rest := by
  induction body generalizing previous pending with
  | nil => simp [squeezeFrom]
  | cons c body inductionHypothesis =>
      obtain ⟨different, freshRest⟩ := List.ne_and_not_mem_of_not_mem_cons fresh
      rw [List.cons_append, squeezeFrom, if_neg different.symm, inductionHypothesis freshRest,
        List.cons_append]

/-- The scan finds a string outside others, and goes on behind it. -/
theorem squeezeFrom_string
    (keeps : Option Char → Char → Bool)
    {before : List Char}
    (outside : before.foldl nextQuote none = none)
    {quote : Char}
    (opens : isQuote quote = true)
    {body : List Char}
    (fresh : quote ∉ body)
    (after : List Char) :
    squeezeFrom keeps ⟨none, none, false⟩ (before ++ quote :: (body ++ quote :: after)) =
      squeezeFrom keeps ⟨none, none, false⟩ before ++
        ((TightenState.run ⟨none, none, false⟩ before).gap keeps quote ++
          quote :: (body ++ quote :: squeezeFrom keeps ⟨none, some quote, false⟩ after)) := by
  have nonblank := isBlank_of_isQuote opens
  rw [squeezeFrom_append]
  have quote_eq : (TightenState.run ⟨none, none, false⟩ before).quote = none := by
    rw [TightenState.quote_run]
    exact outside
  generalize TightenState.run ⟨none, none, false⟩ before = state at quote_eq
  have opened : state.after quote = ⟨some quote, some quote, false⟩ := by
    obtain ⟨_ | inner, previous, pending⟩ := state
    · simp [TightenState.after, nonblank, opens]
    · cases quote_eq
  rw [squeezeFrom_cons_of_nonblank keeps quote_eq nonblank, opened, squeezeFrom_quoted keeps fresh]

/-- Squeeze a whole text, blanks at its ends removed. -/
def squeeze (keeps : Option Char → Char → Bool) (text : List Char) : List Char :=
  squeezeFrom keeps ⟨none, none, false⟩ (Text.trim text)

/-- A space stays where no tight character stands beside it. -/
def keepsBeside (isTight : Char → Bool) (previous : Option Char) (c : Char) : Bool :=
  !isTight c && !previous.any isTight

theorem tightenFrom_eq_squeezeFrom
    (isTight : Char → Bool)
    (state : TightenState)
    (text : List Char) :
    tightenFrom isTight state text = squeezeFrom (keepsBeside isTight) state text := by
  induction text generalizing state with
  | nil => simp [tightenFrom, squeezeFrom]
  | cons c rest inductionHypothesis =>
      obtain ⟨_ | quote, previous, pending⟩ := state <;>
        simp [tightenFrom, squeezeFrom, inductionHypothesis, keepsBeside, Bool.and_assoc]

theorem tighten_eq_squeeze (isTight : Char → Bool) (text : List Char) :
    tighten isTight text = squeeze (keepsBeside isTight) text :=
  tightenFrom_eq_squeezeFrom ..

/-- Squeezing respaces, if the pending blanks are counted in. -/
theorem respaced_squeezeFrom
    (keeps : Option Char → Char → Bool)
    (state : TightenState)
    (text : List Char) :
    Respaced (if state.pending then ' ' :: text else text) (squeezeFrom keeps state text) := by
  have counted (pending : Bool) {text written : List Char} (respaced : Respaced text written) :
      Respaced (if pending then ' ' :: text else text) written := by
    cases pending with
    | false => exact respaced
    | true => exact respaced.drop Text.isBlank_space
  fun_induction squeezeFrom keeps state text with
  | case1 state => exact counted _ .nil
  | case2 quote previous pending c rest inductionHypothesis =>
      exact counted _ (inductionHypothesis.keep c)
  | case3 previous pending c rest blank inductionHypothesis =>
      exact counted _ (inductionHypothesis.of_space blank)
  | case4 previous pending c rest nonblank tail kept inductionHypothesis =>
      obtain ⟨isPending, _⟩ := Bool.and_eq_true_iff.mp kept
      rw [if_pos isPending]
      exact (inductionHypothesis.keep c).space Text.isBlank_space
  | case5 previous pending c rest nonblank tail dropped inductionHypothesis =>
      exact counted _ (inductionHypothesis.keep c)

/-- Squeezing starts no comment, not even with the character written before, when a space
between a slash and a star is kept. -/
theorem uncommented_squeezeFrom
    {keeps : Option Char → Char → Bool}
    (apart : keeps (some '/') '*' = true)
    {state : TightenState}
    {text : List Char}
    (uncommented : Uncommented text)
    (start : state.pending = false ∨ state.quote ≠ none →
      ¬(state.previous = some '/' ∧ text.head? = some '*')) :
    Uncommented (squeezeFrom keeps state text) ∧
      ¬(state.previous = some '/' ∧ (squeezeFrom keeps state text).head? = some '*') := by
  have next {c : Char} {rest : List Char} (notComment : ¬(c = '/' ∧ rest.head? = some '*')) :
      ¬(some c = some '/' ∧ rest.head? = some '*') :=
    fun comment => notComment ⟨Option.some.inj comment.1, comment.2⟩
  fun_induction squeezeFrom keeps state text with
  | case1 => exact ⟨trivial, by simp⟩
  | case2 quote previous pending c rest inductionHypothesis =>
      obtain ⟨notComment, restUncommented⟩ := uncommented
      obtain ⟨written, apartFromC⟩ := inductionHypothesis restUncommented fun _ => next notComment
      exact ⟨⟨fun comment => apartFromC ⟨congrArg some comment.1, comment.2⟩, written⟩,
        start (.inr (by simp))⟩
  | case3 previous pending c rest blank inductionHypothesis =>
      exact inductionHypothesis uncommented.2 (by simp)
  | case4 previous pending c rest nonblank tail kept inductionHypothesis =>
      obtain ⟨notComment, restUncommented⟩ := uncommented
      obtain ⟨written, apartFromC⟩ := inductionHypothesis restUncommented fun _ => next notComment
      refine ⟨⟨by simp, fun comment => apartFromC ⟨congrArg some comment.1, comment.2⟩, written⟩,
        by simp⟩
  | case5 previous pending c rest nonblank tail dropped inductionHypothesis =>
      obtain ⟨notComment, restUncommented⟩ := uncommented
      obtain ⟨written, apartFromC⟩ := inductionHypothesis restUncommented fun _ => next notComment
      refine ⟨⟨fun comment => apartFromC ⟨congrArg some comment.1, comment.2⟩, written⟩, ?_⟩
      rintro ⟨rfl, star⟩
      obtain rfl : c = '*' := Option.some.inj star
      cases pending with
      | false => exact start (.inl rfl) ⟨rfl, rfl⟩
      | true => exact dropped (by rw [apart]; rfl)

/-- Squeezing tightens. -/
theorem isTightened_squeeze
    {keeps : Option Char → Char → Bool}
    (apart : keeps (some '/') '*' = true)
    (text : List Char) :
    IsTightened text (squeeze keeps text) where
  respaced := respaced_squeezeFrom keeps ⟨none, none, false⟩ (Text.trim text)
  uncommented textUncommented :=
    (uncommented_squeezeFrom apart textUncommented (by simp)).1

/-- Squeezing a squeezed text changes nothing. -/
theorem squeezeFrom_squeezeFrom
    (keeps : Option Char → Char → Bool)
    (state : TightenState)
    (text : List Char) :
    squeezeFrom keeps { state with pending := false } (squeezeFrom keeps state text) =
      squeezeFrom keeps state text := by
  fun_induction squeezeFrom keeps state text with
  | case1 => simp [squeezeFrom]
  | case2 quote previous pending c rest inductionHypothesis =>
      rw [squeezeFrom]
      exact congrArg (c :: ·) inductionHypothesis
  | case3 previous pending c rest blank inductionHypothesis => exact inductionHypothesis
  | case4 previous pending c rest nonblank tail kept inductionHypothesis =>
      obtain ⟨_, keep⟩ := Bool.and_eq_true_iff.mp kept
      rw [squeezeFrom, if_pos Text.isBlank_space, squeezeFrom, if_neg nonblank]
      simp only [Bool.true_and, keep, if_true, tail]
      exact congrArg (' ' :: c :: ·) inductionHypothesis
  | case5 previous pending c rest nonblank tail dropped inductionHypothesis =>
      rw [squeezeFrom, if_neg nonblank]
      simp only [Bool.false_and, Bool.false_eq_true, if_false, tail]
      exact congrArg (c :: ·) inductionHypothesis

theorem squeeze_squeeze
    {keeps : Option Char → Char → Bool}
    (apart : keeps (some '/') '*' = true)
    (text : List Char) :
    squeeze keeps (squeeze keeps text) = squeeze keeps text := by
  have trimmed := (isTightened_squeeze apart text).trim_eq
  rw [squeeze, trimmed]
  exact squeezeFrom_squeezeFrom keeps ⟨none, none, false⟩ (Text.trim text)

/-! ## Selectors and values -/

theorem toList_minifySelector (selector : String) :
    (minifySelector selector).toList = squeeze (keepsBeside isTightInSelector) selector.toList := by
  rw [minifySelector, tighten_eq_squeeze, String.toList_ofList]

theorem isTightened_minifySelector (selector : String) :
    IsTightened selector.toList (minifySelector selector).toList := by
  rw [toList_minifySelector]
  exact isTightened_squeeze (by decide) selector.toList

/-- A written selector is its own written form. -/
theorem minifySelector_minifySelector (selector : String) :
    minifySelector (minifySelector selector) = minifySelector selector := by
  apply String.toList_inj.mp
  rw [toList_minifySelector, toList_minifySelector, squeeze_squeeze (by decide)]

theorem toList_minifyValue (value : String) :
    (minifyValue value).toList = squeeze (keepsBeside isTightInValue) value.toList := by
  rw [minifyValue, tighten_eq_squeeze, String.toList_ofList]

theorem isTightened_minifyValue (value : String) :
    IsTightened value.toList (minifyValue value).toList := by
  rw [toList_minifyValue]
  exact isTightened_squeeze (by decide) value.toList

/-- A written value is its own written form. -/
theorem minifyValue_minifyValue (value : String) :
    minifyValue (minifyValue value) = minifyValue value := by
  apply String.toList_inj.mp
  rw [toList_minifyValue, toList_minifyValue, squeeze_squeeze (by decide)]

end Css
end MailPress
