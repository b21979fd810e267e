import MailPress.Proofs.Css.Tighten

/-!
# Scans of texts with escapes

Inside a string a backslash hides the character behind it. A scan of a text therefore remembers
one more character than a cut of a text without backslashes does, and with it the slash that
could open a comment.

A text is contained when its strings and brackets end in it, no comment starts in it, and certain
characters stand only inside strings and brackets. Contained texts with inert characters between
them are contained.
-/

namespace MailPress
namespace Css

/-- Where a scan stands, and what it has just read. -/
structure Scan where
  /-- The brackets and the string that are open. -/
  place : CutState
  /-- A backslash, or a slash outside strings, if it was read last. -/
  held : Option Char
  deriving DecidableEq, Repr

namespace Scan

/-- A scan that holds no character. -/
def fresh (place : CutState) : Scan :=
  ⟨place, none⟩

/-- The scan outside strings and brackets. -/
def top : Scan :=
  fresh .top

/-- Whether a backslash hides the next character. -/
def isEscaped (scan : Scan) : Bool :=
  scan.place.quote.isSome && scan.held == some '\\'

/-- What is held of a character that is read at a place. -/
def heldAt (place : CutState) (c : Char) : Option Char :=
  if c = '\\' ∨ c = '/' ∧ place.quote = none then some c else none

/-- The scan after one more character. -/
def next (scan : Scan) (c : Char) : Scan :=
  if scan.isEscaped then fresh scan.place else ⟨scan.place.after c, heldAt scan.place c⟩

/-- The scan after a whole text. -/
def run (scan : Scan) (text : List Char) : Scan :=
  text.foldl next scan

@[simp] theorem run_nil (scan : Scan) : scan.run [] = scan := rfl

@[simp] theorem run_cons (scan : Scan) (c : Char) (text : List Char) :
    scan.run (c :: text) = (scan.next c).run text := rfl

@[simp] theorem run_append (scan : Scan) (first second : List Char) :
    scan.run (first ++ second) = (scan.run first).run second :=
  List.foldl_append

theorem isEscaped_of_quote_eq_none
    {scan : Scan}
    (outside : scan.place.quote = none) :
    scan.isEscaped = false := by
  rw [isEscaped, outside]
  rfl

theorem next_of_not_isEscaped
    {scan : Scan}
    (plain : scan.isEscaped = false)
    (c : Char) :
    scan.next c = ⟨scan.place.after c, heldAt scan.place c⟩ := by
  rw [next, plain]
  rfl

theorem heldAt_of_ne
    {c : Char}
    (notBackslash : c ≠ '\\')
    (notSlash : c ≠ '/')
    (place : CutState) :
    heldAt place c = none := by
  simp [heldAt, notBackslash, notSlash]

theorem isProper_fresh
    {place : CutState}
    (proper : place.IsProper) :
    (fresh place).place.IsProper :=
  proper

theorem isProper_top : top.place.IsProper :=
  CutState.isProper_top

theorem isProper_next
    {scan : Scan}
    (proper : scan.place.IsProper)
    (c : Char) :
    (scan.next c).place.IsProper := by
  unfold next
  split
  · exact proper
  · exact CutState.isProper_after proper c

theorem isProper_run
    {scan : Scan}
    (proper : scan.place.IsProper)
    (text : List Char) :
    (scan.run text).place.IsProper := by
  induction text generalizing scan with
  | nil => exact proper
  | cons c text inductionHypothesis => exact inductionHypothesis (isProper_next proper c)

/-- An inert character changes no place. -/
theorem after_of_isInert
    {place : CutState}
    (proper : place.IsProper)
    {c : Char}
    (inert : isInert c = true) :
    place.after c = place := by
  obtain ⟨depth, _ | quote⟩ := place
  · exact CutState.after_of_isInert inert depth
  · have different : c ≠ quote := by
      rintro rfl
      have quoted := proper c rfl
      simp [isInert, quoted] at inert
    simp [CutState.after, different]

theorem ne_of_isInert
    {c : Char}
    (inert : isInert c = true) :
    c ≠ '\\' ∧ c ≠ '/' ∧ c ≠ '*' := by
  refine ⟨?_, ?_, ?_⟩ <;> (rintro rfl; cases inert)

/-- Behind an inert character, nothing is held. -/
theorem next_of_isInert
    {scan : Scan}
    (proper : scan.place.IsProper)
    {c : Char}
    (inert : isInert c = true) :
    scan.next c = fresh scan.place := by
  obtain ⟨notBackslash, notSlash, _⟩ := ne_of_isInert inert
  unfold next
  split
  · rfl
  · rw [after_of_isInert proper inert, heldAt_of_ne notBackslash notSlash, fresh]

theorem run_of_forall_isInert
    {place : CutState}
    (proper : place.IsProper)
    {text : List Char}
    (inert : ∀ c ∈ text, isInert c = true) :
    (fresh place).run text = fresh place := by
  induction text with
  | nil => rfl
  | cons c text inductionHypothesis =>
      obtain ⟨first, rest⟩ := List.forall_mem_cons.mp inert
      rw [run_cons, next_of_isInert proper first]
      exact inductionHypothesis rest

/-- An inert character forgets what was held in front of it. -/
theorem run_append_cons
    {scan : Scan}
    (proper : scan.place.IsProper)
    {c : Char}
    (inert : isInert c = true)
    (first second : List Char) :
    scan.run (first ++ c :: second) = (fresh (scan.run first).place).run second := by
  rw [run_append, run_cons, next_of_isInert (isProper_run proper first) inert]

end Scan

/-! ## What a scan must not meet -/

/-- A comment starts with this character. -/
def startsComment (scan : Scan) (c : Char) : Bool :=
  scan.place.quote.isNone && scan.held == some '/' && c == '*'

/-- The character opens or closes a string or a bracket. -/
def isMark (c : Char) : Bool :=
  isQuote c || ['(', ')', '[', ']'].contains c

/-- A backslash outside strings stands in front of this quote or bracket. -/
def escapesMark (scan : Scan) (c : Char) : Bool :=
  scan.place.quote.isNone && scan.held == some '\\' && isMark c

/-- One of the barred characters stands outside strings and brackets. -/
def standsOutside (barred : List Char) (scan : Scan) (c : Char) : Bool :=
  decide (scan.place = .top) && barred.contains c

/-- A scan of the text meets nothing bad. -/
def Avoids (bad : Scan → Char → Bool) : Scan → List Char → Prop
  | _, [] => True
  | scan, c :: text => bad scan c = false ∧ Avoids bad (scan.next c) text

instance decidableAvoids (bad : Scan → Char → Bool) :
    (scan : Scan) → (text : List Char) → Decidable (Avoids bad scan text)
  | _, [] => .isTrue trivial
  | scan, c :: text =>
      have := decidableAvoids bad (scan.next c) text
      inferInstanceAs (Decidable (_ ∧ _))

theorem avoids_append_iff
    {bad : Scan → Char → Bool}
    {scan : Scan}
    {first second : List Char} :
    Avoids bad scan (first ++ second) ↔
      Avoids bad scan first ∧ Avoids bad (scan.run first) second := by
  induction first generalizing scan with
  | nil => simp [Avoids]
  | cons c first inductionHypothesis =>
      simp only [List.cons_append, Avoids, inductionHypothesis, Scan.run_cons, and_assoc]

theorem startsComment_of_ne
    {c : Char}
    (notStar : c ≠ '*')
    (scan : Scan) :
    startsComment scan c = false := by
  simp [startsComment, notStar]

theorem standsOutside_of_not_mem
    {barred : List Char}
    {c : Char}
    (allowed : c ∉ barred)
    (scan : Scan) :
    standsOutside barred scan c = false := by
  simp [standsOutside, allowed]

theorem standsOutside_of_ne_top
    {scan : Scan}
    (inside : scan.place ≠ .top)
    (barred : List Char)
    (c : Char) :
    standsOutside barred scan c = false := by
  simp [standsOutside, inside]

/-- What avoids some characters outside strings and brackets avoids fewer of them. -/
theorem Avoids.mono
    {barred fewer : List Char}
    (subset : fewer ⊆ barred)
    {scan : Scan}
    {text : List Char}
    (avoids : Avoids (standsOutside barred) scan text) :
    Avoids (standsOutside fewer) scan text := by
  induction text generalizing scan with
  | nil => trivial
  | cons c text inductionHypothesis =>
      obtain ⟨here, rest⟩ := avoids
      refine ⟨?_, inductionHypothesis rest⟩
      simp only [standsOutside, Bool.and_eq_false_iff, decide_eq_false_iff_not,
        List.contains_eq_mem] at here ⊢
      exact here.imp_right fun absent member => absent (subset member)

/-! ## Contained texts -/

/-- A text whose strings and brackets end in it, in which no comment starts, and which has the
barred characters only inside strings and brackets. -/
structure IsContained (barred text : List Char) : Prop where
  /-- Every string and every bracket ends. -/
  place_run : (Scan.top.run text).place = .top
  /-- No comment starts. -/
  uncommented : Avoids startsComment .top text
  /-- No barred character stands outside strings and brackets. -/
  unbarred : Avoids (standsOutside barred) .top text

namespace IsContained

variable {barred first second text : List Char}

theorem nil (barred : List Char) : IsContained barred [] :=
  ⟨rfl, trivial, trivial⟩

theorem mono
    {fewer : List Char}
    (contained : IsContained barred text)
    (subset : fewer ⊆ barred) :
    IsContained fewer text :=
  ⟨contained.place_run, contained.uncommented, contained.unbarred.mono subset⟩

/-- A text that is contained when it goes on from where another one ends, with an inert character
between them. -/
theorem append_cons_of_run
    {c : Char}
    (inert : isInert c = true)
    (allowed : c ∉ barred)
    (firstUncommented : Avoids startsComment .top first)
    (firstUnbarred : Avoids (standsOutside barred) .top first)
    (place_run : ((Scan.fresh (Scan.top.run first).place).run second).place = .top)
    (uncommented : Avoids startsComment (.fresh (Scan.top.run first).place) second)
    (unbarred : Avoids (standsOutside barred) (.fresh (Scan.top.run first).place) second) :
    IsContained barred (first ++ c :: second) := by
  have proper := Scan.isProper_top
  have next_eq := Scan.next_of_isInert (Scan.isProper_run proper first) inert
  refine ⟨?_, avoids_append_iff.mpr ⟨firstUncommented, ?_, ?_⟩,
    avoids_append_iff.mpr ⟨firstUnbarred, ?_, ?_⟩⟩
  · rw [Scan.run_append_cons proper inert, place_run]
  · exact startsComment_of_ne (Scan.ne_of_isInert inert).2.2 _
  · rw [next_eq]
    exact uncommented
  · exact standsOutside_of_not_mem allowed _
  · rw [next_eq]
    exact unbarred

/-- Two contained texts with an inert character between them are a contained text. -/
theorem append_cons
    {c : Char}
    (firstContained : IsContained barred first)
    (inert : isInert c = true)
    (allowed : c ∉ barred)
    (secondContained : IsContained barred second) :
    IsContained barred (first ++ c :: second) := by
  refine append_cons_of_run inert allowed firstContained.uncommented firstContained.unbarred
    ?_ ?_ ?_
  · rw [firstContained.place_run]
    exact secondContained.place_run
  · rw [firstContained.place_run]
    exact secondContained.uncommented
  · rw [firstContained.place_run]
    exact secondContained.unbarred

/-- Inert characters in front of a contained text keep it contained. -/
theorem append_of_forall_isInert
    (inert : ∀ c ∈ first, isInert c = true ∧ c ∉ barred)
    (contained : IsContained barred second) :
    IsContained barred (first ++ second) := by
  induction first with
  | nil => exact contained
  | cons c first inductionHypothesis =>
      obtain ⟨here, rest⟩ := List.forall_mem_cons.mp inert
      exact (nil barred).append_cons here.1 here.2 (inductionHypothesis rest)

/-- Contained texts with an inert character between them are a contained text. -/
theorem intercalate
    {separator : Char}
    (inert : isInert separator = true)
    (allowed : separator ∉ barred)
    {parts : List (List Char)}
    (contained : ∀ part ∈ parts, IsContained barred part) :
    IsContained barred (List.intercalate [separator] parts) := by
  induction parts with
  | nil => exact nil barred
  | cons part parts inductionHypothesis =>
      obtain ⟨partContained, partsContained⟩ := List.forall_mem_cons.mp contained
      cases parts with
      | nil =>
          rw [List.intercalate_singleton]
          exact partContained
      | cons next parts =>
          rw [List.intercalate_cons_cons, List.append_assoc]
          exact partContained.append_cons inert allowed (inductionHypothesis partsContained)

end IsContained

end Css
end MailPress
