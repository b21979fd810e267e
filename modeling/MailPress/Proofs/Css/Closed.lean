import MailPress.Css.Reader

/-!
# Closed texts

A text is closed when its strings and brackets end in it, when it holds neither a
backslash nor the start of a comment, and when certain characters, those that
would end it, stand only inside strings and brackets.

The reader and the cutter scan such a text from one end to the other: the reader
stops right behind it, and the cutter takes it as one part.
-/

namespace MailPress
namespace Css

namespace CutState

/-- The state outside strings and brackets. -/
def top : CutState :=
  ⟨0, none⟩

/-- The state after a whole text without backslashes. -/
def run (state : CutState) (text : List Char) : CutState :=
  text.foldl after state

@[simp] theorem run_nil (state : CutState) : state.run [] = state := rfl

@[simp] theorem run_cons (state : CutState) (c : Char) (text : List Char) :
    state.run (c :: text) = (state.after c).run text := rfl

@[simp] theorem run_append (state : CutState) (first second : List Char) :
    state.run (first ++ second) = (state.run first).run second :=
  List.foldl_append

/-- The same state as the reader keeps it. -/
def scan : CutState → ScanState
  | ⟨depth, none⟩ => .plain depth
  | ⟨depth, some quote⟩ => .quoted quote depth

theorem scan_after_of_plain (depth : Nat) (c : Char) :
    (after ⟨depth, none⟩ c).scan = stateAfter depth c := by
  unfold after stateAfter
  dsimp only
  split
  · rfl
  · split
    · rfl
    · split <;> rfl

end CutState

section

variable {test : Char → Bool} {c : Char}

/-- A character that passes a test is none of those that fail it. -/
theorem not_mem_of_test
    (passes : test c = true)
    {others : List Char}
    (fail : others.any test = false) :
    c ∉ others :=
  fun member => List.any_eq_false.mp fail c member passes

theorem ne_of_test
    (passes : test c = true)
    {d : Char}
    (fails : test d = false) :
    c ≠ d := by
  rintro rfl
  exact Bool.false_ne_true (fails.symm.trans passes)

theorem isQuote_of_test
    (passes : test c = true)
    (fail : ['"', '\''].any test = false) :
    isQuote c = false := by
  simpa [isQuote] using not_mem_of_test passes fail

end

/-- The string that a scan is in after a character. -/
def nextQuote : Option Char → Char → Option Char
  | some quote, c => if c = quote then none else some quote
  | none, c => if isQuote c then some c else none

theorem isQuote_of_mem_nextQuote
    {quote : Option Char}
    (proper : ∀ opened ∈ quote, isQuote opened = true)
    {c opened : Char}
    (member : opened ∈ nextQuote quote c) :
    isQuote opened = true := by
  cases quote with
  | none =>
      by_cases opens : isQuote c = true
      · rw [nextQuote, if_pos opens] at member
        obtain rfl := Option.some.inj member
        exact opens
      · rw [nextQuote, if_neg opens] at member
        cases member
  | some quote =>
      by_cases ends : c = quote
      · rw [nextQuote, if_pos ends] at member
        cases member
      · rw [nextQuote, if_neg ends] at member
        exact proper opened member

theorem CutState.quote_after (state : CutState) (c : Char) :
    (state.after c).quote = nextQuote state.quote c := by
  obtain ⟨depth, _ | quote⟩ := state
  · unfold after nextQuote
    dsimp only
    split
    · rfl
    · split
      · rfl
      · split <;> rfl
  · unfold after nextQuote
    dsimp only
    split <;> rfl

theorem CutState.quote_run (state : CutState) (text : List Char) :
    (state.run text).quote = text.foldl nextQuote state.quote := by
  induction text generalizing state with
  | nil => rfl
  | cons c rest inductionHypothesis =>
      rw [run_cons, inductionHypothesis, quote_after, List.foldl_cons]

/-- From a state on, a text holds no backslash, and none of the barred characters outside
strings and brackets. -/
def Unbarred (barred : List Char) : CutState → List Char → Prop
  | _, [] => True
  | state, c :: rest =>
      c ≠ '\\' ∧ (state = .top → c ∉ barred) ∧ Unbarred barred (state.after c) rest

/-- A text in which no comment starts. -/
def Uncommented : List Char → Prop
  | [] => True
  | c :: rest => ¬(c = '/' ∧ rest.head? = some '*') ∧ Uncommented rest

instance decidableUnbarred (barred : List Char) :
    (state : CutState) → (text : List Char) → Decidable (Unbarred barred state text)
  | _, [] => .isTrue trivial
  | state, c :: rest =>
      have := decidableUnbarred barred (state.after c) rest
      inferInstanceAs (Decidable (_ ∧ _ ∧ _))

instance decidableUncommented : (text : List Char) → Decidable (Uncommented text)
  | [] => .isTrue trivial
  | _ :: rest =>
      have := decidableUncommented rest
      inferInstanceAs (Decidable (_ ∧ _))

/-- A text whose strings and brackets end in it, without backslashes and comments, and with
the barred characters only inside strings and brackets. -/
structure IsClosed (barred : List Char) (text : List Char) : Prop where
  /-- Every string and every bracket is closed. -/
  run_eq : CutState.top.run text = .top
  /-- There is no backslash, and no barred character outside strings and brackets. -/
  unbarred : Unbarred barred .top text
  /-- No comment starts. -/
  uncommented : Uncommented text

instance (barred text : List Char) : Decidable (IsClosed barred text) :=
  decidable_of_iff (CutState.top.run text = .top ∧ Unbarred barred .top text ∧ Uncommented text)
    ⟨fun ⟨ends, unbarred, uncommented⟩ => ⟨ends, unbarred, uncommented⟩,
      fun closed => ⟨closed.run_eq, closed.unbarred, closed.uncommented⟩⟩

theorem unbarred_append_iff
    {barred : List Char}
    {state : CutState}
    {first second : List Char} :
    Unbarred barred state (first ++ second) ↔
      Unbarred barred state first ∧ Unbarred barred (state.run first) second := by
  induction first generalizing state with
  | nil => simp [Unbarred]
  | cons c rest inductionHypothesis =>
      simp only [List.cons_append, Unbarred, inductionHypothesis, CutState.run_cons, and_assoc]

theorem Unbarred.mono
    {barred fewer : List Char}
    (subset : fewer ⊆ barred)
    {state : CutState}
    {text : List Char}
    (unbarred : Unbarred barred state text) :
    Unbarred fewer state text := by
  induction text generalizing state with
  | nil => trivial
  | cons c rest inductionHypothesis =>
      obtain ⟨plain, allowed, restUnbarred⟩ := unbarred
      exact ⟨plain, fun outside member => allowed outside (subset member),
        inductionHypothesis restUnbarred⟩

theorem Unbarred.append
    {first second : List Char}
    {state : CutState}
    {text : List Char}
    (firstUnbarred : Unbarred first state text)
    (secondUnbarred : Unbarred second state text) :
    Unbarred (first ++ second) state text := by
  induction text generalizing state with
  | nil => trivial
  | cons c rest inductionHypothesis =>
      obtain ⟨plain, notFirst, restFirst⟩ := firstUnbarred
      obtain ⟨_, notSecond, restSecond⟩ := secondUnbarred
      refine ⟨plain, fun outside member => ?_, inductionHypothesis restFirst restSecond⟩
      rcases List.mem_append.mp member with inFirst | inSecond
      · exact notFirst outside inFirst
      · exact notSecond outside inSecond

theorem Unbarred.not_mem_backslash
    {barred : List Char}
    {state : CutState}
    {text : List Char}
    (unbarred : Unbarred barred state text) :
    '\\' ∉ text := by
  induction text generalizing state with
  | nil => exact List.not_mem_nil
  | cons c rest inductionHypothesis =>
      obtain ⟨plain, _, restUnbarred⟩ := unbarred
      exact List.not_mem_cons_of_ne_of_not_mem (Ne.symm plain) (inductionHypothesis restUnbarred)

/-- The parts of a text without comments have none, and none starts where they meet. -/
theorem uncommented_append_iff
    {first second : List Char} :
    Uncommented (first ++ second) ↔
      Uncommented first ∧ Uncommented second ∧
        ¬(first.getLast? = some '/' ∧ second.head? = some '*') := by
  induction first with
  | nil => simp [Uncommented]
  | cons c rest inductionHypothesis =>
      cases rest with
      | nil => simp [Uncommented, and_comm]
      | cons d rest =>
          simp only [List.cons_append, Uncommented, List.head?_cons, List.getLast?_cons_cons,
            and_assoc] at inductionHypothesis ⊢
          rw [inductionHypothesis]

/-- A character that starts no string, bracket or comment and ends none. -/
def isInert (c : Char) : Bool :=
  !isQuote c && !(['(', ')', '[', ']', '\\', '/', '*'].contains c)

theorem isInert_of_test
    {test : Char → Bool}
    {c : Char}
    (passes : test c = true)
    (fail : ['"', '\'', '(', ')', '[', ']', '\\', '/', '*'].any test = false) :
    isInert c = true := by
  simpa [isInert, isQuote, and_assoc] using not_mem_of_test passes fail

theorem CutState.after_of_isInert
    {c : Char}
    (inert : isInert c = true)
    (depth : Nat) :
    CutState.after ⟨depth, none⟩ c = ⟨depth, none⟩ := by
  simp only [isInert, Bool.and_eq_true, Bool.not_eq_true', List.contains_eq_mem,
    List.mem_cons, not_or, decide_eq_false_iff_not] at inert
  simp [CutState.after, inert]

namespace IsClosed

theorem nil (barred : List Char) : IsClosed barred [] :=
  ⟨rfl, trivial, trivial⟩

theorem mono
    {barred fewer text : List Char}
    (closed : IsClosed barred text)
    (subset : fewer ⊆ barred) :
    IsClosed fewer text :=
  ⟨closed.run_eq, closed.unbarred.mono subset, closed.uncommented⟩

/-- An inert character in front of a closed text keeps it closed. -/
theorem cons
    {barred text : List Char}
    {c : Char}
    (inert : isInert c = true)
    (allowed : c ∉ barred)
    (closed : IsClosed barred text) :
    IsClosed barred (c :: text) := by
  have state_eq : CutState.top.after c = .top := CutState.after_of_isInert inert 0
  have notBackslash : c ≠ '\\' := by
    rintro rfl
    cases inert
  have notSlash : c ≠ '/' := by
    rintro rfl
    cases inert
  refine ⟨?_, ⟨notBackslash, fun _ => allowed, ?_⟩, ?_, closed.uncommented⟩
  · rw [CutState.run_cons, state_eq, closed.run_eq]
  · rw [state_eq]
    exact closed.unbarred
  · exact fun comment => notSlash comment.1

/-- Two closed texts with an inert character between them are a closed text. -/
theorem append_cons
    {barred first second : List Char}
    {c : Char}
    (firstClosed : IsClosed barred first)
    (inert : isInert c = true)
    (allowed : c ∉ barred)
    (secondClosed : IsClosed barred second) :
    IsClosed barred (first ++ c :: second) := by
  have closed := secondClosed.cons inert allowed
  have notStar : c ≠ '*' := by
    rintro rfl
    cases inert
  refine ⟨?_, ?_, ?_⟩
  · rw [CutState.run_append, firstClosed.run_eq, closed.run_eq]
  · refine unbarred_append_iff.mpr ⟨firstClosed.unbarred, ?_⟩
    rw [firstClosed.run_eq]
    exact closed.unbarred
  · refine uncommented_append_iff.mpr ⟨firstClosed.uncommented, closed.uncommented, ?_⟩
    rintro ⟨_, star⟩
    exact notStar (Option.some.inj star)

/-- A text of inert characters that are not barred is closed. -/
theorem of_forall_isInert
    {barred text : List Char}
    (inert : ∀ c ∈ text, isInert c = true ∧ c ∉ barred) :
    IsClosed barred text := by
  induction text with
  | nil => exact nil barred
  | cons c rest inductionHypothesis =>
      obtain ⟨first, rest⟩ := List.forall_mem_cons.mp inert
      exact (inductionHypothesis rest).cons first.1 first.2

/-- Closed texts with an inert character between them are a closed text. -/
theorem intercalate
    {barred : List Char}
    {separator : Char}
    (inert : isInert separator = true)
    (allowed : separator ∉ barred)
    {parts : List (List Char)}
    (closed : ∀ part ∈ parts, IsClosed barred part) :
    IsClosed barred (List.intercalate [separator] parts) := by
  induction parts with
  | nil => exact nil barred
  | cons part parts inductionHypothesis =>
      obtain ⟨partClosed, partsClosed⟩ := List.forall_mem_cons.mp closed
      cases parts with
      | nil =>
          rw [List.intercalate_singleton]
          exact partClosed
      | cons next parts =>
          rw [List.intercalate_cons_cons, List.append_assoc]
          exact partClosed.append_cons inert allowed (inductionHypothesis partsClosed)

end IsClosed

/-! ## Reading a closed text -/

/-- A stretch with a text in front of it. -/
def Stretch.prepend (text : List Char) (stretch : Stretch) : Stretch :=
  { stretch with text := text ++ stretch.text }

theorem readUntil_quoted_cons
    (stops : List Char)
    {quote c : Char}
    (plain : c ≠ '\\')
    (depth : Nat)
    (rest : List Char) :
    readUntil stops (.quoted quote depth) (c :: rest) =
      if c = quote then (readUntil stops (.plain depth) rest).push c
      else (readUntil stops (.quoted quote depth) rest).push c := by
  cases rest <;> simp [readUntil, plain]

theorem readUntil_plain_cons
    (stops : List Char)
    {c : Char}
    {rest : List Char}
    (uncommented : ¬(c = '/' ∧ rest.head? = some '*'))
    (depth : Nat) :
    readUntil stops (.plain depth) (c :: rest) =
      if depth = 0 ∧ c ∈ stops then ⟨[], some c, rest⟩
      else (readUntil stops (stateAfter depth c) rest).push c := by
  rw [readUntil]
  rintro rest' rfl rfl
  exact uncommented ⟨rfl, rfl⟩

/-- Reading goes through a text without stops, and on with what follows. -/
theorem readUntil_append
    {stops : List Char}
    {state : CutState}
    {text : List Char}
    (rest : List Char)
    (unbarred : Unbarred stops state text)
    (uncommented : Uncommented (text ++ rest.take 1)) :
    readUntil stops state.scan (text ++ rest) =
      (readUntil stops (state.run text).scan rest).prepend text := by
  induction text generalizing state with
  | nil => rfl
  | cons c text inductionHypothesis =>
      obtain ⟨plain, allowed, restUnbarred⟩ := unbarred
      obtain ⟨noComment, restUncommented⟩ := uncommented
      have more := inductionHypothesis restUnbarred restUncommented
      have step : readUntil stops state.scan (c :: (text ++ rest)) =
          (readUntil stops (state.after c).scan (text ++ rest)).push c := by
        obtain ⟨depth, _ | quote⟩ := state
        · have notComment : ¬(c = '/' ∧ (text ++ rest).head? = some '*') := by
            cases text <;> cases rest <;> exact noComment
          have notStop : ¬(depth = 0 ∧ c ∈ stops) := by
            rintro ⟨rfl, member⟩
            exact allowed rfl member
          rw [CutState.scan, readUntil_plain_cons stops notComment, if_neg notStop,
            CutState.scan_after_of_plain]
        · rw [CutState.scan, readUntil_quoted_cons stops plain]
          by_cases ends : c = quote
          · simp [CutState.after, CutState.scan, ends]
          · simp [CutState.after, CutState.scan, ends]
      rw [List.cons_append, step, more]
      rfl

/-- Reading stops right behind a closed text. -/
theorem IsClosed.readUntil_eq
    {stops text : List Char}
    (closed : IsClosed stops text)
    {stop : Char}
    (member : stop ∈ stops)
    (inert : isInert stop = true)
    (rest : List Char) :
    readUntil stops (.plain 0) (text ++ stop :: rest) = ⟨text, some stop, rest⟩ := by
  have uncommented : Uncommented (text ++ [stop]) :=
    (IsClosed.append_cons (closed.mono (List.nil_subset _)) inert (List.not_mem_nil)
      (IsClosed.nil [])).uncommented
  have notSlash : stop ≠ '/' := by
    rintro rfl
    cases inert
  have through := readUntil_append (stop :: rest) closed.unbarred uncommented
  rw [closed.run_eq] at through
  rw [show ScanState.plain 0 = CutState.top.scan from rfl, through,
    show CutState.top.scan = ScanState.plain 0 from rfl,
    readUntil_plain_cons stops (fun comment => notSlash comment.1), if_pos ⟨rfl, member⟩,
    Stretch.prepend, List.append_nil]

/-- Reading without stops takes a whole closed text. -/
theorem IsClosed.text_readUntil
    {barred text : List Char}
    (closed : IsClosed barred text) :
    (readUntil [] (.plain 0) text).text = text := by
  have through := readUntil_append []
    (closed.unbarred.mono (List.nil_subset _)) (by simpa using closed.uncommented)
  rw [closed.run_eq, List.append_nil] at through
  rw [show ScanState.plain 0 = CutState.top.scan from rfl, through]
  simp [Stretch.prepend, readUntil]

/-! ## Cutting between closed texts -/

/-- Put a text at the front of the first part. -/
def prependFirst (text : List Char) : List (List Char) → List (List Char)
  | [] => [text]
  | part :: parts => (text ++ part) :: parts

theorem consFirst_prependFirst (c : Char) (text : List Char) (parts : List (List Char)) :
    consFirst c (prependFirst text parts) = prependFirst (c :: text) parts := by
  cases parts <;> rfl

theorem cutFrom_cons
    (separator : Char)
    (state : CutState)
    {c : Char}
    (plain : c ≠ '\\')
    (rest : List Char) :
    cutFrom separator state (c :: rest) =
      if c = separator ∧ state = ⟨0, none⟩ then [] :: cutFrom separator state rest
      else consFirst c (cutFrom separator (state.after c) rest) := by
  cases rest <;> simp [cutFrom, plain]

theorem cutFrom_ne_nil (separator : Char) (state : CutState) (text : List Char) :
    cutFrom separator state text ≠ [] := by
  fun_induction cutFrom separator state text with
  | case2 state c rest => cases cutFrom separator state rest <;> simp [consFirst]
  | case5 state c rest => cases cutFrom separator (state.after c) rest <;> simp [consFirst]
  | _ => simp

theorem intercalate_consFirst
    (separator c : Char)
    {parts : List (List Char)}
    (nonempty : parts ≠ []) :
    List.intercalate [separator] (consFirst c parts) = c :: List.intercalate [separator] parts := by
  match parts with
  | [part] => simp [consFirst]
  | part :: next :: parts => simp [consFirst, List.intercalate_cons_cons]

/-- The parts of a text give the text back. -/
theorem intercalate_cutFrom (separator : Char) (state : CutState) (text : List Char) :
    List.intercalate [separator] (cutFrom separator state text) = text := by
  fun_induction cutFrom separator state text with
  | case1 => rfl
  | case2 state c rest inductionHypothesis =>
      have nonempty := cutFrom_ne_nil separator state rest
      have nonemptyFirst : consFirst c (cutFrom separator state rest) ≠ [] := by
        cases cutFrom separator state rest <;> simp [consFirst]
      rw [intercalate_consFirst _ _ nonemptyFirst, intercalate_consFirst _ _ nonempty,
        inductionHypothesis]
  | case3 => rfl
  | case4 state c rest _ _ separates inductionHypothesis =>
      rw [List.intercalate_cons_of_ne_nil (cutFrom_ne_nil separator state rest),
        inductionHypothesis, separates.1]
      rfl
  | case5 state c rest _ _ _ inductionHypothesis =>
      rw [intercalate_consFirst _ _ (cutFrom_ne_nil separator (state.after c) rest),
        inductionHypothesis]

/-- Cutting goes through a text without separators, and on with what follows. -/
theorem cutFrom_append
    {separator : Char}
    {state : CutState}
    {text : List Char}
    (unbarred : Unbarred [separator] state text)
    (rest : List Char) :
    cutFrom separator state (text ++ rest) =
      prependFirst text (cutFrom separator (state.run text) rest) := by
  induction text generalizing state with
  | nil =>
      have nonempty := cutFrom_ne_nil separator state rest
      cases parts : cutFrom separator state rest with
      | nil => exact absurd parts nonempty
      | cons part parts' => simp [prependFirst, parts]
  | cons c text inductionHypothesis =>
      obtain ⟨plain, allowed, restUnbarred⟩ := unbarred
      have notSeparator : ¬(c = separator ∧ state = ⟨0, none⟩) := by
        rintro ⟨rfl, outside⟩
        exact allowed outside List.mem_cons_self
      rw [List.cons_append, cutFrom_cons separator state plain, if_neg notSeparator,
        inductionHypothesis restUnbarred, consFirst_prependFirst, CutState.run_cons]

/-- Cutting a list of closed texts at the separators between them gives the list back. -/
theorem cutAtTopLevel_intercalate
    {separator : Char}
    (inert : isInert separator = true)
    {parts : List (List Char)}
    (nonempty : parts ≠ [])
    (closed : ∀ part ∈ parts, IsClosed [separator] part) :
    cutAtTopLevel separator (List.intercalate [separator] parts) = parts := by
  have cut_self (part : List Char) (partClosed : IsClosed [separator] part) :
      cutFrom separator .top part = [part] := by
    have through := cutFrom_append partClosed.unbarred []
    rw [List.append_nil, partClosed.run_eq] at through
    rw [through]
    simp [cutFrom, prependFirst]
  induction parts with
  | nil => exact absurd rfl nonempty
  | cons part parts inductionHypothesis =>
      obtain ⟨partClosed, partsClosed⟩ := List.forall_mem_cons.mp closed
      cases parts with
      | nil =>
          rw [List.intercalate_singleton]
          exact cut_self part partClosed
      | cons next parts =>
          have more := inductionHypothesis (List.cons_ne_nil next parts) partsClosed
          have notBackslash : separator ≠ '\\' := by
            rintro rfl
            cases inert
          rw [List.intercalate_cons_cons, List.append_assoc, List.singleton_append,
            cutAtTopLevel, ← CutState.top, cutFrom_append partClosed.unbarred,
            partClosed.run_eq, cutFrom_cons separator .top notBackslash, if_pos ⟨rfl, rfl⟩]
          rw [cutAtTopLevel] at more
          rw [show CutState.top = ⟨0, none⟩ from rfl, more, prependFirst, List.append_nil]

end Css
end MailPress
