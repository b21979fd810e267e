import MailPress.Proofs.Css.Mark
import MailPress.Proofs.Css.Prelude
import MailPress.Proofs.Css.Scan

/-!
# Thinned texts

The written form of a text leaves blanks out, but never one that keeps a slash or a backslash
apart from a character that it would change the meaning of. A scan of such a form ends where the
scan of the text does, whether it starts outside strings or in the midst of one.
-/

namespace MailPress
namespace Css

/-- The characters on both sides of a blank that is left out may stand side by side. -/
def MayMeet (previous : Option Char) (written : List Char) : Prop :=
  (∀ c ∈ previous, c ≠ '/' ∧ c ≠ '\\') ∨
    ∀ c ∈ written.head?, c ≠ '*' ∧ c ≠ '\\' ∧ isQuote c = false

/-- The second text is the first one with some of its blanks left out where the characters on
both sides may meet, and others made spaces. The last character written so far comes first. -/
inductive Thinned : Option Char → List Char → List Char → Prop
  /-- Nothing is left of nothing. -/
  | nil {previous : Option Char} : Thinned previous [] []
  /-- A character is kept. -/
  | keep {previous : Option Char} (c : Char) {text written : List Char}
      (rest : Thinned (some c) text written) : Thinned previous (c :: text) (c :: written)
  /-- A blank is made a space. -/
  | space {previous : Option Char} {c : Char} (blank : Text.isBlank c = true)
      {text written : List Char} (rest : Thinned (some ' ') text written) :
      Thinned previous (c :: text) (' ' :: written)
  /-- A blank is left out. -/
  | drop {previous : Option Char} {c : Char} (blank : Text.isBlank c = true)
      {text written : List Char} (apart : MayMeet previous written)
      (rest : Thinned previous text written) : Thinned previous (c :: text) written

/-- A blank that is thinned may have been any blank. -/
theorem Thinned.of_space
    {previous : Option Char}
    {c : Char}
    (blank : Text.isBlank c = true)
    {text written : List Char}
    (thinned : Thinned previous (' ' :: text) written) :
    Thinned previous (c :: text) written := by
  cases thinned with
  | keep _ rest => exact .space blank rest
  | space _ rest => exact .space blank rest
  | drop _ apart rest => exact .drop blank apart rest

/-! ## Scans of thinned texts -/

/-- A scan of a thinned text keeps up with the scan of the text: they are the same, or what the
one still holds does not matter to the character that is next. -/
structure KeepsUp (previous : Option Char) (written : List Char) (scan behind : Scan) : Prop where
  /-- Both are in the same place. -/
  place_eq : behind.place = scan.place
  /-- They hold the same, or only the second one holds something that does not matter. -/
  held : behind.held = scan.held ∨
    scan.held = none ∧ ∀ c ∈ written.head?, c ≠ '*' ∧ c ≠ '\\' ∧ isQuote c = false
  /-- What is held is a slash or a backslash that was written last. -/
  previous : ∀ c ∈ behind.held, previous = some c ∧ (c = '/' ∨ c = '\\')

theorem KeepsUp.fresh
    (written : List Char)
    (place : CutState) :
    KeepsUp none written (.fresh place) (.fresh place) :=
  ⟨rfl, .inl rfl, nofun⟩

theorem eq_of_mem_held
    {scan : Scan}
    {c d : Char}
    (held : d ∈ (scan.next c).held) :
    some c = some d ∧ (d = '/' ∨ d = '\\') := by
  unfold Scan.next at held
  split at held
  · cases held
  · unfold Scan.heldAt at held
    dsimp only at held
    split at held
    · next kind =>
        obtain rfl := Option.some.inj held
        exact ⟨rfl, kind.elim .inr fun slash => .inl slash.1⟩
    · cases held

/-- The scans keep up with one another when both read the same character. -/
theorem KeepsUp.keep
    {previous : Option Char}
    {c : Char}
    {written : List Char}
    {scan behind : Scan}
    (proper : scan.place.IsProper)
    (keepsUp : KeepsUp previous (c :: written) scan behind) :
    KeepsUp (some c) written (scan.next c) (behind.next c) ∧
      (startsComment scan c = false → startsComment behind c = false) := by
  obtain ⟨place_eq, held | ⟨unheld, harmless⟩, _⟩ := keepsUp
  · obtain rfl : behind = scan := by
      cases behind
      cases scan
      simp_all
    exact ⟨⟨rfl, .inl rfl, fun _ => eq_of_mem_held⟩, fun free => free⟩
  · obtain ⟨notStar, notBackslash, notQuote⟩ := harmless c rfl
    have next_eq : behind.next c = scan.next c := by
      have plain : scan.isEscaped = false := by rw [Scan.isEscaped, unheld]; exact Bool.and_false _
      rw [Scan.next_of_not_isEscaped plain]
      by_cases escaped : behind.isEscaped = true
      · -- Inside a string, a hidden character that is no quote leaves the string open.
        have quoted : scan.place.quote.isSome = true := by
          rw [← place_eq]
          exact (Bool.and_eq_true_iff.mp escaped).1
        obtain ⟨⟨depth, quote⟩, _⟩ := scan
        obtain ⟨opened, rfl⟩ := Option.isSome_iff_exists.mp quoted
        have different : c ≠ opened := by
          rintro rfl
          have isQuote := proper c rfl
          rw [notQuote] at isQuote
          cases isQuote
        rw [Scan.next, if_pos escaped, place_eq]
        simp [Scan.fresh, CutState.after, different, Scan.heldAt, notBackslash]
      · rw [Scan.next_of_not_isEscaped (Bool.eq_false_iff.mpr escaped), place_eq]
    rw [next_eq]
    exact ⟨⟨rfl, .inl rfl, fun _ => eq_of_mem_held⟩,
      fun _ => startsComment_of_ne notStar behind⟩

/-- A scan of a thinned text ends where the scan of the text does, and meets nothing that the
scan of the text does not meet. -/
theorem Thinned.run_eq
    {previous : Option Char}
    {text written : List Char}
    (thinned : Thinned previous text written)
    {scan behind : Scan}
    (proper : scan.place.IsProper)
    (keepsUp : KeepsUp previous written scan behind) :
    (behind.run written).place = (scan.run text).place ∧
      (Avoids startsComment scan text → Avoids startsComment behind written) ∧
      ∀ barred, ' ' ∉ barred → Avoids (standsOutside barred) scan text →
        Avoids (standsOutside barred) behind written := by
  induction thinned generalizing scan behind with
  | nil => exact ⟨keepsUp.place_eq, fun _ => trivial, fun _ _ _ => trivial⟩
  | keep c rest inductionHypothesis =>
      obtain ⟨nextKeepsUp, uncommented⟩ := keepsUp.keep proper
      obtain ⟨place_eq, comments, outside⟩ :=
        inductionHypothesis (Scan.isProper_next proper c) nextKeepsUp
      refine ⟨place_eq, fun avoids => ⟨uncommented avoids.1, comments avoids.2⟩,
        fun barred allowed avoids => ⟨?_, outside barred allowed avoids.2⟩⟩
      rw [standsOutside, keepsUp.place_eq]
      exact avoids.1
  | @space previous c blank text written rest inductionHypothesis =>
      have behindProper : behind.place.IsProper := keepsUp.place_eq ▸ proper
      have next_eq := Scan.next_of_isInert proper (isInert_of_isBlank blank)
      have behind_eq := Scan.next_of_isInert behindProper (isInert_of_isBlank Text.isBlank_space)
      have nextKeepsUp : KeepsUp (some ' ') written (scan.next c) (behind.next ' ') := by
        rw [next_eq, behind_eq, keepsUp.place_eq]
        exact ⟨rfl, .inl rfl, by simp [Scan.fresh]⟩
      obtain ⟨place_eq, comments, outside⟩ :=
        inductionHypothesis (Scan.isProper_next proper c) nextKeepsUp
      exact ⟨place_eq,
        fun avoids => ⟨startsComment_of_ne (by decide) behind, comments avoids.2⟩,
        fun barred allowed avoids =>
          ⟨standsOutside_of_not_mem allowed behind, outside barred allowed avoids.2⟩⟩
  | @drop previous c blank text written apart rest inductionHypothesis =>
      have next_eq := Scan.next_of_isInert proper (isInert_of_isBlank blank)
      have nextKeepsUp : KeepsUp previous written (scan.next c) behind := by
        rw [next_eq]
        refine ⟨keepsUp.place_eq, ?_, keepsUp.previous⟩
        rcases apart with free | harmless
        · refine .inl (Option.eq_none_iff_forall_not_mem.mpr ?_)
          intro d held
          obtain ⟨written, kind⟩ := keepsUp.previous d held
          obtain ⟨notSlash, notBackslash⟩ := free d written
          exact kind.elim notSlash notBackslash
        · exact .inr ⟨rfl, harmless⟩
      obtain ⟨place_eq, comments, outside⟩ :=
        inductionHypothesis (Scan.isProper_next proper c) nextKeepsUp
      exact ⟨place_eq, fun avoids => comments avoids.2,
        fun barred allowed avoids => outside barred allowed avoids.2⟩

/-! ## Texts that scan alike -/

/-- From any place on, the second text leads where the first one does, and meets no start of a
comment and no brace outside strings and brackets that the first one does not meet. -/
structure ScansAlike (text written : List Char) : Prop where
  /-- The scans end in the same place. -/
  place_run : ∀ {place : CutState}, place.IsProper →
    ((Scan.fresh place).run written).place = ((Scan.fresh place).run text).place
  /-- No comment is started. -/
  uncommented : ∀ {place : CutState}, place.IsProper →
    Avoids startsComment (.fresh place) text → Avoids startsComment (.fresh place) written
  /-- No brace comes to stand outside strings and brackets. -/
  unbarred : ∀ {place : CutState} {barred : List Char}, place.IsProper → barred ⊆ ['{', '}'] →
    Avoids (standsOutside barred) (.fresh place) text →
      Avoids (standsOutside barred) (.fresh place) written

namespace ScansAlike

variable {text between written : List Char}

theorem trans
    (first : ScansAlike text between)
    (second : ScansAlike between written) :
    ScansAlike text written where
  place_run proper := (second.place_run proper).trans (first.place_run proper)
  uncommented proper avoids := second.uncommented proper (first.uncommented proper avoids)
  unbarred proper braces avoids :=
    second.unbarred proper braces (first.unbarred proper braces avoids)

theorem isContained
    {barred : List Char}
    (alike : ScansAlike text written)
    (braces : barred ⊆ ['{', '}'])
    (contained : IsContained barred text) :
    IsContained barred written where
  place_run := (alike.place_run CutState.isProper_top).trans contained.place_run
  uncommented := alike.uncommented CutState.isProper_top contained.uncommented
  unbarred := alike.unbarred CutState.isProper_top braces contained.unbarred

end ScansAlike

theorem Thinned.scansAlike
    {text written : List Char}
    (thinned : Thinned none text written) :
    ScansAlike text written where
  place_run proper := (thinned.run_eq proper (.fresh written _)).1
  uncommented proper := (thinned.run_eq proper (.fresh written _)).2.1
  unbarred proper braces := (thinned.run_eq proper (.fresh written _)).2.2 _ fun member =>
    absurd (braces member) (by decide)

/-! ## Trimmed texts -/

theorem mayMeet_none (written : List Char) : MayMeet none written :=
  .inl nofun

theorem mayMeet_nil (previous : Option Char) : MayMeet previous [] :=
  .inr nofun

/-- Blanks at the end may be left out. -/
theorem thinned_append_blanks
    {trail : List Char}
    (blanks : ∀ c ∈ trail, Text.isBlank c = true)
    (previous : Option Char)
    (text : List Char) :
    Thinned previous (text ++ trail) text := by
  induction text generalizing previous with
  | cons c text inductionHypothesis => exact .keep c (inductionHypothesis (some c))
  | nil =>
      induction trail with
      | nil => exact .nil
      | cons c trail inductionHypothesis =>
          obtain ⟨blank, blanks⟩ := List.forall_mem_cons.mp blanks
          exact .drop blank (mayMeet_nil previous) (inductionHypothesis blanks)

/-- Blanks at the start may be left out. -/
theorem Thinned.blanks_append
    {lead : List Char}
    (blanks : ∀ c ∈ lead, Text.isBlank c = true)
    {text written : List Char}
    (thinned : Thinned none text written) :
    Thinned none (lead ++ text) written := by
  induction lead with
  | nil => exact thinned
  | cons c lead inductionHypothesis =>
      obtain ⟨blank, blanks⟩ := List.forall_mem_cons.mp blanks
      exact .drop blank (mayMeet_none written) (inductionHypothesis blanks)

theorem scansAlike_trimEnd (text : List Char) : ScansAlike text (Text.trimEnd text) := by
  obtain ⟨trail, split, blanks⟩ := Text.exists_trimEnd text
  have thinned := thinned_append_blanks blanks none (Text.trimEnd text)
  rw [← split] at thinned
  exact thinned.scansAlike

theorem scansAlike_trim (text : List Char) : ScansAlike text (Text.trim text) := by
  obtain ⟨lead, trail, split, leadBlanks, trailBlanks⟩ := Text.exists_trim text
  have thinned := (thinned_append_blanks trailBlanks none (Text.trim text)).blanks_append leadBlanks
  rw [← List.append_assoc, ← split] at thinned
  exact thinned.scansAlike

/-! ## Squeezed texts -/

/-- Where a squeeze keeps no space, the characters on both sides may meet. -/
def SparesMarks (keeps : Option Char → Char → Bool) : Prop :=
  ∀ {previous : Option Char} {c : Char}, keeps previous c = false → MayMeet previous [c]

theorem sparesMarks_keepsBeside
    {isTight : Char → Bool}
    (loose : ∀ c, isTight c = true → c ∉ ['/', '\\', '*', '"', '\'']) :
    SparesMarks (keepsBeside isTight) := by
  intro previous c dropped
  simp only [keepsBeside, Bool.and_eq_false_iff, Bool.not_eq_false', Option.any_eq_true] at dropped
  rcases dropped with tight | ⟨d, written, tight⟩
  · have spared := loose c tight
    simp only [List.mem_cons, not_or] at spared
    refine .inr ?_
    rintro _ ⟨⟩
    simp [spared, isQuote]
  · have spared := loose d tight
    simp only [List.mem_cons, not_or] at spared
    refine .inl ?_
    rintro e same
    obtain rfl : d = e := Option.some.inj (written.symm.trans same)
    exact ⟨spared.1, spared.2.1⟩

theorem mayMeet_squeezeFrom
    {keeps : Option Char → Char → Bool}
    (spares : SparesMarks keeps)
    (previous : Option Char)
    (text : List Char) :
    MayMeet previous (squeezeFrom keeps ⟨none, previous, true⟩ text) := by
  induction text with
  | nil => exact mayMeet_nil previous
  | cons c text inductionHypothesis =>
      rw [squeezeFrom]
      split
      · exact inductionHypothesis
      · dsimp only
        split
        · exact .inr (by rintro _ ⟨⟩; decide)
        · next dropped =>
            have apart : keeps previous c = false := by simpa using dropped
            exact spares apart

/-- Squeezing thins a text, if the pending blanks are counted in. -/
theorem thinned_squeezeFrom
    {keeps : Option Char → Char → Bool}
    (spares : SparesMarks keeps)
    {state : TightenState}
    (outside : state.pending = true → state.quote = none)
    (text : List Char) :
    Thinned state.previous (if state.pending then ' ' :: text else text)
      (squeezeFrom keeps state text) := by
  fun_induction squeezeFrom keeps state text with
  | case1 state =>
      split
      · exact .drop Text.isBlank_space (mayMeet_nil _) .nil
      · exact .nil
  | case2 quote previous pending c rest inductionHypothesis =>
      have settled : pending = false := by simpa using outside
      subst settled
      exact .keep c (inductionHypothesis (by simp))
  | case3 previous pending c rest blank inductionHypothesis =>
      have later := (inductionHypothesis fun _ => rfl).of_space blank
      cases pending with
      | false => exact later
      | true => exact .drop Text.isBlank_space (mayMeet_squeezeFrom spares previous rest) later
  | case4 previous pending c rest nonblank tail kept inductionHypothesis =>
      obtain ⟨isPending, _⟩ := Bool.and_eq_true_iff.mp kept
      rw [if_pos isPending]
      exact .space Text.isBlank_space (.keep c (inductionHypothesis (by simp)))
  | case5 previous pending c rest nonblank tail dropped inductionHypothesis =>
      have later : Thinned previous (c :: rest) tail := .keep c (inductionHypothesis (by simp))
      cases pending with
      | false => exact later
      | true =>
          have apart : keeps previous c = false := by simpa using dropped
          exact .drop Text.isBlank_space (spares apart) later

theorem scansAlike_squeeze
    {keeps : Option Char → Char → Bool}
    (spares : SparesMarks keeps)
    (text : List Char) :
    ScansAlike text (squeeze keeps text) := by
  have settled : (⟨none, none, false⟩ : TightenState).pending = true →
      (⟨none, none, false⟩ : TightenState).quote = none := nofun
  exact (scansAlike_trim text).trans
    (thinned_squeezeFrom spares settled (Text.trim text)).scansAlike

theorem scansAlike_minifySelector (selector : String) :
    ScansAlike selector.toList (minifySelector selector).toList := by
  rw [toList_minifySelector]
  refine scansAlike_squeeze (sparesMarks_keepsBeside ?_) _
  intro c tight
  simp only [isTightInSelector, Bool.or_eq_true, beq_iff_eq] at tight
  rcases tight with ((rfl | rfl) | rfl) | rfl <;> decide

theorem scansAlike_minifyValue (value : String) :
    ScansAlike value.toList (minifyValue value).toList := by
  rw [toList_minifyValue]
  refine scansAlike_squeeze (sparesMarks_keepsBeside ?_) _
  intro c tight
  obtain rfl := beq_iff_eq.mp tight
  decide

/-! ## Written preludes -/

theorem thinned_closeUp
    {afterOpening : Bool}
    {previous : Option Char}
    (opened : afterOpening = true → previous = some '(')
    (text : List Char) :
    Thinned previous text (closeUp afterOpening text) := by
  fun_induction closeUp afterOpening text generalizing previous with
  | case1 => exact .nil
  | case2 afterOpening c rest left inductionHypothesis =>
      obtain ⟨after, space⟩ := Bool.and_eq_true_iff.mp left
      obtain rfl := beq_iff_eq.mp space
      have apart : MayMeet previous (closeUp false rest) := by
        rw [opened after]
        exact .inl (by rintro _ ⟨⟩; decide)
      exact .drop Text.isBlank_space apart (inductionHypothesis (by simp))
  | case3 afterOpening c rest kept inductionHypothesis =>
      refine .keep c (inductionHypothesis ?_)
      intro opening
      rw [beq_iff_eq.mp opening]

theorem thinned_closeDown
    (previous : Option Char)
    (text : List Char) :
    Thinned previous text (closeDown text) := by
  fun_induction closeDown text generalizing previous with
  | case1 rest inductionHypothesis =>
      exact .drop Text.isBlank_space (.inr (by rintro _ ⟨⟩; decide))
        (.keep ')' (inductionHypothesis (some ')')))
  | case2 c rest _ inductionHypothesis => exact .keep c (inductionHypothesis (some c))
  | case3 => exact .nil

theorem scansAlike_minifyPrelude (prelude : String) :
    ScansAlike prelude.toList (minifyPrelude prelude).toList := by
  have spares : SparesMarks (keepsBeside isTightInPrelude) := by
    apply sparesMarks_keepsBeside
    intro c tight
    simp only [isTightInPrelude, Bool.or_eq_true, beq_iff_eq] at tight
    rcases tight with rfl | rfl <;> decide
  have unopened : false = true → (none : Option Char) = some '(' := nofun
  rw [toList_minifyPrelude, tighten_eq_squeeze]
  exact (scansAlike_squeeze spares prelude.toList).trans
    ((thinned_closeUp unopened _).scansAlike.trans (thinned_closeDown none _).scansAlike)

/-!
## Stretches of a source

The reader leaves comments out as it goes. What is left of a source without its comments is made
of the stretches that the reader reads and the characters that end them, and a scan of it is
where the reader is.
-/

/-- A source without its comments. -/
def withoutComments (text : List Char) : List Char :=
  (readUntil [] (.plain 0) text).text

/-- A scan of what has been read is where the reader is. -/
def Matches : ScanState → Scan → Prop
  | .plain depth, scan => scan.place = ⟨depth, none⟩
  | .comment depth, scan => scan.place = ⟨depth, none⟩
  | .quoted quote depth, scan =>
      scan.place = ⟨depth, some quote⟩ ∧ isQuote quote = true ∧ scan.held ≠ some '\\'

namespace Matches

variable {scan : Scan} {depth : Nat} {quote : Char}

theorem top : Matches (.plain 0) .top := rfl

theorem next_plain
    (here : Matches (.plain depth) scan)
    (c : Char) :
    Matches (stateAfter depth c) (scan.next c) := by
  have place_eq : scan.place = ⟨depth, none⟩ := here
  have next_eq := Scan.next_of_not_isEscaped (Scan.isEscaped_of_quote_eq_none
    (congrArg CutState.quote place_eq)) c
  rw [place_eq] at next_eq
  rw [next_eq]
  unfold stateAfter
  split
  · next quoted =>
      have special : c ≠ '\\' ∧ c ≠ '/' := by
        refine ⟨?_, ?_⟩ <;> (rintro rfl; cases quoted)
      refine ⟨by simp [CutState.after, quoted], quoted, ?_⟩
      simp [Scan.heldAt, special]
  · next unquoted =>
      split
      · next opening => simp only [Matches, CutState.after, unquoted, opening]; rfl
      · next notOpening =>
          split
          · next closing => simp [Matches, CutState.after, unquoted, notOpening, closing]
          · next notClosing => simp [Matches, CutState.after, unquoted, notOpening, notClosing]

theorem isEscaped_quoted
    (here : Matches (.quoted quote depth) scan) :
    scan.isEscaped = false := by
  simp [Scan.isEscaped, here.2.2]

theorem ne_top_quoted
    (here : Matches (.quoted quote depth) scan) :
    scan.place ≠ .top := by
  rw [here.1]
  exact nofun

theorem next_quoted
    (here : Matches (.quoted quote depth) scan)
    {c : Char}
    (plain : c ≠ '\\') :
    Matches (if c = quote then .plain depth else .quoted quote depth) (scan.next c) := by
  rw [Scan.next_of_not_isEscaped here.isEscaped_quoted, here.1]
  by_cases ends : c = quote
  · simp [Matches, CutState.after, ends]
  · rw [if_neg ends]
    refine ⟨by simp [CutState.after, ends], here.2.1, ?_⟩
    simp [Scan.heldAt, plain]

theorem next_backslash
    (here : Matches (.quoted quote depth) scan) :
    scan.next '\\' = ⟨⟨depth, some quote⟩, some '\\'⟩ := by
  have different : '\\' ≠ quote := by
    rintro rfl
    cases here.2.1
  rw [Scan.next_of_not_isEscaped here.isEscaped_quoted, here.1]
  simp [CutState.after, Scan.heldAt, different]

theorem next_next_backslash
    (here : Matches (.quoted quote depth) scan)
    (c : Char) :
    Matches (.quoted quote depth) ((scan.next '\\').next c) := by
  rw [here.next_backslash]
  exact ⟨rfl, here.2.1, nofun⟩

theorem next_backslash_ne_top
    (here : Matches (.quoted quote depth) scan) :
    (scan.next '\\').place ≠ .top := by
  rw [here.next_backslash]
  simp [CutState.top]

/-- Outside strings, a slash and a star start a comment. -/
theorem not_avoids_startsComment
    (here : Matches (.plain depth) scan)
    (text : List Char) :
    ¬Avoids startsComment scan ('/' :: '*' :: text) := by
  intro avoids
  have place_eq : scan.place = ⟨depth, none⟩ := here
  have next_eq := Scan.next_of_not_isEscaped (Scan.isEscaped_of_quote_eq_none
    (congrArg CutState.quote place_eq)) '/'
  have starts := avoids.2.1
  rw [next_eq, place_eq] at starts
  cases starts

/-- Outside comments, the reader is outside everything where the scan is. -/
theorem eq_plain
    {state : ScanState}
    (here : Matches state scan)
    (notComment : ∀ depth, state ≠ .comment depth)
    (outside : scan.place = .top) :
    state = .plain 0 := by
  cases state with
  | plain depth =>
      have same : (⟨depth, none⟩ : CutState) = .top := Eq.trans (Eq.symm here) outside
      exact congrArg ScanState.plain (congrArg CutState.depth same)
  | quoted quote depth => exact absurd outside here.ne_top_quoted
  | comment depth => exact absurd rfl (notComment depth)

end Matches

theorem stateAfter_ne_comment (depth : Nat) (c : Char) (other : Nat) :
    stateAfter depth c ≠ .comment other := by
  unfold stateAfter
  repeat' split
  all_goals exact nofun

/-- The characters that end a stretch neither open nor close anything. -/
def IsStopList (stops : List Char) : Prop :=
  ∀ c ∈ stops, isInert c = true

theorem stateAfter_of_isInert
    {c : Char}
    (inert : isInert c = true) :
    stateAfter 0 c = .plain 0 := by
  rw [← CutState.scan_after_of_plain, CutState.after_of_isInert inert]
  rfl

/-- Without its comments, a source is a stretch, its stop, and the rest without comments. -/
theorem text_readUntil_nil
    {stops : List Char}
    (inert : IsStopList stops)
    (state : ScanState)
    (text : List Char) :
    (readUntil [] state text).text = (readUntil stops state text).text ++
      match (readUntil stops state text).stop with
      | none => []
      | some c => c :: withoutComments (readUntil stops state text).rest := by
  fun_induction readUntil stops state text with
  | case1 state => simp [readUntil]
  | case2 depth rest inductionHypothesis => rw [readUntil, inductionHypothesis]
  | case3 depth c rest notEnd inductionHypothesis =>
      rw [readUntil, inductionHypothesis]
      exact notEnd
  | case4 quote depth c rest inductionHypothesis => simp [readUntil, inductionHypothesis]
  | case5 depth c rest plain inductionHypothesis =>
      rw [readUntil, if_pos rfl, Stretch.text_push, inductionHypothesis]
      · rfl
      · exact plain
  | case6 quote depth c rest plain ends inductionHypothesis =>
      rw [readUntil, if_neg ends, Stretch.text_push, inductionHypothesis]
      · rfl
      · exact plain
  | case7 depth rest inductionHypothesis => rw [readUntil, inductionHypothesis]
  | case8 depth c rest uncommented stopped =>
      obtain ⟨rfl, member⟩ := stopped
      rw [readUntil, if_neg (by simp), stateAfter_of_isInert (inert c member)]
      · rfl
      · exact uncommented
  | case9 depth c rest uncommented notStopped inductionHypothesis =>
      rw [readUntil, if_neg (by simp), Stretch.text_push, inductionHypothesis]
      · rfl
      · exact uncommented

/-- A backslash that hides nothing is the last character. -/
theorem eq_nil_of_hides_nothing
    {c : Char}
    {rest : List Char}
    (plain : ∀ d others, c = '\\' → rest = d :: others → False)
    (backslash : c = '\\') :
    rest = [] := by
  cases rest with
  | nil => rfl
  | cons d others => exact (plain d others backslash rfl).elim

/-- No stop stands outside strings and brackets in a stretch, and a stretch that was stopped
ends there. -/
theorem avoids_readUntil
    (stops : List Char)
    {state : ScanState}
    (text : List Char)
    {scan : Scan}
    (here : Matches state scan) :
    Avoids (standsOutside stops) scan (readUntil stops state text).text ∧
      ((readUntil stops state text).stop ≠ none →
        (scan.run (readUntil stops state text).text).place = .top) := by
  fun_induction readUntil stops state text generalizing scan with
  | case1 => exact ⟨trivial, fun stopped => absurd rfl stopped⟩
  | case2 depth rest inductionHypothesis => exact inductionHypothesis here
  | case3 depth c rest notEnd inductionHypothesis => exact inductionHypothesis here
  | case4 quote depth c rest inductionHypothesis =>
      obtain ⟨avoids, ends⟩ := inductionHypothesis (here.next_next_backslash c)
      refine ⟨⟨standsOutside_of_ne_top here.ne_top_quoted _ _, ?_, avoids⟩, ends⟩
      exact standsOutside_of_ne_top here.next_backslash_ne_top _ _
  | case5 depth c rest plain inductionHypothesis =>
      have different : c ≠ '\\' := by
        rintro rfl
        cases here.2.1
      have after := here.next_quoted different
      rw [if_pos rfl] at after
      obtain ⟨avoids, ends⟩ := inductionHypothesis after
      exact ⟨⟨standsOutside_of_ne_top here.ne_top_quoted _ _, avoids⟩, ends⟩
  | case6 quote depth c rest plain ends inductionHypothesis =>
      have outside := standsOutside_of_ne_top here.ne_top_quoted stops c
      by_cases backslash : c = '\\'
      · obtain rfl := eq_nil_of_hides_nothing plain backslash
        exact ⟨⟨outside, trivial⟩, fun stopped => absurd rfl stopped⟩
      · have after := here.next_quoted backslash
        rw [if_neg ends] at after
        obtain ⟨avoids, ends⟩ := inductionHypothesis after
        exact ⟨⟨outside, avoids⟩, ends⟩
  | case7 depth rest inductionHypothesis => exact inductionHypothesis here
  | case8 depth c rest uncommented stopped =>
      obtain ⟨rfl, member⟩ := stopped
      exact ⟨trivial, fun _ => here⟩
  | case9 depth c rest uncommented notStopped inductionHypothesis =>
      obtain ⟨avoids, ends⟩ := inductionHypothesis (here.next_plain c)
      refine ⟨⟨?_, avoids⟩, ends⟩
      have place_eq : scan.place = ⟨depth, none⟩ := here
      by_cases top : depth = 0
      · exact standsOutside_of_not_mem (fun member => notStopped ⟨top, member⟩) scan
      · refine standsOutside_of_ne_top ?_ _ _
        rw [place_eq]
        exact fun same => top (congrArg CutState.depth same)

/-- A text in which no comment starts is read as it is. -/
theorem text_readUntil_of_uncommented
    {state : ScanState}
    {text : List Char}
    {scan : Scan}
    (here : Matches state scan)
    (notComment : ∀ depth, state ≠ .comment depth)
    (uncommented : Avoids startsComment scan text) :
    (readUntil [] state text).text = text := by
  fun_induction readUntil [] state text generalizing scan with
  | case1 => rfl
  | case2 depth => exact absurd rfl (notComment depth)
  | case3 depth => exact absurd rfl (notComment depth)
  | case4 quote depth c rest inductionHypothesis =>
      rw [Stretch.text_push, Stretch.text_push,
        inductionHypothesis (here.next_next_backslash c) (by simp) uncommented.2.2]
  | case5 depth c rest plain inductionHypothesis =>
      have different : c ≠ '\\' := by
        rintro rfl
        cases here.2.1
      have after := here.next_quoted different
      rw [if_pos rfl] at after
      rw [Stretch.text_push, inductionHypothesis after (by simp) uncommented.2]
  | case6 quote depth c rest plain ends inductionHypothesis =>
      by_cases backslash : c = '\\'
      · obtain rfl := eq_nil_of_hides_nothing plain backslash
        rfl
      · have after := here.next_quoted backslash
        rw [if_neg ends] at after
        rw [Stretch.text_push, inductionHypothesis after (by simp) uncommented.2]
  | case7 depth rest => exact absurd uncommented (here.not_avoids_startsComment rest)
  | case8 depth c rest uncommented stopped => exact absurd stopped.2 (by simp)
  | case9 depth c rest noComment notStopped inductionHypothesis =>
      rw [Stretch.text_push, inductionHypothesis (here.next_plain c)
        (stateAfter_ne_comment depth c) uncommented.2]

end Css
end MailPress
