import MailPress.Proofs.Css.Contained

/-!
# Declarations that are put behind others

A text can be put behind a list of declarations. Outside comments its characters are read as they
are, and what they become depends on where the list ends: behind one that a semicolon would end,
they are cut as they are by themselves, and what stands behind the last semicolon of the list is
put in front of the first of them.

Declarations of plain words are therefore read as such behind a list whose last part is blank, and
not behind any other.
-/

namespace MailPress
namespace Css

/-- The parts of a list of declarations, each of which is read by itself. -/
def declarationParts (text : List Char) : List (List Char) :=
  cutAtTopLevel ';' (withoutComments text)

theorem readDeclarationList_eq (text : List Char) :
    readDeclarationList text = (declarationParts text).filterMap readDeclaration := rfl

/-! ## Reading on -/

/-- A string of a reader ends with a quote. -/
def ScanState.IsProper (state : ScanState) : Prop :=
  ∀ quote depth, state = .quoted quote depth → isQuote quote = true

theorem ScanState.isProper_plain (depth : Nat) : (plain depth).IsProper := by
  rintro quote other ⟨⟩

theorem ScanState.isProper_comment (depth : Nat) : (comment depth).IsProper := by
  rintro quote other ⟨⟩

theorem ScanState.isProper_stateAfter (depth : Nat) (c : Char) :
    (stateAfter depth c).IsProper := by
  rintro quote other state_eq
  unfold stateAfter at state_eq
  split at state_eq
  · next quoted =>
      obtain ⟨rfl, rfl⟩ := ScanState.quoted.inj state_eq
      exact quoted
  · repeat' split at state_eq
    all_goals cases state_eq

/-- Inert characters are read as they are outside comments, and left out inside. -/
theorem text_readUntil_of_forall_isInert
    {state : ScanState}
    (proper : state.IsProper)
    {text : List Char}
    (inert : ∀ c ∈ text, isInert c = true) :
    (readUntil [] state text).text =
      match state with
      | .comment _ => []
      | _ => text := by
  induction text generalizing state with
  | nil => cases state <;> simp [readUntil]
  | cons c text inductionHypothesis =>
      obtain ⟨first, rest⟩ := List.forall_mem_cons.mp inert
      obtain ⟨notBackslash, notSlash, notStar⟩ := Scan.ne_of_isInert first
      cases state with
      | plain depth =>
          have after_eq : stateAfter depth c = .plain depth := by
            rw [← CutState.scan_after_of_plain, CutState.after_of_isInert first]
            rfl
          rw [readUntil_plain_cons [] (fun comment => notSlash comment.1), if_neg (by simp),
            after_eq, Stretch.text_push, inductionHypothesis proper rest]
      | quoted quote depth =>
          have different : c ≠ quote := by
            rintro rfl
            have quoted := proper c depth rfl
            simp [isInert, quoted] at first
          rw [readUntil_quoted_cons [] notBackslash, if_neg different, Stretch.text_push,
            inductionHypothesis proper rest]
      | comment depth =>
          rw [readUntil]
          · exact inductionHypothesis proper rest
          · rintro more rfl
            exact absurd rfl notStar

/-- Inert characters behind a text are not what it lacks to start with a special one. -/
theorem head?_append_ne
    {special : Char}
    (notInert : isInert special = false)
    {text more : List Char}
    (other : text.head? ≠ some special)
    (inert : ∀ c ∈ more, isInert c = true) :
    (text ++ more).head? ≠ some special := by
  cases text with
  | cons c text => exact other
  | nil =>
      intro first
      have member := inert special (List.mem_of_head? first)
      rw [notInert] at member
      cases member

/-- What is read of a text with inert characters behind it lacks them all, or ends with them. -/
def LacksOrKeeps (read : List Char → List Char) : Prop :=
  (∀ more : List Char, (∀ c ∈ more, isInert c = true) → read more = read []) ∨
    ∀ more : List Char, (∀ c ∈ more, isInert c = true) → read more = read [] ++ more

/-- What is read in front of a text settles nothing. -/
theorem LacksOrKeeps.of_eq_append
    {read other : List Char → List Char}
    (settled : LacksOrKeeps read)
    (front : List Char)
    (same : ∀ more : List Char, (∀ c ∈ more, isInert c = true) → other more = front ++ read more) :
    LacksOrKeeps other := by
  have none_eq := same [] (by simp)
  refine settled.imp (fun lacks more inert => ?_) (fun keeps more inert => ?_)
  · rw [same more inert, lacks more inert, none_eq]
  · rw [same more inert, keeps more inert, none_eq, List.append_assoc]

/-- Inert characters behind a text are read as they are, or the text ends in a comment and they
are left out. -/
theorem lacksOrKeeps_readUntil
    {state : ScanState}
    (proper : state.IsProper)
    (text : List Char) :
    LacksOrKeeps fun more => (readUntil [] state (text ++ more)).text := by
  fun_induction readUntil [] state text with
  | case1 state =>
      have alone (more : List Char) (inert : ∀ c ∈ more, isInert c = true) :=
        text_readUntil_of_forall_isInert proper inert
      cases state with
      | comment depth => exact .inl alone
      | plain depth => exact .inr alone
      | quoted quote depth => exact .inr alone
  | case2 depth rest inductionHypothesis =>
      exact (inductionHypothesis (ScanState.isProper_plain depth)).of_eq_append [] fun more inert => by
        simp [readUntil]
  | case3 depth c rest notEnd inductionHypothesis =>
      refine (inductionHypothesis proper).of_eq_append [] fun more inert => ?_
      rw [List.cons_append, readUntil]
      · rfl
      · rintro others rfl split
        refine head?_append_ne (by decide) ?_ inert (congrArg List.head? split)
        intro first
        obtain ⟨tail, rfl⟩ := List.head?_eq_some_iff.mp first
        exact notEnd tail rfl rfl
  | case4 quote depth c rest inductionHypothesis =>
      exact (inductionHypothesis proper).of_eq_append ['\\', c] fun more inert => by
        simp [readUntil]
  | case5 depth c rest plain inductionHypothesis =>
      refine (inductionHypothesis (ScanState.isProper_plain depth)).of_eq_append [c]
        fun more inert => ?_
      have different : c ≠ '\\' := by
        rintro rfl
        cases proper '\\' depth rfl
      rw [List.cons_append, readUntil_quoted_cons [] different, if_pos rfl]
      rfl
  | case6 quote depth c rest plain ends inductionHypothesis =>
      by_cases backslash : c = '\\'
      · obtain rfl := eq_nil_of_hides_nothing plain backslash
        subst backslash
        right
        rintro (_ | ⟨d, more⟩) inert
        · exact (List.append_nil _).symm
        · have rest := (List.forall_mem_cons.mp inert).2
          simp [readUntil, text_readUntil_of_forall_isInert proper rest, ends]
      · refine (inductionHypothesis proper).of_eq_append [c] fun more inert => ?_
        rw [List.cons_append, readUntil_quoted_cons [] backslash, if_neg ends]
        rfl
  | case7 depth rest inductionHypothesis =>
      exact (inductionHypothesis (ScanState.isProper_comment depth)).of_eq_append [] fun more inert => by
        simp [readUntil]
  | case8 depth c rest uncommented stopped => exact absurd stopped.2 List.not_mem_nil
  | case9 depth c rest uncommented notStopped inductionHypothesis =>
      refine (inductionHypothesis (ScanState.isProper_stateAfter depth c)).of_eq_append [c]
        fun more inert => ?_
      rw [List.cons_append, readUntil_plain_cons, if_neg (by simp)]
      · rfl
      · rintro ⟨rfl, first⟩
        refine head?_append_ne (by decide) ?_ inert first
        intro first
        obtain ⟨tail, rfl⟩ := List.head?_eq_some_iff.mp first
        exact uncommented tail rfl rfl

theorem withoutComments_append_cases (text : List Char) :
    LacksOrKeeps fun more => withoutComments (text ++ more) :=
  lacksOrKeeps_readUntil (ScanState.isProper_plain 0) text

/-! ## Cutting on -/

/-- Inert characters without a semicolon are cut nowhere. -/
theorem cutFrom_of_forall_isInert
    {state : CutState}
    (proper : state.IsProper)
    {text : List Char}
    (inert : ∀ c ∈ text, isInert c = true)
    (whole : ';' ∉ text) :
    cutFrom ';' state text = [text] := by
  induction text with
  | nil => rfl
  | cons c text inductionHypothesis =>
      obtain ⟨first, rest⟩ := List.forall_mem_cons.mp inert
      obtain ⟨different, wholeRest⟩ := List.ne_and_not_mem_of_not_mem_cons whole
      rw [cutFrom_cons ';' state (Scan.ne_of_isInert first).1,
        if_neg fun separates => different separates.1.symm, Scan.after_of_isInert proper first,
        inductionHypothesis rest wholeRest, consFirst]

/-- Inert characters behind a text go on with its last part, up to the first semicolon. They are
cut as they are by themselves, or the last part goes on behind a semicolon. -/
def GoesOn (cut : List Char → List (List Char)) : Prop :=
  ∃ front last,
    (∀ more : List Char, (∀ c ∈ more, isInert c = true) → ';' ∉ more →
      cut more = front ++ prependFirst last [more]) ∧
    ((∀ more : List Char, (∀ c ∈ more, isInert c = true) →
        cut more = front ++ prependFirst last (cutAtTopLevel ';' more)) ∨
      cut [';'] = front ++ prependFirst last [[';']])

theorem prependFirst_nil
    {parts : List (List Char)}
    (nonempty : parts ≠ []) :
    prependFirst [] parts = parts := by
  cases parts with
  | nil => exact absurd rfl nonempty
  | cons part parts => rfl

/-- What is put in front of the last part settles nothing. -/
theorem GoesOn.map
    {cut other : List Char → List (List Char)}
    (goesOn : GoesOn cut)
    {build : List (List Char) → List (List Char)}
    (builds : ∀ front last, ∃ front' last', ∀ parts,
      build (front ++ prependFirst last parts) = front' ++ prependFirst last' parts)
    (same : ∀ more : List Char, (∀ c ∈ more, isInert c = true) → other more = build (cut more)) :
    GoesOn other := by
  obtain ⟨front, last, joins, separates⟩ := goesOn
  obtain ⟨front', last', built⟩ := builds front last
  refine ⟨front', last', fun more inert whole => ?_, ?_⟩
  · rw [same more inert, joins more inert whole, built]
  · refine separates.imp (fun cuts more inert => ?_) fun hides => ?_
    · rw [same more inert, cuts more inert, built]
    · rw [same [';'] (List.forall_mem_singleton.mpr rfl), hides, built]

theorem exists_consFirst_append
    (c : Char)
    (front : List (List Char))
    (last : List Char) :
    ∃ front' last', ∀ parts,
      consFirst c (front ++ prependFirst last parts) = front' ++ prependFirst last' parts := by
  cases front with
  | nil => exact ⟨[], c :: last, fun parts => consFirst_prependFirst c last parts⟩
  | cons first front => exact ⟨(c :: first) :: front, last, fun parts => rfl⟩

theorem goesOn_cutFrom
    {state : CutState}
    (proper : state.IsProper)
    (text : List Char) :
    GoesOn fun more => cutFrom ';' state (text ++ more) := by
  fun_induction cutFrom ';' state text with
  | case1 state =>
      refine ⟨[], [], fun more inert whole => cutFrom_of_forall_isInert proper inert whole, ?_⟩
      by_cases top : state = ⟨0, none⟩
      · left
        intro more inert
        subst top
        exact (prependFirst_nil (cutFrom_ne_nil ';' ⟨0, none⟩ more)).symm
      · right
        show cutFrom ';' state [';'] = [[';']]
        rw [cutFrom_cons ';' state (by decide), if_neg fun both => top both.2]
        rfl
  | case2 state c rest inductionHypothesis =>
      have behind := (inductionHypothesis proper).map (exists_consFirst_append c)
        fun more inert => rfl
      refine behind.map (exists_consFirst_append '\\') fun more inert => ?_
      simp [cutFrom]
  | case3 state =>
      refine ⟨[], ['\\'], fun more inert whole => ?_, .inr rfl⟩
      cases more with
      | nil => rfl
      | cons c more =>
          obtain ⟨_, rest⟩ := List.forall_mem_cons.mp inert
          have wholeRest := (List.ne_and_not_mem_of_not_mem_cons whole).2
          simp [cutFrom, cutFrom_of_forall_isInert proper rest wholeRest, consFirst, prependFirst]
  | case4 state c rest _ _ separates inductionHypothesis =>
      obtain ⟨rfl, rfl⟩ := separates
      refine (inductionHypothesis proper).map
        (fun front last => ⟨[] :: front, last, fun parts => rfl⟩) fun more inert => ?_
      rw [List.cons_append, cutFrom_cons ';' _ (by decide), if_pos ⟨rfl, rfl⟩]
  | case5 state c rest notPair notLast goes inductionHypothesis =>
      have notBackslash : c ≠ '\\' := by
        rintro rfl
        cases rest with
        | nil => exact notLast rfl rfl
        | cons d rest => exact notPair d rest rfl rfl
      refine (inductionHypothesis (CutState.isProper_after proper c)).map
        (exists_consFirst_append c) fun more inert => ?_
      rw [List.cons_append, cutFrom_cons ';' state notBackslash, if_neg goes]

/-- Inert characters behind a list of declarations are left out, or they go on with its last
part. -/
theorem declarationParts_append_cases (text : List Char) :
    (∀ more : List Char, (∀ c ∈ more, isInert c = true) →
        declarationParts (text ++ more) = declarationParts text) ∨
      GoesOn fun more => declarationParts (text ++ more) := by
  have alone : withoutComments (text ++ []) = withoutComments text := by rw [List.append_nil]
  rcases withoutComments_append_cases text with lacks | keeps
  · left
    intro more inert
    have whole : withoutComments (text ++ more) = withoutComments (text ++ []) := lacks more inert
    rw [declarationParts, whole, alone, declarationParts]
  · right
    refine @GoesOn.map _ _ (goesOn_cutFrom CutState.isProper_top (withoutComments text)) id
      (fun front last => ⟨front, last, fun parts => rfl⟩) fun more inert => ?_
    have whole : withoutComments (text ++ more) = withoutComments (text ++ []) ++ more :=
      keeps more inert
    rw [declarationParts, whole, alone]
    rfl

/-! ## Blanks around a list -/

theorem readDeclaration_cons_of_isBlank
    {c : Char}
    (blank : Text.isBlank c = true)
    (part : List Char) :
    readDeclaration (c :: part) = readDeclaration part := by
  have different : c ≠ ':' := by
    rintro rfl
    cases blank
  unfold readDeclaration
  rw [Text.splitOnce, Text.dropStart?_singleton, if_neg (Ne.symm different)]
  cases Text.splitOnce [':'] part with
  | none => rfl
  | some split =>
      dsimp only [Option.map_some]
      rw [Text.trim_cons_of_isBlank blank]

theorem readDeclaration_append_left
    {lead : List Char}
    (blanks : ∀ c ∈ lead, Text.isBlank c = true)
    (part : List Char) :
    readDeclaration (lead ++ part) = readDeclaration part := by
  induction lead with
  | nil => rfl
  | cons c lead inductionHypothesis =>
      obtain ⟨first, rest⟩ := List.forall_mem_cons.mp blanks
      rw [List.cons_append, readDeclaration_cons_of_isBlank first, inductionHypothesis rest]

theorem readDeclaration_append_right
    {trail : List Char}
    (blanks : ∀ c ∈ trail, Text.isBlank c = true)
    (part : List Char) :
    readDeclaration (part ++ trail) = readDeclaration part := by
  unfold readDeclaration
  cases cut : Text.splitOnce [':'] part with
  | none =>
      have fresh : ':' ∉ part ++ trail := by
        intro member
        rcases List.mem_append.mp member with inPart | inTrail
        · exact Text.splitOnce_eq_none_iff.mp cut inPart
        · exact absurd (blanks ':' inTrail) (by decide)
      rw [Text.splitOnce_eq_none_iff.mpr fresh]
  | some split =>
      rw [Text.splitOnce_append cut]
      dsimp only
      rw [Text.trim_append_of_forall_isBlank blanks]

theorem declarationParts_cons_of_isBlank
    {c : Char}
    (blank : Text.isBlank c = true)
    (text : List Char) :
    declarationParts (c :: text) = consFirst c (declarationParts text) := by
  have inert := isInert_of_isBlank blank
  obtain ⟨notBackslash, notSlash, _⟩ := Scan.ne_of_isInert inert
  have notSemicolon : c ≠ ';' := by
    rintro rfl
    cases blank
  have whole : withoutComments (c :: text) = c :: withoutComments text := by
    rw [withoutComments, readUntil_plain_cons [] (fun comment => notSlash comment.1),
      if_neg (by simp), stateAfter_of_isInert inert]
    rfl
  rw [declarationParts, whole, cutAtTopLevel, cutFrom_cons ';' _ notBackslash,
    if_neg fun separates => notSemicolon separates.1, CutState.after_of_isInert inert]
  rfl

theorem filterMap_readDeclaration_cons (part : List Char) (parts : List (List Char)) :
    (part :: parts).filterMap readDeclaration =
      (readDeclaration part).toList ++ parts.filterMap readDeclaration := by
  rw [List.filterMap_cons]
  cases readDeclaration part <;> rfl

theorem filterMap_consFirst_of_isBlank
    {c : Char}
    (blank : Text.isBlank c = true)
    (parts : List (List Char)) :
    (consFirst c parts).filterMap readDeclaration = parts.filterMap readDeclaration := by
  cases parts with
  | nil =>
      rw [consFirst, List.filterMap_cons, readDeclaration_cons_of_isBlank blank]
      rfl
  | cons part parts =>
      rw [consFirst, List.filterMap_cons, List.filterMap_cons,
        readDeclaration_cons_of_isBlank blank]

/-- Blanks in front of a list of declarations do not matter. -/
theorem readDeclarationList_append_of_forall_isBlank
    {lead : List Char}
    (blanks : ∀ c ∈ lead, Text.isBlank c = true)
    (text : List Char) :
    readDeclarationList (lead ++ text) = readDeclarationList text := by
  induction lead with
  | nil => rfl
  | cons c lead inductionHypothesis =>
      obtain ⟨first, rest⟩ := List.forall_mem_cons.mp blanks
      rw [List.cons_append, readDeclarationList_eq, declarationParts_cons_of_isBlank first,
        filterMap_consFirst_of_isBlank first, ← readDeclarationList_eq, inductionHypothesis rest]

/-- Blanks behind a list of declarations do not matter. -/
theorem readDeclarationList_append_blanks
    (text : List Char)
    {trail : List Char}
    (blanks : ∀ c ∈ trail, Text.isBlank c = true) :
    readDeclarationList (text ++ trail) = readDeclarationList text := by
  have inert (c : Char) (member : c ∈ trail) : isInert c = true :=
    isInert_of_isBlank (blanks c member)
  rw [readDeclarationList_eq, readDeclarationList_eq]
  rcases declarationParts_append_cases text with lacks | ⟨front, last, joins, _⟩
  · rw [lacks trail inert]
  · have whole : ';' ∉ trail := fun member => absurd (blanks ';' member) (by decide)
    have alone : declarationParts (text ++ []) = _ := joins [] (by simp) (by simp)
    have longer : declarationParts (text ++ trail) = _ := joins trail inert whole
    rw [List.append_nil] at alone
    rw [longer, alone, List.filterMap_append, List.filterMap_append, prependFirst, prependFirst,
      List.append_nil, List.filterMap_cons, List.filterMap_cons,
      readDeclaration_append_right blanks]

/-! ## Behind a complete list -/

/-- A list of declarations whose strings, brackets and comments have ended, so that a semicolon
behind it ends its last part. -/
def IsComplete (text : List Char) : Prop :=
  declarationParts (text ++ [';']) = declarationParts text ++ [[]]

instance (text : List Char) : Decidable (IsComplete text) :=
  inferInstanceAs (Decidable (_ = _))

/-- A list of declarations with nothing but blanks behind its last semicolon. -/
def EndsBlank (text : List Char) : Prop :=
  ∀ part ∈ (declarationParts text).getLast?, ∀ c ∈ part, Text.isBlank c = true

instance (text : List Char) : Decidable (EndsBlank text) :=
  decidable_of_iff ((declarationParts text).getLast?.all (·.all Text.isBlank) = true) <| by
    simp only [Option.all_eq_true, List.all_eq_true, EndsBlank, Option.mem_def]

/-- What stands behind a complete list is cut as it is by itself, and goes on with its last
part. -/
theorem IsComplete.exists_append
    {text : List Char}
    (complete : IsComplete text) :
    ∃ front last, declarationParts text = front ++ [last] ∧
      ∀ more : List Char, (∀ c ∈ more, isInert c = true) →
        declarationParts (text ++ more) =
          front ++ prependFirst last (cutAtTopLevel ';' more) := by
  rcases declarationParts_append_cases text with lacks | ⟨front, last, joins, cuts | hides⟩
  · have same := lacks [';'] (List.forall_mem_singleton.mpr rfl)
    rw [complete] at same
    simp at same
  · have alone : declarationParts (text ++ []) = _ := joins [] (by simp) (by simp)
    rw [List.append_nil] at alone
    refine ⟨front, last, ?_, cuts⟩
    simpa [prependFirst] using alone
  · have alone : declarationParts (text ++ []) = _ := joins [] (by simp) (by simp)
    have longer : declarationParts (text ++ [';']) = _ := hides
    rw [List.append_nil] at alone
    rw [complete, alone] at longer
    simpa [prependFirst] using congrArg List.length longer

/-! ## Plain declarations -/

namespace Declaration

/-- A declaration of words, without an importance mark. -/
structure IsPlain (declaration : Declaration) : Prop where
  /-- The property is not empty. -/
  property_ne : declaration.property ≠ ""
  /-- The property is a word. -/
  property_word : ∀ c ∈ declaration.property.toList, isPropertyChar c = true
  /-- The value is not empty. -/
  value_ne : declaration.value ≠ ""
  /-- The value is a word. -/
  value_word : ∀ c ∈ declaration.value.toList, isPropertyChar c = true
  /-- There is no importance mark. -/
  unmarked : declaration.important = false

/-- A property and its value with a colon between them. -/
def plainText (declaration : Declaration) : List Char :=
  declaration.property.toList ++ ':' :: declaration.value.toList

variable {declaration : Declaration}

theorem IsPlain.not_mem_value
    (plain : declaration.IsPlain)
    {c : Char}
    (other : isPropertyChar c = false) :
    c ∉ declaration.value.toList :=
  fun member => ne_of_test (plain.value_word c member) other rfl

theorem IsPlain.not_mem_property
    (plain : declaration.IsPlain)
    {c : Char}
    (other : isPropertyChar c = false) :
    c ∉ declaration.property.toList :=
  fun member => ne_of_test (plain.property_word c member) other rfl

theorem IsPlain.readDeclaration_plainText
    (plain : declaration.IsPlain) :
    readDeclaration declaration.plainText = some declaration := by
  have unmarked : ¬EndsMarked declaration.value.toList := by
    rintro ⟨before, mark, split, _⟩
    refine plain.not_mem_value (c := '!') (by decide) ?_
    rw [split]
    simp
  rw [readDeclaration, plainText,
    Text.splitOnce_append_cons (plain.not_mem_property (by decide))]
  dsimp only
  rw [trim_of_forall_isPropertyChar plain.property_word,
    trim_of_forall_isPropertyChar plain.value_word, takeImportance_of_not_endsMarked unmarked,
    String.ofList_toList, lower_of_forall_isPropertyChar plain.property_word]
  obtain ⟨property, value, important⟩ := declaration
  obtain rfl : important = false := plain.unmarked
  have property_ne : property ≠ "" := plain.property_ne
  have value_ne : value ≠ "" := plain.value_ne
  simp [property_ne, value_ne]

/-- Text in front of a word that is trimmed off with a space between them is blank. -/
theorem forall_isBlank_of_length_trim
    {part word : List Char}
    (property : ∀ c ∈ word, isPropertyChar c = true)
    (nonempty : word ≠ [])
    (short : (Text.trim (part ++ ' ' :: word)).length = word.length) :
    ∀ c ∈ part, Text.isBlank c = true := by
  obtain ⟨lead, trail, split, leadBlanks, trailBlanks⟩ := Text.exists_trim (part ++ ' ' :: word)
  -- the word does not end in a blank
  have noTrail : trail = [] := by
    rcases List.eq_nil_or_concat trail with empty | ⟨others, c, rfl⟩
    · exact empty
    · have blank := trailBlanks c (by simp)
      have last := congrArg List.getLast? split
      obtain ⟨letters, d, rfl⟩ := (List.eq_nil_or_concat word).resolve_left nonempty
      have nonblank := isBlank_of_isPropertyChar (property d (by simp))
      simp only [List.concat_eq_append, ← List.append_assoc, ← List.cons_append,
        List.getLast?_append, List.getLast?_singleton, Option.some_or, Option.some.injEq] at last
      rw [last, blank] at nonblank
      cases nonblank
  rw [noTrail, List.append_nil, ← List.singleton_append, ← List.append_assoc] at split
  have lead_eq := (List.append_inj' split (by simpa using short.symm)).1
  intro c member
  exact leadBlanks c (lead_eq ▸ List.mem_append_left _ member)

/-- What is read of a part stands around its first colon. -/
theorem exists_of_readDeclaration
    {part : List Char}
    (read : readDeclaration part = some declaration) :
    ∃ name text, part = name ++ ':' :: text ∧
      declaration.property.toList = (Text.trim name).map Text.lowerChar ∧
      (declaration.value.toList, declaration.important) = takeImportance (Text.trim text) := by
  unfold readDeclaration at read
  split at read
  · cases read
  · next name text split =>
      dsimp only at read
      split at read
      · cases read
      · obtain rfl := Option.some.inj read
        refine ⟨name, text, Text.eq_append_of_splitOnce split, ?_, ?_⟩
        · rw [Text.toList_lower, String.toList_ofList]
        · rw [String.toList_ofList]

/-- Behind other text in its part, a plain declaration is read as itself only when that text is
blank. -/
theorem IsPlain.forall_isBlank
    (plain : declaration.IsPlain)
    {part : List Char}
    (read : readDeclaration (part ++ ' ' :: declaration.plainText) = some declaration) :
    ∀ c ∈ part, Text.isBlank c = true := by
  obtain ⟨name, text, split, property_eq, value_eq⟩ := exists_of_readDeclaration read
  have unmarked : ¬EndsMarked (Text.trim text) := by
    rw [endsMarked_iff, ← value_eq, plain.unmarked]
    exact Bool.false_ne_true
  rw [takeImportance_of_not_endsMarked unmarked] at value_eq
  have noColon : ':' ∉ text := by
    intro member
    have inside := (Text.isBlank_or_mem_trim member).resolve_left (by decide)
    rw [← (Prod.mk.inj value_eq).1] at inside
    exact plain.not_mem_value (by decide) inside
  -- the only colon of the whole part is the one of the declaration
  have cut := Text.splitLast_append_cons (part ++ ' ' :: declaration.property.toList)
    (plain.not_mem_value (c := ':') (by decide))
  rw [List.append_assoc, List.cons_append, ← plainText, split,
    Text.splitLast_append_cons name noColon] at cut
  obtain ⟨rfl, _⟩ := Prod.mk.inj (Option.some.inj cut)
  refine forall_isBlank_of_length_trim plain.property_word ?_ ?_
  · simpa using plain.property_ne
  · have counted := congrArg List.length property_eq
    rw [List.length_map] at counted
    exact counted.symm

/-- A plain declaration is read behind other text in its part, and that text as well, only when
the text is blank. -/
theorem IsPlain.readDeclaration_append_iff
    (plain : declaration.IsPlain)
    (part : List Char) :
    (readDeclaration (part ++ ' ' :: declaration.plainText)).toList =
        (readDeclaration part).toList ++ [declaration] ↔
      ∀ c ∈ part, Text.isBlank c = true := by
  constructor
  · intro both
    have alone : readDeclaration part = none := by
      cases read : readDeclaration part with
      | none => rfl
      | some other =>
          have counted := congrArg List.length both
          rw [read] at counted
          exact absurd (counted ▸ Option.length_toList_le) (by simp)
    rw [alone] at both
    exact plain.forall_isBlank (Option.toList_eq_singleton_iff.mp both)
  · intro blanks
    have alone : readDeclaration part = none := by
      rw [← List.append_nil part, readDeclaration_append_left blanks]
      rfl
    rw [alone, readDeclaration_append_left blanks, readDeclaration_cons_of_isBlank rfl,
      plain.readDeclaration_plainText]
    rfl

end Declaration

/-! ## Plain declarations behind a list -/

/-- Declarations one behind the other, each with a semicolon behind it. -/
def plainLines (declarations : List Declaration) : List Char :=
  declarations.flatMap fun declaration => declaration.plainText ++ [';']

section PlainLines

variable {declarations : List Declaration}

theorem isPropertyChar_of_mem_plainLines
    (plain : ∀ declaration ∈ declarations, declaration.IsPlain)
    {c : Char}
    (member : c ∈ plainLines declarations) :
    isPropertyChar c = true ∨ c = ':' ∨ c = ';' := by
  obtain ⟨declaration, listed, inLine⟩ := List.mem_flatMap.mp member
  simp only [Declaration.plainText, List.append_assoc, List.cons_append, List.mem_append,
    List.mem_cons, List.not_mem_nil, or_false] at inLine
  rcases inLine with inProperty | rfl | inValue | rfl
  · exact .inl ((plain declaration listed).property_word c inProperty)
  · exact .inr (.inl rfl)
  · exact .inl ((plain declaration listed).value_word c inValue)
  · exact .inr (.inr rfl)

theorem isInert_of_mem_plainLines
    (plain : ∀ declaration ∈ declarations, declaration.IsPlain)
    {c : Char}
    (member : c ∈ plainLines declarations) :
    isInert c = true := by
  rcases isPropertyChar_of_mem_plainLines plain member with property | rfl | rfl
  · exact isInert_of_isPropertyChar property
  · rfl
  · rfl

@[simp] theorem plainLines_cons (declaration : Declaration) (declarations : List Declaration) :
    plainLines (declaration :: declarations) =
      declaration.plainText ++ ';' :: plainLines declarations := by
  simp [plainLines]

/-- Plain declarations are cut behind each of them. -/
theorem cutAtTopLevel_plainLines
    (plain : ∀ declaration ∈ declarations, declaration.IsPlain) :
    cutAtTopLevel ';' (plainLines declarations) =
      declarations.map Declaration.plainText ++ [[]] := by
  induction declarations with
  | nil => rfl
  | cons declaration others inductionHypothesis =>
      obtain ⟨first, rest⟩ := List.forall_mem_cons.mp plain
      have closed : IsClosed [';'] declaration.plainText := by
        refine IsClosed.append_cons ?_ rfl (by decide) ?_
        · exact (isClosed_of_forall_isPropertyChar first.property_word).mono (by simp)
        · exact (isClosed_of_forall_isPropertyChar first.value_word).mono (by simp)
      have behind := inductionHypothesis rest
      rw [cutAtTopLevel] at behind
      rw [plainLines_cons, cutAtTopLevel, ← CutState.top, cutFrom_append closed.unbarred,
        closed.run_eq, cutFrom_cons ';' .top (by decide), if_pos ⟨rfl, rfl⟩, CutState.top, behind,
        prependFirst, List.append_nil, List.map_cons, List.cons_append]

theorem filterMap_map_plainText
    (plain : ∀ declaration ∈ declarations, declaration.IsPlain) :
    (declarations.map Declaration.plainText ++ [[]]).filterMap readDeclaration = declarations := by
  have each : ∀ declaration ∈ declarations,
      (readDeclaration ∘ Declaration.plainText) declaration = some (id declaration) :=
    fun declaration listed => (plain declaration listed).readDeclaration_plainText
  rw [List.filterMap_append, List.filterMap_map,
    List.filterMap_eq_map_iff_forall_eq_some.mpr each, List.map_id]
  exact List.append_nil _

theorem cutAtTopLevel_space_plainLines
    (plain : ∀ declaration ∈ declarations, declaration.IsPlain) :
    cutAtTopLevel ';' (' ' :: plainLines declarations) =
      consFirst ' ' (declarations.map Declaration.plainText ++ [[]]) := by
  rw [← cutAtTopLevel_plainLines plain, cutAtTopLevel, cutFrom_cons ';' _ (by decide),
    if_neg (by decide)]
  rfl

theorem readDeclarationList_plainLines
    (plain : ∀ declaration ∈ declarations, declaration.IsPlain) :
    readDeclarationList (plainLines declarations) = declarations := by
  have whole : withoutComments (plainLines declarations) = plainLines declarations :=
    text_readUntil_of_forall_isInert (ScanState.isProper_plain 0) fun c member =>
      isInert_of_mem_plainLines plain member
  rw [readDeclarationList_eq, declarationParts, whole, cutAtTopLevel_plainLines plain,
    filterMap_map_plainText plain]

/-- Behind a complete list and a semicolon, plain declarations are read as such. -/
theorem IsComplete.readDeclarationList_append_semicolon
    {text : List Char}
    (complete : IsComplete text)
    (plain : ∀ declaration ∈ declarations, declaration.IsPlain) :
    readDeclarationList (text ++ ';' :: ' ' :: plainLines declarations) =
      readDeclarationList text ++ declarations := by
  obtain ⟨front, last, parts_eq, goesOn⟩ := complete.exists_append
  have inert : ∀ c ∈ ';' :: ' ' :: plainLines declarations, isInert c = true := by
    simp only [List.forall_mem_cons]
    exact ⟨rfl, rfl, fun c member => isInert_of_mem_plainLines plain member⟩
  rw [readDeclarationList_eq, readDeclarationList_eq, goesOn _ inert, parts_eq, cutAtTopLevel,
    cutFrom_cons ';' _ (by decide), if_pos ⟨rfl, rfl⟩, ← cutAtTopLevel,
    cutAtTopLevel_space_plainLines plain, prependFirst, List.append_nil,
    ← List.singleton_append, ← List.append_assoc, List.filterMap_append,
    filterMap_consFirst_of_isBlank rfl, filterMap_map_plainText plain]

/-- Behind a complete list and a space, plain declarations are read as such exactly when nothing
but blanks stands behind the last semicolon of the list. -/
theorem IsComplete.readDeclarationList_append_space_iff
    {text : List Char}
    (complete : IsComplete text)
    (plain : ∀ declaration ∈ declarations, declaration.IsPlain)
    (nonempty : declarations ≠ []) :
    readDeclarationList (text ++ ' ' :: plainLines declarations) =
        readDeclarationList text ++ declarations ↔
      EndsBlank text := by
  obtain ⟨front, last, parts_eq, goesOn⟩ := complete.exists_append
  obtain ⟨declaration, others, rfl⟩ := List.exists_cons_of_ne_nil nonempty
  obtain ⟨first, rest⟩ := List.forall_mem_cons.mp plain
  have inert : ∀ c ∈ ' ' :: plainLines (declaration :: others), isInert c = true :=
    List.forall_mem_cons.mpr ⟨rfl, fun c member => isInert_of_mem_plainLines plain member⟩
  have endsBlank_iff : EndsBlank text ↔ ∀ c ∈ last, Text.isBlank c = true := by
    rw [EndsBlank, parts_eq, List.getLast?_concat]
    simp
  have longer : readDeclarationList (text ++ ' ' :: plainLines (declaration :: others)) =
      front.filterMap readDeclaration ++
        ((readDeclaration (last ++ ' ' :: declaration.plainText)).toList ++ others) := by
    rw [readDeclarationList_eq, goesOn _ inert, cutAtTopLevel_space_plainLines plain,
      List.map_cons, List.cons_append, consFirst, prependFirst, List.filterMap_append,
      filterMap_readDeclaration_cons, filterMap_map_plainText rest]
  have alone : readDeclarationList text =
      front.filterMap readDeclaration ++ (readDeclaration last).toList := by
    rw [readDeclarationList_eq, parts_eq, List.filterMap_append, filterMap_readDeclaration_cons,
      List.filterMap_nil, List.append_nil]
  rw [endsBlank_iff, ← first.readDeclaration_append_iff last, longer, alone, List.append_assoc,
    List.append_right_inj, List.append_cons _ declaration others, List.append_left_inj]

end PlainLines

end Css
end MailPress
