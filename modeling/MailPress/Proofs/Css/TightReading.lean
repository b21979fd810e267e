import MailPress.Proofs.Css.AttributeTest

/-!
# Tests in tightened selectors

The tightening scan of a selector and the reader go through the text side by side. Both keep apart
what stands in brackets by its quotes, so they agree on where a bracket ends. They need not agree
on parentheses: the reader ends an argument without regard to strings. Where the scan is outside
strings at the end of each argument, every test of the tightened text is the tightened test.
-/

namespace MailPress
namespace Css

/-! ## The scan of selectors -/

/-- What the scan writes does not depend on the last character, except on whether it is tight. -/
theorem squeezeFrom_congr_previous
    {isTight : Char → Bool}
    {previous other : Option Char}
    (same : previous.any isTight = other.any isTight)
    (quote : Option Char)
    (pending : Bool)
    (text : List Char) :
    squeezeFrom (keepsBeside isTight) ⟨quote, previous, pending⟩ text =
      squeezeFrom (keepsBeside isTight) ⟨quote, other, pending⟩ text := by
  induction text generalizing pending with
  | nil => simp [squeezeFrom]
  | cons c rest inductionHypothesis =>
      cases quote with
      | some quote => simp [squeezeFrom]
      | none =>
          have kept : keepsBeside isTight previous c = keepsBeside isTight other c := by
            rw [keepsBeside, keepsBeside, same]
          rw [squeezeFrom, squeezeFrom, inductionHypothesis, kept]

/-- What the scan makes of a selector from a place outside strings on, behind a character that is
not tight. -/
def tightened (text : List Char) : List Char :=
  squeezeFrom (keepsBeside isTightInSelector) ⟨none, none, false⟩ text

/-- What it makes of a text between brackets, with the blanks in front of the closing one. -/
def tightenedInside (text : List Char) : List Char :=
  tightened text ++
    (TightenState.run ⟨none, none, false⟩ text).gap (keepsBeside isTightInSelector) ')'

/-- A character that is kept by the scan of selectors with the blanks around it. -/
abbrev IsLooseInSelector : Char → Prop :=
  IsLoose isTightInSelector

theorem squeezeFrom_of_loose
    {c : Char}
    (loose : IsLooseInSelector c)
    (text : List Char) :
    squeezeFrom (keepsBeside isTightInSelector) ⟨none, some c, false⟩ text = tightened text := by
  have same : (some c).any isTightInSelector = (none : Option Char).any isTightInSelector :=
    loose.2.2
  exact squeezeFrom_congr_previous same none false text

theorem tightened_cons
    {c : Char}
    (loose : IsLooseInSelector c)
    (rest : List Char) :
    tightened (c :: rest) = c :: tightened rest := by
  have behind := squeezeFrom_of_loose loose rest
  simpa [tightened, squeezeFrom, loose.1, loose.2.1] using behind

theorem gap_of_loose
    {c : Char}
    (loose : IsLooseInSelector c)
    (state : TightenState) :
    state.gap (keepsBeside isTightInSelector) c =
      state.gap (keepsBeside isTightInSelector) ')' := by
  have closing : isTightInSelector ')' = false := rfl
  simp only [TightenState.gap, keepsBeside, loose.2.2, closing]

theorem forall_mem_gap
    (keeps : Option Char → Char → Bool)
    (state : TightenState)
    (c : Char) :
    ∀ d ∈ state.gap keeps c, Text.isBlank d = true := by
  unfold TightenState.gap
  split
  · simp
  · simp

/-- The blanks that the scan held back are written in front of what it makes of the rest. -/
theorem squeezeFrom_eq_gap_append
    (previous : Option Char)
    (pending : Bool)
    {c : Char}
    (nonblank : Text.isBlank c = false)
    (rest : List Char) :
    squeezeFrom (keepsBeside isTightInSelector) ⟨none, previous, pending⟩ (c :: rest) =
      TightenState.gap (keepsBeside isTightInSelector) ⟨none, previous, pending⟩ c ++
        tightened (c :: rest) := by
  rw [tightened, squeezeFrom_cons_of_nonblank _ rfl nonblank,
    squeezeFrom_cons_of_nonblank _ rfl nonblank]
  simp [TightenState.after, TightenState.gap, nonblank]

/-- The scan goes on afresh behind a loose character that stands outside strings. -/
theorem tightened_append_cons
    {front : List Char}
    (closed : front.foldl nextQuote none = none)
    {c : Char}
    (loose : IsLooseInSelector c)
    (rest : List Char) :
    tightened (front ++ c :: rest) = tightenedInside front ++ c :: tightened rest := by
  have outside : (TightenState.run ⟨none, none, false⟩ front).quote = none := by
    rw [TightenState.quote_run]
    exact closed
  have fresh : (TightenState.run ⟨none, none, false⟩ front).after c = ⟨none, some c, false⟩ := by
    generalize TightenState.run ⟨none, none, false⟩ front = state at outside
    obtain ⟨_ | quote, previous, pending⟩ := state
    · simp [TightenState.after, loose.1, loose.2.1]
    · cases outside
  rw [tightenedInside, ← gap_of_loose loose, ← squeezeFrom_of_loose loose rest, List.append_assoc,
    tightened, squeezeFrom_append, squeezeFrom_cons_of_nonblank _ outside loose.1, fresh]
  rfl

/-- A text between brackets is respaced. -/
theorem respaced_tightenedInside
    {text : List Char}
    (closed : text.foldl nextQuote none = none) :
    Respaced text (tightenedInside text) := by
  have closing : IsLooseInSelector ')' := ⟨rfl, rfl, rfl⟩
  have whole := tightened_append_cons closed closing []
  have respaced := respaced_squeezeFrom (keepsBeside isTightInSelector) ⟨none, none, false⟩
    (text ++ [')'])
  rw [← tightened, whole] at respaced
  exact respaced.of_concat rfl

/-- Behind blanks the scan writes a space, or a tight character, if anything. -/
theorem head?_squeezeFrom_of_pending (text : List Char) :
    ∀ d ∈ (squeezeFrom (keepsBeside isTightInSelector) ⟨none, none, true⟩ text).head?,
      d = ' ' ∨ isTightInSelector d = true := by
  induction text with
  | nil => exact nofun
  | cons c rest inductionHypothesis =>
      by_cases blank : Text.isBlank c = true
      · simpa only [squeezeFrom, if_pos blank] using inductionHypothesis
      · intro d first
        simp only [squeezeFrom, if_neg blank, keepsBeside, Option.any_none, Bool.not_false,
          Bool.and_true, Bool.true_and] at first
        cases tight : isTightInSelector c with
        | true =>
            simp only [tight, Bool.not_true, Bool.false_eq_true, if_false] at first
            obtain rfl : c = d := Option.some.inj first
            exact .inr tight
        | false =>
            simp only [tight, Bool.not_false, if_true] at first
            exact .inl (Option.some.inj first).symm

/-- A tightened text starts as the text does, or with the end of a run of blanks. -/
theorem head?_tightened {text : List Char} {d : Char} (first : d ∈ (tightened text).head?) :
    text.head? = some d ∨
      (∃ c ∈ text.head?, Text.isBlank c = true) ∧ (d = ' ' ∨ isTightInSelector d = true) := by
  cases text with
  | nil => cases first
  | cons c rest =>
      by_cases blank : Text.isBlank c = true
      · rw [tightened, squeezeFrom, if_pos blank] at first
        exact .inr ⟨⟨c, rfl, blank⟩, head?_squeezeFrom_of_pending rest d first⟩
      · rw [tightened, squeezeFrom_cons_of_nonblank _ rfl (by simpa using blank)] at first
        exact .inl first

/-- A tightened text starts with a loose character exactly when the text does. -/
theorem tightened_eq_cons_iff
    {c : Char}
    (loose : IsLooseInSelector c)
    {text more : List Char} :
    tightened text = c :: more ↔ ∃ rest, text = c :: rest ∧ more = tightened rest := by
  constructor
  · intro written
    have first : c ∈ (tightened text).head? := by
      rw [written]
      rfl
    rcases head?_tightened first with same | ⟨_, rfl | tight⟩
    · obtain ⟨rest, rfl⟩ := List.head?_eq_some_iff.mp same
      rw [tightened_cons loose] at written
      exact ⟨rest, rfl, (List.cons.inj written).2.symm⟩
    · exact absurd loose.1 (by decide)
    · exact absurd (loose.2.2.symm.trans tight) Bool.false_ne_true
  · rintro ⟨rest, rfl, rfl⟩
    exact tightened_cons loose rest

/-! ## Names -/

/-- A text without backslashes whose blanks are all ASCII. -/
structure IsUnescaped (text : List Char) : Prop where
  /-- There is no backslash. -/
  plain : '\\' ∉ text
  /-- No other blank is a character of a name. -/
  blanks : ∀ c ∈ text, Text.isBlank c = true → Text.isAscii c = true

instance (text : List Char) : Decidable (IsUnescaped text) :=
  decidable_of_iff
    ('\\' ∉ text ∧ text.all (fun c => !Text.isBlank c || Text.isAscii c) = true)
    ⟨fun both => ⟨both.1, fun c member blank => by
        simpa [blank] using List.all_eq_true.mp both.2 c member⟩,
      fun unescaped => ⟨unescaped.plain, List.all_eq_true.mpr fun c member => by
        simpa [or_iff_not_imp_left] using unescaped.blanks c member⟩⟩

theorem IsUnescaped.of_subset
    {text part : List Char}
    (unescaped : IsUnescaped text)
    (subset : part ⊆ text) :
    IsUnescaped part :=
  ⟨fun member => unescaped.plain (subset member),
    fun c member => unescaped.blanks c (subset member)⟩

theorem isLoose_of_isNameChar
    {c : Char}
    (blanks : Text.isBlank c = true → Text.isAscii c = true)
    (named : isNameChar c = true) :
    IsLooseInSelector c := by
  refine ⟨?_, isQuote_of_isNameChar named, ?_⟩
  · by_contra blank
    rw [Bool.not_eq_false] at blank
    simp only [isNameChar, blanks blank, Bool.not_true, Bool.or_false] at named
    have nonblank := isBlank_of_isAtNameChar (c := c) (by
      rw [isAtNameChar]
      exact named)
    exact Bool.false_ne_true (nonblank.symm.trans blank)
  · have loose : c ∉ ['>', '+', '~', ','] := not_mem_of_test named (by decide)
    simpa [isTightInSelector, and_assoc] using loose

theorem takeName_tightened
    {text : List Char}
    (unescaped : IsUnescaped text) :
    takeName (tightened text) = (takeName text).map fun found => (found.1, tightened found.2) := by
  induction text with
  | nil => rfl
  | cons c rest inductionHypothesis =>
      have plain : c ≠ '\\' := fun same => unescaped.plain (same ▸ List.mem_cons_self)
      have behind := inductionHypothesis (unescaped.of_subset (List.subset_cons_self c rest))
      rw [takeName_cons plain]
      by_cases named : isNameChar c = true
      · have loose := isLoose_of_isNameChar (unescaped.blanks c List.mem_cons_self) named
        rw [tightened_cons loose, takeName_cons plain, if_pos named, if_pos named, behind]
        simp [Function.comp_def]
      · rw [if_neg named, Option.map_some]
        cases written : tightened (c :: rest) with
        | nil => rfl
        | cons d more =>
            have unnamed : d ≠ '\\' ∧ ¬isNameChar d = true := by
              have first : d ∈ (tightened (c :: rest)).head? := by
                rw [written]
                rfl
              rcases head?_tightened first with same | ⟨_, rfl | tight⟩
              · obtain rfl := Option.some.inj same
                exact ⟨plain, named⟩
              · exact ⟨by decide, by decide⟩
              · simp only [isTightInSelector, Bool.or_eq_true, beq_iff_eq] at tight
                rcases tight with ((rfl | rfl) | rfl) | rfl <;> exact ⟨by decide, by decide⟩
            rw [takeName_cons unnamed.1, if_neg unnamed.2]

/-! ## Brackets -/

/-- The scan keeps the end of a bracket. -/
theorem takeBracket_squeezeFrom (state : TightenState) (text : List Char) :
    takeBracket state.quote (squeezeFrom (keepsBeside isTightInSelector) state text) =
      (takeBracket state.quote text).map fun found =>
        (squeezeFrom (keepsBeside isTightInSelector) state found.1 ++
          (state.run found.1).gap (keepsBeside isTightInSelector) ')', tightened found.2) := by
  have closing : IsLooseInSelector ']' := ⟨rfl, rfl, rfl⟩
  have spread (state : TightenState) (c d : Char) (rest : List Char) (notClosing : d ≠ ']') :
      takeBracket none (state.gap (keepsBeside isTightInSelector) c ++ d :: rest) =
        (takeBracket (if isQuote d then some d else none) rest).map fun found =>
          (state.gap (keepsBeside isTightInSelector) c ++ d :: found.1, found.2) := by
    have plain : ∀ e ∈ state.gap (keepsBeside isTightInSelector) c,
        isQuote e = false ∧ e ≠ ']' := fun e member =>
      ⟨(of_isBlank (forall_mem_gap _ state c e member)).1,
        (of_isBlank (forall_mem_gap _ state c e member)).2.1⟩
    rw [takeBracket_append plain, takeBracket, if_neg notClosing]
    simp [Function.comp_def]
  induction text generalizing state with
  | nil => simp [squeezeFrom, takeBracket]
  | cons c rest inductionHypothesis =>
      have behind := inductionHypothesis (state.after c)
      obtain ⟨_ | quote, previous, pending⟩ := state
      · by_cases blank : Text.isBlank c = true
        · obtain ⟨notQuote, notClosing, _⟩ := of_isBlank blank
          simp only [TightenState.after, if_pos blank] at behind
          simp only [squeezeFrom, if_pos blank, takeBracket, if_neg notClosing, notQuote,
            Bool.false_eq_true, if_false, Option.map_map, Function.comp_def, behind,
            TightenState.run, List.foldl_cons, TightenState.after]
        · rw [Bool.not_eq_true] at blank
          rw [squeezeFrom_cons_of_nonblank _ rfl blank]
          simp only [TightenState.after, blank, Bool.false_eq_true, if_false] at behind ⊢
          by_cases ends : c = ']'
          · subst ends
            have plain := forall_mem_gap (keepsBeside isTightInSelector)
              ⟨none, previous, pending⟩ ']'
            rw [takeBracket_append fun e member =>
              ⟨(of_isBlank (plain e member)).1, (of_isBlank (plain e member)).2.1⟩]
            simp only [takeBracket, if_true, Option.map_some, List.append_nil, squeezeFrom,
              List.nil_append, gap_of_loose closing, TightenState.run, List.foldl_nil]
            rw [← squeezeFrom_of_loose closing]
            rfl
          · rw [spread _ _ _ _ ends, behind, takeBracket, if_neg ends]
            simp only [Option.map_map, Function.comp_def]
            refine Option.map_congr fun found _ => ?_
            rw [squeezeFrom_cons_of_nonblank _ rfl blank]
            simp [TightenState.after, TightenState.run, blank]
      · simp only [TightenState.after] at behind
        simp only [squeezeFrom, takeBracket, behind, Option.map_map, Function.comp_def,
          List.cons_append, TightenState.run, List.foldl_cons, TightenState.after]

theorem takeBracket_tightened (text : List Char) :
    takeBracket none (tightened text) =
      (takeBracket none text).map fun found => (tightenedInside found.1, tightened found.2) :=
  takeBracket_squeezeFrom ⟨none, none, false⟩ text

/-- What stands in brackets is not understood only when it is blank. -/
theorem readAttributeTest_eq_none_iff (inner : List Char) :
    readAttributeTest inner = none ↔ ∀ c ∈ inner, Text.isBlank c = true := by
  constructor
  · intro unread
    have empty : Text.trim inner = [] := by
      simp only [readAttributeTest] at unread
      split at unread
      · cases unread
      · split at unread
        · next empty => simpa [Text.lower] using empty
        · cases unread
    obtain ⟨lead, trail, split, leadBlanks, trailBlanks⟩ := Text.exists_trim inner
    rw [empty, List.append_nil] at split
    rw [split]
    exact List.forall_mem_append.mpr ⟨leadBlanks, trailBlanks⟩
  · intro blanks
    have fresh : '=' ∉ inner := fun member => (of_isBlank (blanks _ member)).2.2.1 rfl
    rw [readAttributeTest_of_fresh fresh, Text.trim_of_forall_isBlank blanks]
    rfl

/-- Blank stays blank between brackets. -/
theorem isSome_readAttributeTest_tightenedInside
    {inner : List Char}
    (closed : inner.foldl nextQuote none = none) :
    (readAttributeTest (tightenedInside inner)).isSome = (readAttributeTest inner).isSome := by
  have iff : readAttributeTest (tightenedInside inner) = none ↔ readAttributeTest inner = none := by
    rw [readAttributeTest_eq_none_iff, readAttributeTest_eq_none_iff,
      (respaced_tightenedInside closed).forall_isBlank_iff]
  rw [Bool.eq_iff_iff, Option.isSome_iff_ne_none, Option.isSome_iff_ne_none, ne_eq, ne_eq, iff]

/-! ## Arguments -/

theorem takeArgument_cons_of_isBlank
    {c : Char}
    (blank : Text.isBlank c = true)
    (depth : Nat)
    (rest : List Char) :
    takeArgument depth (c :: rest) =
      (takeArgument depth rest).map fun found => (c :: found.1, found.2) := by
  have opening : c ≠ '(' := ne_of_test blank rfl
  have closing : c ≠ ')' := ne_of_test blank rfl
  rw [takeArgument]
  simp [opening, closing]

/-- Blanks do not matter to whether an argument ends. -/
theorem takeArgument_eq_none_of_respaced
    {text written : List Char}
    (respaced : Respaced text written)
    {depth : Nat}
    (untaken : takeArgument depth text = none) :
    takeArgument depth written = none := by
  induction respaced generalizing depth with
  | nil => rfl
  | keep c rest inductionHypothesis =>
      rw [takeArgument] at untaken ⊢
      split at untaken
      · cases untaken
      · next goesOn =>
          rw [if_neg goesOn, Option.map_eq_none_iff]
          exact inductionHypothesis (Option.map_eq_none_iff.mp untaken)
  | drop blank rest inductionHypothesis =>
      rw [takeArgument_cons_of_isBlank blank, Option.map_eq_none_iff] at untaken
      exact inductionHypothesis untaken
  | space blank rest inductionHypothesis =>
      rw [takeArgument_cons_of_isBlank blank, Option.map_eq_none_iff] at untaken
      rw [takeArgument_cons_of_isBlank Text.isBlank_space, Option.map_eq_none_iff]
      exact inductionHypothesis untaken

/-- A respaced argument ends at the same parenthesis. -/
theorem takeArgument_of_respaced
    {argument written : List Char}
    (respaced : Respaced argument written)
    {depth : Nat}
    {after : List Char}
    (taken : takeArgument depth (argument ++ ')' :: after) = some (argument, after))
    (rest : List Char) :
    takeArgument depth (written ++ ')' :: rest) = some (written, rest) := by
  induction respaced generalizing depth with
  | nil =>
      rw [List.nil_append, takeArgument] at taken ⊢
      split at taken
      · next ends => rw [if_pos ends]
      · obtain ⟨found, _, same⟩ := Option.map_eq_some_iff.mp taken
        cases same
  | keep c more inductionHypothesis =>
      rw [List.cons_append, takeArgument] at taken ⊢
      split at taken
      · cases taken
      · next goesOn =>
          obtain ⟨found, behind, same⟩ := Option.map_eq_some_iff.mp taken
          cases same
          rw [if_neg goesOn]
          exact Option.map_eq_some_iff.mpr ⟨_, inductionHypothesis behind, rfl⟩
  | drop blank more inductionHypothesis =>
      rw [List.cons_append, takeArgument_cons_of_isBlank blank] at taken
      obtain ⟨found, behind, same⟩ := Option.map_eq_some_iff.mp taken
      cases same
      exact inductionHypothesis behind
  | space blank more inductionHypothesis =>
      rw [List.cons_append, takeArgument_cons_of_isBlank blank] at taken
      obtain ⟨found, behind, same⟩ := Option.map_eq_some_iff.mp taken
      cases same
      rw [List.cons_append, takeArgument_cons_of_isBlank Text.isBlank_space]
      exact Option.map_eq_some_iff.mpr ⟨_, inductionHypothesis behind, rfl⟩

/-- An argument at whose end the scan is outside strings ends there in the tightened text. -/
theorem takeArgument_tightened
    {text argument after : List Char}
    (taken : takeArgument 0 text = some (argument, after))
    (closed : argument.foldl nextQuote none = none) :
    takeArgument 0 (tightened text) = some (tightenedInside argument, tightened after) := by
  have whole := eq_append_of_takeArgument taken
  rw [whole] at taken
  rw [whole, tightened_append_cons closed ⟨rfl, rfl, rfl⟩]
  exact takeArgument_of_respaced (respaced_tightenedInside closed) taken (tightened after)

theorem takeArgument_tightened_eq_none
    {text : List Char}
    (untaken : takeArgument 0 text = none) :
    takeArgument 0 (tightened text) = none :=
  takeArgument_eq_none_of_respaced (respaced_squeezeFrom _ ⟨none, none, false⟩ text) untaken

/-! ## Tests -/

/-- A test with its argument tightened. -/
def Mark.tightened : Mark → Mark
  | .bracketed inner => .bracketed (tightenedInside inner)
  | .functional name argument => .functional name (tightenedInside argument)
  | mark => mark

/-- All strings of an argument end in it. -/
def Mark.IsClosed : Mark → Prop
  | .functional _ argument => argument.foldl nextQuote none = none
  | _ => True

/-- A test that was taken, with the rest of the text tightened. -/
def Taking.tightened : Taking → Taking
  | .mark test rest => .mark test.tightened (Css.tightened rest)
  | taking => taking

theorem takeNamed_tightened
    {make : String → Mark}
    (unchanged : ∀ name, (make name).tightened = make name)
    {text : List Char}
    (unescaped : IsUnescaped text) :
    takeNamed make (tightened text) = (takeNamed make text).tightened := by
  unfold takeNamed
  rw [takeName_tightened unescaped]
  cases takeName text with
  | none => rfl
  | some found =>
      obtain ⟨_ | ⟨c, name⟩, rest⟩ := found
      · rfl
      · exact congrArg (Taking.mark · (tightened rest)) (unchanged _).symm

theorem withoutColon_tightened (text : List Char) :
    withoutColon (tightened text) = tightened (withoutColon text) := by
  have colon : IsLooseInSelector ':' := ⟨rfl, rfl, rfl⟩
  fun_cases withoutColon text with
  | case1 rest => rw [tightened_cons colon, withoutColon]
  | case2 text other =>
      rw [withoutColon]
      intro rest written
      obtain ⟨rest, rfl, _⟩ := (tightened_eq_cons_iff colon).mp written
      exact other rest rfl

theorem head?_tightened_eq_colon_iff (text : List Char) :
    (tightened text).head? = some ':' ↔ text.head? = some ':' := by
  have colon : IsLooseInSelector ':' := ⟨rfl, rfl, rfl⟩
  rw [List.head?_eq_some_iff, List.head?_eq_some_iff]
  simp only [tightened_eq_cons_iff colon]
  exact ⟨fun ⟨_, rest, same, _⟩ => ⟨rest, same⟩, fun ⟨rest, same⟩ => ⟨_, rest, same, rfl⟩⟩

theorem takePseudo_tightened
    {text : List Char}
    (unescaped : IsUnescaped text)
    (closed : ∀ mark rest, takePseudo text = .mark mark rest → mark.IsClosed) :
    takePseudo (tightened text) = (takePseudo text).tightened := by
  have parenthesis : IsLooseInSelector '(' := ⟨rfl, rfl, rfl⟩
  have inside : IsUnescaped (withoutColon text) := by
    refine unescaped.of_subset ?_
    fun_cases withoutColon text with
    | case1 rest => exact List.subset_cons_self ':' rest
    | case2 => exact List.Subset.refl text
  have named : takeName (withoutColon (tightened text)) =
      (takeName (withoutColon text)).map fun found => (found.1, tightened found.2) := by
    rw [withoutColon_tightened, takeName_tightened inside]
  have doubled : ((tightened text).head? == some ':') = (text.head? == some ':') := by
    rw [Bool.eq_iff_iff, beq_iff_eq, beq_iff_eq, head?_tightened_eq_colon_iff]
  fun_cases takePseudo text with
  | case1 c name inner found argument after taken =>
      have pseudo : takePseudo text =
          .mark (.functional (Text.lower (String.ofList (c :: name))) argument) after := by
        unfold takePseudo
        simp only [found, taken]
      have ends : argument.foldl nextQuote none = none := closed _ _ pseudo
      unfold takePseudo
      rw [named, found, Option.map_some, tightened_cons parenthesis]
      simp only [takeArgument_tightened taken ends]
      rfl
  | case2 c name inner found untaken =>
      unfold takePseudo
      rw [named, found, Option.map_some, tightened_cons parenthesis]
      simp only [takeArgument_tightened_eq_none untaken]
      rfl
  | case3 c name rest notArgument found =>
      unfold takePseudo
      rw [named, found, Option.map_some, doubled]
      split
      · next same =>
          obtain ⟨_, written⟩ := Prod.mk.inj (Option.some.inj same)
          obtain ⟨inner, rfl, _⟩ := (tightened_eq_cons_iff parenthesis).mp written
          exact absurd rfl (notArgument inner)
      · next same _ =>
          obtain ⟨names, rfl⟩ := Prod.mk.inj (Option.some.inj ‹some _ = some _›)
          obtain ⟨rfl, rfl⟩ := List.cons.inj names
          rfl
      · next other => exact absurd rfl (other c name _)
  | case4 notArgument none =>
      unfold takePseudo
      rw [named]
      cases found_eq : takeName (withoutColon text) with
      | none => rfl
      | some found =>
          obtain ⟨_ | ⟨c, name⟩, rest⟩ := found
          · rfl
          · exact absurd found_eq (none c name rest)

/-- The characters that a test starts with, apart from those of names. -/
def startsTest (c : Char) : Bool :=
  c == '*' || c == '#' || c == '.' || c == '[' || c == ':'

/-- A compound ends in front of any other character. -/
theorem takeTest_of_head
    {first : Bool}
    {text : List Char}
    (other : ∀ c ∈ text.head?, startsTest c = false ∧ (first && isNameChar c) = false) :
    takeTest first text = .stop := by
  cases text with
  | nil => rfl
  | cons c rest =>
      obtain ⟨noStart, unnamed⟩ := other c rfl
      simp only [startsTest, Bool.or_eq_false_iff, beq_eq_false_iff_ne] at noStart
      unfold takeTest
      split <;> simp_all

theorem takeTest_tightened
    {first : Bool}
    {text : List Char}
    (unescaped : IsUnescaped text)
    (closed : ∀ mark rest, takeTest first text = .mark mark rest → mark.IsClosed) :
    takeTest first (tightened text) = (takeTest first text).tightened := by
  have behind {c : Char} {rest : List Char} (subset : c :: rest ⊆ text) : IsUnescaped rest :=
    unescaped.of_subset (List.Subset.trans (List.subset_cons_self c rest) subset)
  fun_cases takeTest first text with
  | case1 rest =>
      rw [tightened_cons ⟨rfl, rfl, rfl⟩]
      rfl
  | case2 rest =>
      have unchanged (name : String) : (Mark.plain (.id name)).tightened = .plain (.id name) := rfl
      rw [tightened_cons ⟨rfl, rfl, rfl⟩]
      exact takeNamed_tightened unchanged (behind (List.Subset.refl _))
  | case3 rest =>
      have unchanged (name : String) :
          (Mark.plain (.className name)).tightened = .plain (.className name) := rfl
      rw [tightened_cons ⟨rfl, rfl, rfl⟩]
      exact takeNamed_tightened unchanged (behind (List.Subset.refl _))
  | case4 rest inner after taken read =>
      rw [tightened_cons ⟨rfl, rfl, rfl⟩]
      have same := isSome_readAttributeTest_tightenedInside (foldl_nextQuote_of_takeBracket taken)
      simp only [takeTest, takeBracket_tightened, taken, Option.map_some, same, read, if_true]
      rfl
  | case5 rest inner after taken unread =>
      rw [tightened_cons ⟨rfl, rfl, rfl⟩]
      have same := isSome_readAttributeTest_tightenedInside (foldl_nextQuote_of_takeBracket taken)
      simp only [takeTest, takeBracket_tightened, taken, Option.map_some, same, if_neg unread]
      rfl
  | case6 rest untaken =>
      rw [tightened_cons ⟨rfl, rfl, rfl⟩]
      simp only [takeTest, takeBracket_tightened, untaken, Option.map_none]
      rfl
  | case7 rest =>
      rw [tightened_cons ⟨rfl, rfl, rfl⟩]
      exact takePseudo_tightened (behind (List.Subset.refl _)) closed
  | case8 c rest star hash dot bracket colon named =>
      have isName : isNameChar c = true := (Bool.and_eq_true_iff.mp named).2
      have loose := isLoose_of_isNameChar (unescaped.blanks c List.mem_cons_self) isName
      have written := tightened_cons loose rest
      have again : takeTest first (c :: tightened rest) =
          takeNamed (fun name => .plain (.type (Text.lower name))) (c :: tightened rest) := by
        unfold takeTest
        split <;> simp_all
      rw [written, again, ← written]
      exact takeNamed_tightened (fun _ => rfl) unescaped
  | case9 c rest star hash dot bracket colon unnamed =>
      have noStart : startsTest c = false := by
        simp only [startsTest, Bool.or_eq_false_iff, beq_eq_false_iff_ne]
        exact ⟨⟨⟨⟨star, hash⟩, dot⟩, bracket⟩, colon⟩
      refine takeTest_of_head fun d found => ?_
      rcases head?_tightened found with same | ⟨_, rfl | tight⟩
      · obtain rfl := Option.some.inj same
        exact ⟨noStart, by simpa using unnamed⟩
      · exact ⟨by decide, by cases first <;> decide⟩
      · simp only [isTightInSelector, Bool.or_eq_true, beq_iff_eq] at tight
        rcases tight with ((rfl | rfl) | rfl) | rfl <;> exact ⟨by decide, by cases first <;> decide⟩
  | case10 => rfl

/-! ## Compounds -/

/-- Where the scan is outside strings at the end of each argument, the tests of a tightened
compound are the tightened tests. -/
theorem takeTests_tightened
    {first : Bool}
    {text : List Char}
    (unescaped : IsUnescaped text)
    (closed : ∀ mark ∈ (takeTests first text).1, mark.IsClosed) :
    takeTests first (tightened text) =
      ((takeTests first text).1.map Mark.tightened, (takeTests first text).2.map tightened) := by
  fun_induction takeTests first text with
  | case1 first text mark rest taken _ behind inductionHypothesis =>
      obtain ⟨markClosed, restClosed⟩ := List.forall_mem_cons.mp closed
      have again := takeTest_tightened unescaped fun other rest' same => by
        obtain ⟨rfl, rfl⟩ := Taking.mark.inj (taken.symm.trans same)
        exact markClosed
      rw [taken] at again
      rw [takeTests_of_mark again, inductionHypothesis
        (unescaped.of_subset (starts_of_takeTest unescaped.plain taken).2.suffix.subset) restClosed]
      rfl
  | case2 first text taken =>
      have again := takeTest_tightened unescaped fun mark rest same => by
        cases taken.symm.trans same
      rw [taken] at again
      rw [takeTests_of_stop again]
      rfl
  | case3 first text taken =>
      have again := takeTest_tightened unescaped fun mark rest same => by
        cases taken.symm.trans same
      rw [taken] at again
      rw [takeTests_of_failed again]
      rfl

end Css
end MailPress
