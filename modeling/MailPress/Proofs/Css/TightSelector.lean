import MailPress.Proofs.Css.TightContents

/-!
# What tightened selectors mean

The written form of a selector is read as the selector itself. Blanks are lost beside combinators,
where reading does not need them, and in arguments and brackets, where they do not matter; the
parts of a negation are tightened selectors again.

The reader ends an argument without regard to strings, and the scan does not. So the claim is about
selectors whose arguments hold no open string. A selector that can be decided on a document at rest
has no other arguments, so all that is inlined is written as it was read.
-/

namespace MailPress
namespace Css

/-! ## Words -/

section Words

variable {previous : Option Char} {pending : Bool} {text : List Char} {c : Char}
  {resolve : Mark → Option Simple}

/-- A written gap is one word. -/
theorem foldlM_selectorWords_gap
    (state : TightenState)
    (joining : Joining)
    (text : List Char) :
    (selectorWords (state.gap (keepsBeside isTightInSelector) c ++ text)).foldlM
        (Joining.takeWord resolve) joining =
      (selectorWords text).foldlM (Joining.takeWord resolve)
        { joining with spaced :=
            joining.spaced || (state.pending && keepsBeside isTightInSelector state.previous c) } := by
  unfold TightenState.gap
  cases state.pending && keepsBeside isTightInSelector state.previous c with
  | false => simp
  | true =>
      rw [if_pos rfl, List.singleton_append, selectorWords_of_isBlank Text.isBlank_space,
        List.foldlM_cons, Bool.or_true]
      rfl

/-- Two joinings differ at most in a blank that the scan holds back or that does not matter. -/
structure Joining.IsBehind (previous : Option Char) (pending : Bool) (written joining : Joining) :
    Prop where
  /-- The same was joined. -/
  left : written.left = joining.left
  /-- The same combinator waits. -/
  waiting : written.pending = joining.pending
  /-- Where blanks matter, they are written or held back. -/
  spaced (inside : joining.left ≠ none) (free : joining.pending = none) :
    previous.any isTightInSelector = false ∧ joining.spaced = (written.spaced || pending)

theorem Joining.isBehind_self (joining : Joining) : joining.IsBehind none false joining :=
  ⟨rfl, rfl, fun _ _ => ⟨rfl, (Bool.or_false _).symm⟩⟩

theorem Joining.IsBehind.finish_eq
    {written joining : Joining}
    (behind : written.IsBehind previous pending joining) :
    written.finish = joining.finish := by
  obtain ⟨left, waiting, spaced⟩ := written
  obtain ⟨left', waiting', spaced'⟩ := joining
  obtain ⟨rfl, rfl, _⟩ := behind
  cases waiting <;> rfl

/-- A sign of a combinator is tight, and no other character that a word starts with is. -/
theorem isTightInSelector_of_sign
    {sign : Combinator}
    (found : combinatorOfSign? c = some sign) :
    isTightInSelector c = true ∧ isQuote c = false := by
  unfold combinatorOfSign? at found
  split at found
  · next same => exact same ▸ ⟨rfl, rfl⟩
  · split at found
    · next same => exact same ▸ ⟨rfl, rfl⟩
    · split at found
      · next same => exact same ▸ ⟨rfl, rfl⟩
      · cases found

theorem isTightInSelector_of_mark
    (noSign : combinatorOfSign? c = none)
    {rest after : List Char}
    {mark : Mark}
    (taken : takeTest true (c :: rest) = .mark mark after) :
    isTightInSelector c = false := by
  by_contra tight
  simp only [Bool.not_eq_false, isTightInSelector, Bool.or_eq_true, beq_iff_eq] at tight
  rcases tight with ((rfl | rfl) | rfl) | rfl
  · cases noSign
  · cases noSign
  · cases noSign
  · rw [takeTest_of_head (by rintro _ ⟨⟩; exact ⟨rfl, rfl⟩)] at taken
    cases taken

/-- A compound is joined in the same way. -/
theorem Joining.IsBehind.takeWord_compound
    {written joining : Joining}
    (behind : written.IsBehind previous pending joining)
    (loose : isTightInSelector c = false)
    {marks tightMarks : List Mark}
    (same : tightMarks.filterMap resolve = marks.filterMap resolve) :
    Joining.takeWord resolve
        { written with spaced :=
            written.spaced || (pending && keepsBeside isTightInSelector previous c) }
        (.compound tightMarks) =
      joining.takeWord resolve (.compound marks) := by
  obtain ⟨left, waiting, spaced⟩ := written
  obtain ⟨left', waiting', spaced'⟩ := joining
  obtain ⟨rfl, rfl, blanks⟩ := behind
  cases left with
  | none => simp only [Joining.takeWord, same]
  | some left =>
      cases waiting with
      | some sign => simp only [Joining.takeWord, same]
      | none =>
          obtain ⟨notTight, spaced_eq⟩ := blanks (Option.some_ne_none left) rfl
          have kept : keepsBeside isTightInSelector previous c = true := by
            rw [keepsBeside, loose, notTight]
            rfl
          dsimp only at spaced_eq
          simp only [Joining.takeWord, same, kept, Bool.and_true, spaced_eq]

theorem filterMap_tightened
    {marks : List Mark}
    (same : ∀ mark ∈ marks, resolve mark.tightened = resolve mark) :
    (marks.map Mark.tightened).filterMap resolve = marks.filterMap resolve := by
  rw [List.filterMap_map]
  exact List.filterMap_congr same

theorem exists_tightened_eq_cons
    (nonblank : Text.isBlank c = false)
    (rest : List Char) :
    ∃ more, tightened (c :: rest) = c :: more :=
  ⟨_, squeezeFrom_cons_of_nonblank _ rfl nonblank rest⟩

/-- The first word of a tightened text that starts with a compound. -/
theorem selectorWords_tightened_of_mark
    {rest after : List Char}
    {mark : Mark}
    (unescaped : IsUnescaped (c :: rest))
    (nonblank : Text.isBlank c = false)
    (noSign : combinatorOfSign? c = none)
    (taken : takeTest true (c :: rest) = .mark mark after)
    (closed : ∀ other ∈ mark :: (takeTests false after).1, other.IsClosed) :
    selectorWords (tightened (c :: rest)) =
      .compound ((mark :: (takeTests false after).1).map Mark.tightened) ::
        (takeTests false after).2.elim [.bad] fun left => selectorWords (tightened left) := by
  obtain ⟨markClosed, othersClosed⟩ := List.forall_mem_cons.mp closed
  have again := takeTest_tightened unescaped fun other behind same => by
    obtain ⟨rfl, rfl⟩ := Taking.mark.inj (taken.symm.trans same)
    exact markClosed
  have suffix := (starts_of_takeTest unescaped.plain taken).2.suffix
  have tests := takeTests_tightened (unescaped.of_subset suffix.subset) othersClosed
  obtain ⟨more, starts⟩ := exists_tightened_eq_cons nonblank rest
  rw [taken, starts] at again
  rw [starts, selectorWords_of_mark nonblank noSign again, tests]
  cases (takeTests false after).2 <;> rfl

/-- Where resolving does not look at blanks, joining the words of a tightened text is joining those
of the text. -/
theorem foldlM_selectorWords_squeezeFrom
    (unescaped : IsUnescaped text)
    (agrees : ∀ marks, .compound marks ∈ selectorWords text →
      ∀ mark ∈ marks, mark.IsClosed ∧ resolve mark.tightened = resolve mark)
    {written joining : Joining}
    (behind : written.IsBehind previous pending joining) :
    ((selectorWords (squeezeFrom (keepsBeside isTightInSelector)
        ⟨none, previous, pending⟩ text)).foldlM (Joining.takeWord resolve) written).bind
          Joining.finish =
      ((selectorWords text).foldlM (Joining.takeWord resolve) joining).bind Joining.finish := by
  fun_induction selectorWords text generalizing previous pending written joining with
  | case1 =>
      simp only [squeezeFrom, selectorWords_nil]
      exact behind.finish_eq
  | case2 c rest blank inductionHypothesis =>
      rw [squeezeFrom, if_pos blank, List.foldlM_cons]
      refine inductionHypothesis (unescaped.of_subset (List.subset_cons_self c rest))
        (fun marks member => agrees marks (List.mem_cons_of_mem _ member))
        ⟨behind.left, behind.waiting, fun inside free => ⟨(behind.spaced inside free).1, ?_⟩⟩
      rw [Bool.or_true]
  | case3 c rest nonblank sign found inductionHypothesis =>
      rw [Bool.not_eq_true] at nonblank
      obtain ⟨tight, notQuote⟩ := isTightInSelector_of_sign found
      have fresh : Joining.IsBehind (some c) false ⟨joining.left, some sign, false⟩
          ⟨joining.left, some sign, false⟩ := ⟨rfl, rfl, by rintro _ ⟨⟩⟩
      have later := inductionHypothesis (unescaped.of_subset (List.subset_cons_self c rest))
        (fun marks member => agrees marks (List.mem_cons_of_mem _ member)) fresh
      rw [squeezeFrom_cons_of_nonblank _ rfl nonblank, foldlM_selectorWords_gap,
        selectorWords_of_sign nonblank found, List.foldlM_cons, List.foldlM_cons]
      simp only [Joining.takeWord, behind.left, behind.waiting, TightenState.after, nonblank,
        notQuote, Bool.false_eq_true, if_false]
      split
      · rfl
      · exact later
  | case4 c rest nonblank noSign mark after taken last =>
      rw [Bool.not_eq_true] at nonblank
      have here := agrees _ List.mem_cons_self
      rw [squeezeFrom_eq_gap_append _ _ nonblank, foldlM_selectorWords_gap,
        selectorWords_tightened_of_mark unescaped nonblank noSign taken
          fun other member => (here other member).1,
        List.foldlM_cons, List.foldlM_cons,
        behind.takeWord_compound (isTightInSelector_of_mark noSign taken)
          (filterMap_tightened fun other member => (here other member).2),
        last, Option.elim_none]
  | case5 c rest nonblank noSign mark after taken left last _ _ inductionHypothesis =>
      rw [Bool.not_eq_true] at nonblank
      have here := agrees _ List.mem_cons_self
      have afterSuffix := (starts_of_takeTest unescaped.plain taken).2.suffix
      have suffix := (suffix_of_takeTests (unescaped.of_subset afterSuffix.subset).plain
        last).trans afterSuffix
      rw [squeezeFrom_eq_gap_append _ _ nonblank, foldlM_selectorWords_gap,
        selectorWords_tightened_of_mark unescaped nonblank noSign taken
          fun other member => (here other member).1,
        List.foldlM_cons, List.foldlM_cons,
        behind.takeWord_compound (isTightInSelector_of_mark noSign taken)
          (filterMap_tightened fun other member => (here other member).2),
        last, Option.elim_some]
      cases joining.takeWord resolve (.compound (mark :: (takeTests false after).1)) with
      | none => rfl
      | some next =>
          exact inductionHypothesis (unescaped.of_subset suffix.subset)
            (fun marks member => agrees marks (List.mem_cons_of_mem _ member)) next.isBehind_self
  | case6 c rest nonblank noSign other =>
      rw [Bool.not_eq_true] at nonblank
      obtain ⟨more, starts⟩ := exists_tightened_eq_cons nonblank rest
      have untaken (mark : Mark) (left : List Char) : takeTest true (c :: more) ≠ .mark mark left := by
        rw [← starts, takeTest_tightened unescaped fun mark left same => absurd same (other mark left)]
        cases taken : takeTest true (c :: rest) with
        | mark mark left => exact absurd taken (other mark left)
        | stop => rintro ⟨⟩
        | failed => rintro ⟨⟩
      rw [squeezeFrom_eq_gap_append _ _ nonblank, foldlM_selectorWords_gap, starts,
        selectorWords_of_not_mark nonblank noSign untaken]
      rfl

end Words

/-! ## Reading tightened selectors -/

theorem readSelector_trim (text : List Char) :
    readSelector (Text.trim text) = readSelector text := by
  rw [readSelector_eq_joinWords, readSelector_eq_joinWords, Text.trim_trim]

/-- A formula is read without regard to blanks. -/
theorem Nth.read_of_respaced
    {argument written : List Char}
    (respaced : Respaced argument written) :
    Nth.read written = Nth.read argument := by
  simp only [Nth.read, respaced.filter_eq]

/-- A test is what it was if brackets and the parts of a negation are. -/
theorem resolve_tightened
    {mark : Mark}
    (closed : mark.IsClosed)
    (bracket : ∀ inner, mark = .bracketed inner →
      readAttributeTest (tightenedInside inner) = readAttributeTest inner)
    (parts : ∀ argument, mark = .functional "not" argument →
      (cutAtTopLevel ',' (tightenedInside argument)).mapM readSelector =
        (cutAtTopLevel ',' argument).mapM readSelector) :
    mark.tightened.resolve = mark.resolve := by
  cases mark with
  | universal => rfl
  | plain test => rfl
  | bracketed inner => simp only [Mark.tightened, Mark.resolve, bracket inner rfl]
  | functional name argument =>
      have formula := Nth.read_of_respaced (respaced_tightenedInside closed)
      simp only [Mark.tightened, Mark.resolve, positional, formula]
      split
      · rfl
      · rfl
      · rfl
      · rfl
      · next => rw [parts argument rfl]
      · rfl

/-- The reader meets a test in a text, at any depth of negations. -/
inductive Meets : List Char → Mark → Prop
  /-- The test stands in the text. -/
  | here {text : List Char} {marks : List Mark} {mark : Mark}
      (compound : .compound marks ∈ selectorWords (Text.trim text)) (member : mark ∈ marks) :
      Meets text mark
  /-- The test stands in a part of the argument of a negation. -/
  | nested {text argument part : List Char} {marks : List Mark} {mark : Mark}
      (compound : .compound marks ∈ selectorWords (Text.trim text))
      (negation : .functional "not" argument ∈ marks) (inside : part ∈ cutAtTopLevel ',' argument)
      (meets : Meets part mark) : Meets text mark

theorem meets_iff {text : List Char} {mark : Mark} :
    Meets text mark ↔ ∃ marks, .compound marks ∈ selectorWords (Text.trim text) ∧
      (mark ∈ marks ∨ ∃ argument, .functional "not" argument ∈ marks ∧
        ∃ part ∈ cutAtTopLevel ',' argument, Meets part mark) := by
  constructor
  · rintro (⟨compound, member⟩ | ⟨compound, negation, inside, meets⟩)
    · exact ⟨_, compound, .inl member⟩
    · exact ⟨_, compound, .inr ⟨_, negation, _, inside, meets⟩⟩
  · rintro ⟨marks, compound, member | ⟨argument, negation, part, inside, meets⟩⟩
    · exact .here compound member
    · exact .nested compound negation inside meets

/-- All that a part of an argument holds stands in the text. -/
theorem subset_of_mem_cutAtTopLevel
    {separator : Char}
    {text part : List Char}
    (member : part ∈ cutAtTopLevel separator text) :
    part ⊆ text := by
  have inJoined {parts : List (List Char)} (member : part ∈ parts) :
      part ⊆ List.intercalate [separator] parts := by
    induction parts with
    | nil => cases member
    | cons first others inductionHypothesis =>
        cases others with
        | nil =>
            rw [List.intercalate_singleton, List.mem_singleton.mp member]
            exact List.Subset.refl first
        | cons next others =>
            rw [List.intercalate_cons_cons, List.append_assoc]
            rcases List.mem_cons.mp member with rfl | later
            · exact List.subset_append_left part _
            · exact List.Subset.trans (inductionHypothesis later)
                (List.Subset.trans (List.subset_append_right _ _) (List.subset_append_right _ _))
  have joined := inJoined member
  rwa [cutAtTopLevel, intercalate_cutFrom] at joined

/-- What a test holds stands in the text. The strings of a bracket end in it. -/
theorem of_mem_selectorWords
    {text : List Char}
    (plain : '\\' ∉ text)
    {marks : List Mark}
    (compound : .compound marks ∈ selectorWords (Text.trim text))
    {mark : Mark}
    (member : mark ∈ marks) :
    mark.delimited <:+: text ∧
      ∀ inner, mark = .bracketed inner → inner.foldl nextQuote none = none := by
  have plainTrim : '\\' ∉ Text.trim text := fun inside =>
    plain ((Text.trim_infix text).subset inside)
  obtain ⟨start, behind, rest, suffix, taken⟩ :=
    exists_of_mem_selectorWords plainTrim compound member
  obtain ⟨closed, front, rfl, _⟩ :=
    starts_of_takeTest (fun inside => plainTrim (suffix.subset inside)) taken
  have inBehind : mark.delimited <:+: front ++ (mark.delimited ++ rest) :=
    ⟨front, rest, List.append_assoc ..⟩
  exact ⟨inBehind.trans (suffix.isInfix.trans (Text.trim_infix text)), closed⟩

/-- The parts of an argument are shorter than the text and stand in it. -/
theorem of_mem_argument
    {text : List Char}
    (plain : '\\' ∉ text)
    {marks : List Mark}
    (compound : .compound marks ∈ selectorWords (Text.trim text))
    {name : String}
    {argument part : List Char}
    (member : .functional name argument ∈ marks)
    (inside : part ∈ cutAtTopLevel ',' argument) :
    part ⊆ text ∧ part.length < text.length := by
  have inText := (of_mem_selectorWords plain compound member).1
  have subset : argument ⊆ text := fun c inArgument =>
    inText.subset (by simp [Mark.delimited, inArgument])
  refine ⟨List.Subset.trans (subset_of_mem_cutAtTopLevel inside) subset, ?_⟩
  have partLength := length_le_of_mem_cutFrom inside
  have lengths := inText.length_le
  simp only [Mark.delimited, List.length_cons, List.length_append] at lengths
  omega

theorem mapM_congr
    {parts : List (List Char)}
    {first second : List Char → Option Selector}
    (same : ∀ part ∈ parts, first part = second part) :
    parts.mapM first = parts.mapM second := by
  induction parts with
  | nil => rfl
  | cons part parts inductionHypothesis =>
      obtain ⟨here, others⟩ := List.forall_mem_cons.mp same
      rw [List.mapM_cons, List.mapM_cons, here, inductionHypothesis others]

/-- The tightened text of a selector is read as the selector, if no argument that the reader meets
has an open string. -/
theorem readSelector_squeeze
    {text : List Char}
    (unescaped : IsUnescaped text)
    (brackets : ∀ inner, Meets text (.bracketed inner) → IsAttributeText inner)
    (closed : ∀ name argument, Meets text (.functional name argument) →
      argument.foldl nextQuote none = none) :
    readSelector (squeeze (keepsBeside isTightInSelector) text) = readSelector text := by
  induction bound : text.length using Nat.strong_induction_on generalizing text with
  | _ bound inductionHypothesis =>
      subst bound
      have tightens : IsTightened text (squeeze (keepsBeside isTightInSelector) text) :=
        isTightened_squeeze (by decide) text
      have unescapedTrim := unescaped.of_subset (Text.trim_infix text).subset
      rw [readSelector_eq_joinWords, readSelector_eq_joinWords, tightens.trim_eq]
      refine foldlM_selectorWords_squeezeFrom unescapedTrim ?_ (Joining.isBehind_self _)
      intro marks compound mark member
      obtain ⟨inText, ends⟩ := of_mem_selectorWords unescaped.plain compound member
      have markClosed : mark.IsClosed := by
        cases mark with
        | functional name argument => exact closed name argument (.here compound member)
        | _ => trivial
      refine ⟨markClosed, resolve_tightened markClosed ?_ ?_⟩
      · rintro inner rfl
        have subset : inner ⊆ text := fun c inside =>
          inText.subset (by simp [Mark.delimited, inside])
        exact readAttributeTest_tightenedInside (unescaped.of_subset subset).blanks
          (ends inner rfl) (brackets inner (.here compound member))
      · rintro argument rfl
        have subset : argument ⊆ text := fun c inside =>
          inText.subset (by simp [Mark.delimited, inside])
        have parts : ∀ part ∈ cutAtTopLevel ',' argument,
            readSelector (squeeze (keepsBeside isTightInSelector) part) = readSelector part := by
          intro part inside
          obtain ⟨partSubset, shorter⟩ :=
            of_mem_argument unescaped.plain compound member inside
          exact inductionHypothesis part.length shorter (unescaped.of_subset partSubset)
            (fun inner meets => brackets inner (.nested compound member inside meets))
            (fun name inner meets => closed name inner (.nested compound member inside meets)) rfl
        have plainArgument : '\\' ∉ argument := fun inside => unescaped.plain (subset inside)
        calc
          (cutAtTopLevel ',' (tightenedInside argument)).mapM readSelector =
              ((cutAtTopLevel ',' (tightenedInside argument)).map Text.trim).mapM readSelector := by
            rw [List.mapM_map]
            exact mapM_congr fun part _ => (readSelector_trim part).symm
          _ = (cutAtTopLevel ',' argument).mapM
              (readSelector ∘ squeeze (keepsBeside isTightInSelector)) := by
            rw [map_trim_cutAtTopLevel plainArgument, List.mapM_map]
          _ = (cutAtTopLevel ',' argument).mapM readSelector := mapM_congr parts

/-! ## Selectors that can be decided at rest -/

theorem testsStatic_iff {tests : List Simple} :
    testsStatic tests = true ↔ ∀ test ∈ tests, test.isStatic = true := by
  induction tests with
  | nil => simp [testsStatic]
  | cons test tests inductionHypothesis => simp [testsStatic, inductionHypothesis]

theorem allStatic_iff {selectors : List Selector} :
    allStatic selectors = true ↔ ∀ selector ∈ selectors, selector.isStatic = true := by
  induction selectors with
  | nil => simp [allStatic]
  | cons selector selectors inductionHypothesis => simp [allStatic, inductionHypothesis]

/-- A compound is joined to a selector that is static only if both sides are. -/
theorem exists_of_takeWord_compound
    {resolve : Mark → Option Simple}
    {joining next : Joining}
    {marks : List Mark}
    (taken : joining.takeWord resolve (.compound marks) = some next) :
    ∃ selector, next.left = some selector ∧
      (selector.isStatic = true → testsStatic (marks.filterMap resolve) = true ∧
        ∀ left, joining.left = some left → left.isStatic = true) := by
  have combined (left : Selector) (sign : Combinator) :
      (Selector.combined left sign (marks.filterMap resolve)).isStatic = true →
        testsStatic (marks.filterMap resolve) = true ∧
          ∀ other, some left = some other → other.isStatic = true := by
    rw [Selector.isStatic, Bool.and_eq_true]
    rintro ⟨leftStatic, testsAreStatic⟩
    refine ⟨testsAreStatic, ?_⟩
    rintro _ ⟨⟩
    exact leftStatic
  obtain ⟨_ | left, _ | sign, spaced⟩ := joining
  · cases taken
    exact ⟨_, rfl, fun static => ⟨static, by rintro _ ⟨⟩⟩⟩
  · cases taken
    exact ⟨_, rfl, fun static => ⟨static, by rintro _ ⟨⟩⟩⟩
  · cases spaced
    · cases taken
    · cases taken
      exact ⟨_, rfl, combined left .descendant⟩
  · cases taken
    exact ⟨_, rfl, combined left sign⟩

/-- Words that are joined to a static selector are understood, and their tests are static. -/
theorem static_of_foldlM_takeWord
    {resolve : Mark → Option Simple}
    {words : List Word}
    {joining : Joining}
    {selector : Selector}
    (joined : (words.foldlM (Joining.takeWord resolve) joining).bind Joining.finish = some selector)
    (static : selector.isStatic = true) :
    (∀ left, joining.left = some left → left.isStatic = true) ∧ .bad ∉ words ∧
      ∀ marks, .compound marks ∈ words → testsStatic (marks.filterMap resolve) = true := by
  induction words generalizing joining with
  | nil =>
      obtain ⟨left, _ | sign, spaced⟩ := joining
      · obtain rfl : left = some selector := joined
        refine ⟨?_, List.not_mem_nil, fun _ member => absurd member List.not_mem_nil⟩
        rintro _ ⟨⟩
        exact static
      · cases joined
  | cons word words inductionHypothesis =>
      rw [List.foldlM_cons] at joined
      cases taken : joining.takeWord resolve word with
      | none =>
          rw [taken] at joined
          cases joined
      | some next =>
          rw [taken] at joined
          obtain ⟨leftStatic, understood, testsAreStatic⟩ := inductionHypothesis joined
          cases word with
          | gap =>
              cases taken
              exact ⟨leftStatic, by simpa using understood, by simpa using testsAreStatic⟩
          | combinator sign =>
              rw [Joining.takeWord] at taken
              split at taken
              · cases taken
              · cases taken
                exact ⟨leftStatic, by simpa using understood, by simpa using testsAreStatic⟩
          | bad => cases taken
          | compound marks =>
              obtain ⟨built, left_eq, parts⟩ := exists_of_takeWord_compound taken
              obtain ⟨here, before⟩ := parts (leftStatic built left_eq)
              refine ⟨before, by simpa using understood, fun others member => ?_⟩
              rcases List.mem_cons.mp member with same | later
              · rw [Word.compound.inj same]
                exact here
              · exact testsAreStatic others later

/-! ### Open strings -/

theorem isQuote_of_isAsciiDigit {c : Char} (digit : Text.isAsciiDigit c = true) :
    isQuote c = false :=
  isQuote_of_test digit (by decide)

/-- A formula has no quotes in it. -/
theorem Nth.isQuote_of_readInteger
    {text : List Char}
    {value : Int}
    (read : readInteger text = some value) :
    ∀ c ∈ text, isQuote c = false := by
  have ofDigits {digits : List Char} {sign : Int}
      (read : (if digits.isEmpty || !digits.all Text.isAsciiDigit then none
        else
          let value := sign * (Text.decimalValue digits : Int)
          if -0x80000000 ≤ value && value < 0x80000000 then some value else none) = some value) :
      ∀ c ∈ digits, isQuote c = false := by
    split at read
    · cases read
    · next areDigits =>
        simp only [Bool.or_eq_true, Bool.not_eq_true', not_or, Bool.not_eq_false] at areDigits
        exact fun c member => isQuote_of_isAsciiDigit (List.all_eq_true.mp areDigits.2 c member)
  unfold readInteger at read
  split at read
  next sign digits parts =>
    split at parts
    · cases parts
      exact List.forall_mem_cons.mpr ⟨rfl, ofDigits read⟩
    · cases parts
      exact List.forall_mem_cons.mpr ⟨rfl, ofDigits read⟩
    · cases parts
      exact ofDigits read

theorem Nth.isQuote_of_readStep
    {text : List Char}
    {step : Int}
    (read : readStep text = some step) :
    ∀ c ∈ text, isQuote c = false := by
  unfold readStep at read
  split at read
  · next plain =>
      rw [Bool.or_eq_true, decide_eq_true_eq, decide_eq_true_eq] at plain
      rcases plain with rfl | rfl
      · exact List.forall_mem_nil _
      · exact List.forall_mem_singleton.mpr rfl
  · split at read
    · next minus =>
        rw [minus]
        exact List.forall_mem_singleton.mpr rfl
    · exact isQuote_of_readInteger read

theorem Nth.isQuote_of_readOffset
    {text : List Char}
    {offset : Int}
    (read : readOffset text = some offset) :
    ∀ c ∈ text, isQuote c = false := by
  unfold readOffset at read
  split at read
  · exact List.forall_mem_nil _
  · split at read
    · exact isQuote_of_readInteger read
    · cases read

theorem Nth.isQuote_of_read
    {argument : List Char}
    {nth : Nth}
    (read : Nth.read argument = some nth) :
    ∀ c ∈ argument, isQuote c = false := by
  have unquoted : ∀ c ∈ (argument.filter (!Text.isBlank ·)).map Text.lowerChar,
      isQuote c = false := by
    unfold Nth.read at read
    generalize (argument.filter (!Text.isBlank ·)).map Text.lowerChar = text at read
    dsimp only at read
    split at read
    · next same =>
        rw [same]
        simp [isQuote]
    · split at read
      · next same =>
          rw [same]
          simp [isQuote]
      · split at read
        · obtain ⟨offset, found, _⟩ := Option.map_eq_some_iff.mp read
          exact isQuote_of_readInteger found
        · next before after split_eq =>
            rw [Text.eq_append_of_splitOnce split_eq]
            split at read
            · next stepRead offsetRead =>
                exact List.forall_mem_append.mpr ⟨isQuote_of_readStep stepRead,
                  List.forall_mem_cons.mpr ⟨rfl, isQuote_of_readOffset offsetRead⟩⟩
            · cases read
  intro c member
  by_contra quoted
  rw [Bool.not_eq_false] at quoted
  have kept : Text.lowerChar c = c := by
    simp only [isQuote, Bool.or_eq_true, beq_iff_eq] at quoted
    rcases quoted with rfl | rfl <;> rfl
  have inText : c ∈ (argument.filter (!Text.isBlank ·)).map Text.lowerChar :=
    List.mem_map.mpr ⟨c, List.mem_filter.mpr ⟨member, by simp [isBlank_of_isQuote quoted]⟩, kept⟩
  exact Bool.false_ne_true ((unquoted c inText).symm.trans quoted)

/-- A text goes on outside strings behind a test whose argument has no open string. -/
theorem Mark.Starts.foldl_nextQuote
    {mark : Mark}
    {text rest : List Char}
    (starts : mark.Starts text rest)
    (closed : mark.IsClosed)
    (bracket : ∀ inner, mark = .bracketed inner → inner.foldl nextQuote none = none) :
    text.foldl nextQuote none = rest.foldl nextQuote none := by
  obtain ⟨front, rfl, unquoted⟩ := starts
  have inside : mark.delimited.foldl nextQuote none = none := by
    cases mark with
    | universal => rfl
    | plain test => rfl
    | bracketed inner =>
        rw [delimited, List.foldl_cons, List.foldl_append]
        exact congrArg (List.foldl nextQuote · [']']) (bracket inner rfl)
    | functional name argument =>
        rw [delimited, List.foldl_cons, List.foldl_append]
        exact congrArg (List.foldl nextQuote · [')']) closed
  rw [List.foldl_append, List.foldl_append, foldl_nextQuote_of_forall unquoted, inside]

theorem foldl_nextQuote_of_takeTests
    {first : Bool}
    {text left : List Char}
    (plain : '\\' ∉ text)
    (taken : (takeTests first text).2 = some left)
    (closed : ∀ mark ∈ (takeTests first text).1, mark.IsClosed) :
    text.foldl nextQuote none = left.foldl nextQuote none := by
  fun_induction takeTests first text with
  | case1 first text mark rest found _ behind inductionHypothesis =>
      obtain ⟨markClosed, othersClosed⟩ := List.forall_mem_cons.mp closed
      obtain ⟨bracket, starts⟩ := starts_of_takeTest plain found
      rw [starts.foldl_nextQuote markClosed bracket, inductionHypothesis
        (fun member => plain (starts.suffix.subset member)) taken othersClosed]
  | case2 => rw [Option.some.inj taken]
  | case3 => cases taken

/-- All strings of a selector that is understood end in it, if those of its arguments do. -/
theorem foldl_nextQuote_of_selectorWords
    {text : List Char}
    (plain : '\\' ∉ text)
    (understood : .bad ∉ selectorWords text)
    (closed : ∀ marks, .compound marks ∈ selectorWords text → ∀ mark ∈ marks, mark.IsClosed) :
    text.foldl nextQuote none = none := by
  fun_induction selectorWords text with
  | case1 => rfl
  | case2 c rest blank inductionHypothesis =>
      rw [List.foldl_cons, nextQuote, isQuote_of_isBlank blank]
      exact inductionHypothesis (List.ne_and_not_mem_of_not_mem_cons plain).2
        (List.ne_and_not_mem_of_not_mem_cons understood).2
        fun marks member => closed marks (List.mem_cons_of_mem _ member)
  | case3 c rest nonblank sign found inductionHypothesis =>
      rw [List.foldl_cons, nextQuote, (isTightInSelector_of_sign found).2]
      exact inductionHypothesis (List.ne_and_not_mem_of_not_mem_cons plain).2
        (List.ne_and_not_mem_of_not_mem_cons understood).2
        fun marks member => closed marks (List.mem_cons_of_mem _ member)
  | case4 => simp at understood
  | case5 c rest nonblank noSign mark after taken left behind _ _ inductionHypothesis =>
      obtain ⟨markClosed, othersClosed⟩ := List.forall_mem_cons.mp (closed _ List.mem_cons_self)
      obtain ⟨bracket, starts⟩ := starts_of_takeTest plain taken
      have plainAfter : '\\' ∉ after := fun member => plain (starts.suffix.subset member)
      have suffix := suffix_of_takeTests plainAfter behind
      rw [starts.foldl_nextQuote markClosed bracket,
        foldl_nextQuote_of_takeTests plainAfter behind othersClosed]
      exact inductionHypothesis (fun member => plainAfter (suffix.subset member))
        (List.ne_and_not_mem_of_not_mem_cons understood).2
        fun marks member => closed marks (List.mem_cons_of_mem _ member)
  | case6 => simp at understood

/-- All strings of a list end in it, if those of its parts do. -/
theorem foldl_nextQuote_of_parts
    {text : List Char}
    (closed : ∀ part ∈ cutAtTopLevel ',' text, part.foldl nextQuote none = none) :
    text.foldl nextQuote none = none := by
  have joined {parts : List (List Char)}
      (closed : ∀ part ∈ parts, part.foldl nextQuote none = none) :
      (List.intercalate [','] parts).foldl nextQuote none = none := by
    induction parts with
    | nil => rfl
    | cons part parts inductionHypothesis =>
        obtain ⟨here, others⟩ := List.forall_mem_cons.mp closed
        cases parts with
        | nil =>
            rw [List.intercalate_singleton]
            exact here
        | cons next parts =>
            rw [List.intercalate_cons_cons, List.foldl_append, List.foldl_append, here]
            exact inductionHypothesis others
  have whole := joined closed
  rwa [cutAtTopLevel, intercalate_cutFrom] at whole

theorem foldl_nextQuote_of_positional
    {make : Nth → Simple}
    {argument : List Char}
    (static : (positional make argument).isStatic = true) :
    argument.foldl nextQuote none = none := by
  cases read : Nth.read argument with
  | none =>
      rw [positional, read] at static
      cases static
  | some nth => exact foldl_nextQuote_of_forall (Nth.isQuote_of_read read)

theorem exists_of_mapM_eq_some
    {parts : List (List Char)}
    {selectors : List Selector}
    (read : parts.mapM readSelector = some selectors)
    {part : List Char}
    (member : part ∈ parts) :
    ∃ selector, readSelector part = some selector ∧ selector ∈ selectors := by
  induction parts generalizing selectors with
  | nil => cases member
  | cons first others inductionHypothesis =>
      rw [List.mapM_cons] at read
      obtain ⟨selector, firstRead, rest⟩ := Option.bind_eq_some_iff.mp read
      obtain ⟨more, othersRead, same⟩ := Option.bind_eq_some_iff.mp rest
      obtain rfl : selector :: more = selectors := Option.some.inj same
      rcases List.mem_cons.mp member with rfl | later
      · exact ⟨selector, firstRead, List.mem_cons_self⟩
      · obtain ⟨found, partRead, among⟩ := inductionHypothesis othersRead later
        exact ⟨found, partRead, List.mem_cons_of_mem selector among⟩

/-- A static selector has no open string, and neither has any argument in it. -/
theorem closed_of_isStatic
    {text : List Char}
    (plain : '\\' ∉ text)
    {selector : Selector}
    (read : readSelector text = some selector)
    (static : selector.isStatic = true) :
    text.foldl nextQuote none = none ∧
      ∀ name argument, Meets text (.functional name argument) →
        argument.foldl nextQuote none = none := by
  induction bound : text.length using Nat.strong_induction_on generalizing text selector with
  | _ bound inductionHypothesis =>
      subst bound
      rw [readSelector_eq_joinWords] at read
      obtain ⟨_, understood, testsAreStatic⟩ := static_of_foldlM_takeWord read static
      have plainTrim : '\\' ∉ Text.trim text := fun member =>
        plain ((Text.trim_infix text).subset member)
      have isStatic {marks : List Mark} {name : String} {argument : List Char}
          (compound : .compound marks ∈ selectorWords (Text.trim text))
          (member : .functional name argument ∈ marks) {test : Simple}
          (resolved : Mark.resolve (.functional name argument) = some test) :
          test.isStatic = true :=
        testsStatic_iff.mp (testsAreStatic marks compound) test
          (List.mem_filterMap.mpr ⟨_, member, resolved⟩)
      have parts {marks : List Mark} {argument : List Char}
          (compound : .compound marks ∈ selectorWords (Text.trim text))
          (member : .functional "not" argument ∈ marks) :
          ∀ part ∈ cutAtTopLevel ',' argument, part.foldl nextQuote none = none ∧
            ∀ name inner, Meets part (.functional name inner) →
              inner.foldl nextQuote none = none := by
        intro part inside
        obtain ⟨subset, shorter⟩ := of_mem_argument plain compound member inside
        have negation := isStatic compound member rfl
        cases selectors_eq : (cutAtTopLevel ',' argument).mapM readSelector with
        | none =>
            simp only [selectors_eq] at negation
            cases negation
        | some selectors =>
            simp only [selectors_eq] at negation
            obtain ⟨selector, partRead, among⟩ := exists_of_mapM_eq_some selectors_eq inside
            exact inductionHypothesis part.length shorter (fun member => plain (subset member))
              partRead (allStatic_iff.mp negation selector among) rfl
      have here {marks : List Mark} {name : String} {argument : List Char}
          (compound : .compound marks ∈ selectorWords (Text.trim text))
          (member : .functional name argument ∈ marks) :
          argument.foldl nextQuote none = none := by
        have static := isStatic compound member rfl
        split at static
        · exact foldl_nextQuote_of_positional static
        · exact foldl_nextQuote_of_positional static
        · exact foldl_nextQuote_of_positional static
        · exact foldl_nextQuote_of_positional static
        · exact foldl_nextQuote_of_parts fun part inside => (parts compound member part inside).1
        · cases static
      have closed : ∀ marks, .compound marks ∈ selectorWords (Text.trim text) →
          ∀ mark ∈ marks, mark.IsClosed := by
        intro marks compound mark member
        cases mark with
        | functional name argument => exact here compound member
        | _ => trivial
      refine ⟨?_, fun name argument meets => ?_⟩
      · rw [← (Respaced.trim text).foldl_nextQuote_eq]
        exact foldl_nextQuote_of_selectorWords plainTrim understood closed
      · cases meets with
        | here compound member => exact here compound member
        | nested compound negation inside meets =>
            exact (parts compound negation _ inside).2 name argument meets

/-! ## Written selectors -/

/-- The written form of a selector whose brackets are written as they should be is read as the
selector, if no argument that the reader meets has an open string. A selector that can be decided
on a document at rest is read from its written form in any case. -/
theorem read_minifySelector_eq
    {text : String}
    (unescaped : IsUnescaped text.toList)
    (brackets : ∀ inner, Meets text.toList (.bracketed inner) → IsAttributeText inner) :
    ((∀ name argument, Meets text.toList (.functional name argument) →
        argument.foldl nextQuote none = none) →
      Selector.read (minifySelector text) = Selector.read text) ∧
      ∀ selector, Selector.read text = some selector → selector.isStatic = true →
        Selector.read (minifySelector text) = some selector := by
  have same (closed : ∀ name argument, Meets text.toList (.functional name argument) →
      argument.foldl nextQuote none = none) :
      Selector.read (minifySelector text) = Selector.read text := by
    rw [Selector.read, toList_minifySelector]
    exact readSelector_squeeze unescaped brackets closed
  refine ⟨same, fun selector read static => ?_⟩
  rw [same (closed_of_isStatic unescaped.plain read static).2, read]

/-- A child with an attribute of two words that is no link and has no class. -/
theorem read_minifySelector_eq_negation :
    IsUnescaped "p  >  [b = 'c  d']:not( .e , f )".toList ∧
      (∀ inner, Meets "p  >  [b = 'c  d']:not( .e , f )".toList (.bracketed inner) →
        IsAttributeText inner) ∧
        minifySelector "p  >  [b = 'c  d']:not( .e , f )" = "p>[b = 'c  d']:not( .e,f )" ∧
          Selector.read (minifySelector "p  >  [b = 'c  d']:not( .e , f )") =
            Selector.read "p  >  [b = 'c  d']:not( .e , f )" := by
  -- what the reader meets, in the parts of the negation and in the whole
  have firstWords : selectorWords (Text.trim [' ', '.', 'e', ' ']) =
      [.compound [.plain (.className "e")]] := by with_unfolding_all rfl
  have secondWords : selectorWords (Text.trim [' ', 'f', ' ']) =
      [.compound [.plain (.type "f")]] := by with_unfolding_all rfl
  have words : selectorWords (Text.trim "p  >  [b = 'c  d']:not( .e , f )".toList) =
      [.compound [.plain (.type "p")], .gap, .gap, .combinator .child, .gap, .gap,
        .compound [.bracketed ['b', ' ', '=', ' ', '\'', 'c', ' ', ' ', 'd', '\''],
          .functional "not" [' ', '.', 'e', ' ', ',', ' ', 'f', ' ']]] := by
    with_unfolding_all rfl
  have parts : cutAtTopLevel ',' [' ', '.', 'e', ' ', ',', ' ', 'f', ' '] =
      [[' ', '.', 'e', ' '], [' ', 'f', ' ']] := by decide
  have first (mark : Mark) : Meets [' ', '.', 'e', ' '] mark ↔ mark = .plain (.className "e") := by
    rw [meets_iff, firstWords]
    simp
  have second (mark : Mark) : Meets [' ', 'f', ' '] mark ↔ mark = .plain (.type "f") := by
    rw [meets_iff, secondWords]
    simp
  have met {mark : Mark} (meets : Meets "p  >  [b = 'c  d']:not( .e , f )".toList mark) :
      mark = .bracketed ['b', ' ', '=', ' ', '\'', 'c', ' ', ' ', 'd', '\''] ∨
        mark = .functional "not" [' ', '.', 'e', ' ', ',', ' ', 'f', ' '] ∨
          ∃ test, mark = .plain test := by
    rw [meets_iff, words] at meets
    simp only [List.mem_cons, Word.compound.injEq, reduceCtorEq, List.not_mem_nil, or_false,
      false_or, exists_eq_or_imp, exists_eq_left, or_self, false_and, exists_false,
      Mark.functional.injEq, true_and, parts, first, second] at meets
    rcases meets with same | found | same | same
    · exact .inr (.inr ⟨_, same⟩)
    · exact found.imp_right .inl
    · exact .inr (.inr ⟨_, same⟩)
    · exact .inr (.inr ⟨_, same⟩)
  have unescaped : IsUnescaped "p  >  [b = 'c  d']:not( .e , f )".toList := by decide
  have brackets : ∀ inner, Meets "p  >  [b = 'c  d']:not( .e , f )".toList (.bracketed inner) →
      IsAttributeText inner := by
    intro inner meets
    rcases met meets with ⟨⟨⟩⟩ | ⟨⟨⟩⟩ | ⟨_, ⟨⟩⟩
    have value : IsAttributeValue ('\'' :: (['c', ' ', ' ', 'd'] ++ ['\''])) :=
      .quoted rfl (by decide) (by decide)
    have test : IsAttributeText (['b', ' '] ++ (['='] ++ [' ', '\'', 'c', ' ', ' ', 'd', '\''])) :=
      .test (List.all_eq_true.mp (by decide)) (List.mem_of_getLast? rfl) value
    exact test
  have closed : ∀ name argument,
      Meets "p  >  [b = 'c  d']:not( .e , f )".toList (.functional name argument) →
        argument.foldl nextQuote none = none := by
    intro name argument meets
    rcases met meets with ⟨⟨⟩⟩ | ⟨⟨⟩⟩ | ⟨_, ⟨⟩⟩
    decide
  exact ⟨unescaped, brackets, by decide, (read_minifySelector_eq unescaped brackets).1 closed⟩

/-- The quotes of two arguments are taken for those of a string, and the string between them for
text in which blanks do not matter. -/
theorem open_string_in_argument_misread :
    IsUnescaped ":foo(\") [a=\"b  c\"]:bar(\")".toList ∧
      (∀ inner, Meets ":foo(\") [a=\"b  c\"]:bar(\")".toList (.bracketed inner) →
        IsAttributeText inner) ∧
        minifySelector ":foo(\") [a=\"b  c\"]:bar(\")" = ":foo(\") [a=\"b c\"]:bar(\")" ∧
          Selector.read (minifySelector ":foo(\") [a=\"b  c\"]:bar(\")") ≠
            Selector.read ":foo(\") [a=\"b  c\"]:bar(\")" := by
  have words : selectorWords (Text.trim ":foo(\") [a=\"b  c\"]:bar(\")".toList) =
      [.compound [.functional "foo" ['"']], .gap,
        .compound [.bracketed ['a', '=', '"', 'b', ' ', ' ', 'c', '"'],
          .functional "bar" ['"']]] := by
    with_unfolding_all rfl
  have writtenWords : selectorWords (Text.trim ":foo(\") [a=\"b c\"]:bar(\")".toList) =
      [.compound [.functional "foo" ['"']], .gap,
        .compound [.bracketed ['a', '=', '"', 'b', ' ', 'c', '"'], .functional "bar" ['"']]] := by
    with_unfolding_all rfl
  have written : minifySelector ":foo(\") [a=\"b  c\"]:bar(\")" =
      ":foo(\") [a=\"b c\"]:bar(\")" := by decide
  have brackets : ∀ inner, Meets ":foo(\") [a=\"b  c\"]:bar(\")".toList (.bracketed inner) →
      IsAttributeText inner := by
    intro inner meets
    rw [meets_iff, words] at meets
    simp only [List.mem_cons, Word.compound.injEq, reduceCtorEq, List.not_mem_nil, or_false,
      false_or, exists_eq_or_imp, exists_eq_left, or_self, false_and, exists_false,
      Mark.functional.injEq, Mark.bracketed.injEq, String.reduceEq] at meets
    subst meets
    have value : IsAttributeValue ('"' :: (['b', ' ', ' ', 'c'] ++ ['"'])) :=
      .quoted rfl (by decide) (by decide)
    have test : IsAttributeText (['a'] ++ (['='] ++ ['"', 'b', ' ', ' ', 'c', '"'])) :=
      .test (List.all_eq_true.mp (by decide)) (List.mem_of_getLast? rfl) value
    exact test
  have test : readAttributeTest ['a', '=', '"', 'b', ' ', ' ', 'c', '"'] =
      some ⟨"a", .equals, "b  c"⟩ := by decide
  have writtenTest : readAttributeTest ['a', '=', '"', 'b', ' ', 'c', '"'] =
      some ⟨"a", .equals, "b c"⟩ := by decide
  refine ⟨by decide, brackets, written, ?_⟩
  rw [written, Selector.read, Selector.read, readSelector_eq_joinWords, readSelector_eq_joinWords,
    words, writtenWords]
  simp [joinWords, Joining.takeWord, Joining.finish, Mark.resolve, test, writtenTest]

end Css
end MailPress
