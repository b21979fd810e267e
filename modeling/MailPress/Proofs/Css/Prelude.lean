import MailPress.Proofs.Css.Tighten

/-!
# Written preludes

The written form of a prelude is its tightened form without the spaces that stand
just inside parentheses. They are taken out by two replacements, which do not
look at strings.

Where no string holds such a space, the replacements amount to one more rule of
the tightening scan, and writing the written form again changes nothing.
-/

namespace MailPress
namespace Css

/-! ## The two replacements -/

/-- Leave out the space after each opening parenthesis; the flag tells whether one was just
read. -/
def closeUp : Bool → List Char → List Char
  | _, [] => []
  | afterOpening, c :: rest =>
      if afterOpening && c == ' ' then closeUp false rest else c :: closeUp (c == '(') rest

/-- Leave out the space before each closing parenthesis. -/
def closeDown : List Char → List Char
  | ' ' :: ')' :: rest => ')' :: closeDown rest
  | c :: rest => c :: closeDown rest
  | [] => []

theorem startsWith_pair (first second c : Char) (rest : List Char) :
    Text.startsWith [first, second] (c :: rest) = true ↔
      first = c ∧ rest.head? = some second := by
  cases rest with
  | nil => by_cases same : first = c <;> simp [Text.startsWith, Text.dropStart?, same]
  | cons d rest =>
      by_cases same : first = c <;> by_cases next : second = d <;>
        simp [Text.startsWith, Text.dropStart?, same, next, eq_comm]

theorem closeUp_eq_replaceFrom (afterOpening : Bool) (text : List Char) :
    closeUp afterOpening text =
      Text.replaceFrom ['(', ' '] ['(']
        (if afterOpening = true ∧ text.head? = some ' ' then 1 else 0) text := by
  induction text generalizing afterOpening with
  | nil => simp [closeUp, Text.replaceFrom]
  | cons c rest inductionHypothesis =>
      by_cases left : afterOpening = true ∧ c = ' '
      · obtain ⟨rfl, rfl⟩ := left
        simp [closeUp, Text.replaceFrom, inductionHypothesis]
      · have kept : ¬(afterOpening = true ∧ (c :: rest).head? = some ' ') := by simpa using left
        rw [if_neg kept, closeUp, if_neg (by simpa using left), inductionHypothesis,
          Text.replaceFrom]
        by_cases pair : '(' = c ∧ rest.head? = some ' '
        · obtain ⟨rfl, space⟩ := pair
          rw [if_pos ((startsWith_pair ..).mpr ⟨rfl, space⟩), if_pos ⟨rfl, space⟩]
          rfl
        · have other : ¬((c == '(') = true ∧ rest.head? = some ' ') := by
            rintro ⟨opening, space⟩
            exact pair ⟨(beq_iff_eq.mp opening).symm, space⟩
          rw [if_neg (mt (startsWith_pair ..).mp pair), if_neg other]

theorem replaceAll_opening_eq (text : List Char) :
    Text.replaceAll ['(', ' '] ['('] text = closeUp false text := by
  rw [closeUp_eq_replaceFrom]
  rfl

theorem replaceAll_closing_eq (text : List Char) :
    Text.replaceAll [' ', ')'] [')'] text = closeDown text := by
  unfold Text.replaceAll
  fun_induction closeDown text with
  | case1 rest inductionHypothesis =>
      rw [← inductionHypothesis, Text.replaceFrom,
        if_pos ((startsWith_pair ..).mpr ⟨rfl, rfl⟩)]
      rfl
  | case2 c rest different inductionHypothesis =>
      have noPair : ¬(' ' = c ∧ rest.head? = some ')') := by
        rintro ⟨rfl, closing⟩
        obtain ⟨tail, rfl⟩ := List.head?_eq_some_iff.mp closing
        exact different tail rfl rfl
      rw [Text.replaceFrom, if_neg (mt (startsWith_pair ..).mp noPair), inductionHypothesis]
  | case3 => rfl

theorem toList_minifyPrelude (prelude : String) :
    (minifyPrelude prelude).toList =
      closeDown (closeUp false (tighten isTightInPrelude prelude.toList)) := by
  rw [minifyPrelude, replaceAll_opening_eq, replaceAll_closing_eq, String.toList_ofList]

theorem respaced_closeUp (afterOpening : Bool) (text : List Char) :
    Respaced text (closeUp afterOpening text) := by
  fun_induction closeUp afterOpening text with
  | case1 => exact .nil
  | case2 afterOpening c rest left inductionHypothesis =>
      obtain ⟨_, space⟩ := Bool.and_eq_true_iff.mp left
      obtain rfl := beq_iff_eq.mp space
      exact inductionHypothesis.drop Text.isBlank_space
  | case3 afterOpening c rest kept inductionHypothesis => exact inductionHypothesis.keep c

theorem respaced_closeDown (text : List Char) : Respaced text (closeDown text) := by
  fun_induction closeDown text with
  | case1 rest inductionHypothesis => exact (inductionHypothesis.keep ')').drop Text.isBlank_space
  | case2 c rest _ inductionHypothesis => exact inductionHypothesis.keep c
  | case3 => exact .nil

theorem head?_closeUp (text : List Char) : (closeUp false text).head? = text.head? := by
  cases text <;> simp [closeUp]

theorem uncommented_closeUp
    (afterOpening : Bool)
    {text : List Char}
    (uncommented : Uncommented text) :
    Uncommented (closeUp afterOpening text) := by
  fun_induction closeUp afterOpening text with
  | case1 => trivial
  | case2 afterOpening c rest left inductionHypothesis => exact inductionHypothesis uncommented.2
  | case3 afterOpening c rest kept inductionHypothesis =>
      refine ⟨?_, inductionHypothesis uncommented.2⟩
      rintro ⟨rfl, star⟩
      rw [show ('/' == '(') = false from rfl, head?_closeUp] at star
      exact uncommented.1 ⟨rfl, star⟩

theorem head?_closeDown (text : List Char) :
    (closeDown text).head? = text.head? ∨ (closeDown text).head? = some ')' := by
  fun_cases closeDown text with
  | case1 => exact .inr rfl
  | case2 => exact .inl rfl
  | case3 => exact .inl rfl

theorem uncommented_closeDown
    {text : List Char}
    (uncommented : Uncommented text) :
    Uncommented (closeDown text) := by
  fun_induction closeDown text with
  | case1 rest inductionHypothesis =>
      exact ⟨by simp, inductionHypothesis uncommented.2.2⟩
  | case2 c rest _ inductionHypothesis =>
      refine ⟨?_, inductionHypothesis uncommented.2⟩
      rintro ⟨rfl, star⟩
      rcases head?_closeDown rest with same | closing
      · exact uncommented.1 ⟨rfl, same ▸ star⟩
      · rw [closing] at star
        cases star
  | case3 => trivial

theorem isTightened_minifyPrelude (prelude : String) :
    IsTightened prelude.toList (minifyPrelude prelude).toList := by
  have tightened : IsTightened prelude.toList (tighten isTightInPrelude prelude.toList) := by
    rw [tighten_eq_squeeze]
    exact isTightened_squeeze rfl prelude.toList
  rw [toList_minifyPrelude]
  refine ⟨?_, fun uncommented => ?_⟩
  · exact tightened.respaced.trans ((respaced_closeUp false _).trans (respaced_closeDown _))
  · exact uncommented_closeDown (uncommented_closeUp false (tightened.uncommented uncommented))

/-! ## Strings without spaces inside parentheses -/

/-- From inside or outside a string on, no string holds a space after an opening or before a
closing parenthesis. -/
def SparesStrings : Option Char → List Char → Prop
  | _, [] => True
  | quote, c :: rest =>
      (quote ≠ none → ¬(c = '(' ∧ rest.head? = some ' ') ∧ ¬(c = ' ' ∧ rest.head? = some ')')) ∧
        SparesStrings (nextQuote quote c) rest

instance decidableSparesStrings :
    (quote : Option Char) → (text : List Char) → Decidable (SparesStrings quote text)
  | _, [] => .isTrue trivial
  | quote, c :: rest =>
      have := decidableSparesStrings (nextQuote quote c) rest
      inferInstanceAs (Decidable (_ ∧ _))

theorem SparesStrings.of_append
    {quote : Option Char}
    {text rest : List Char}
    (spares : SparesStrings quote (text ++ rest)) :
    SparesStrings quote text := by
  induction text generalizing quote with
  | nil => trivial
  | cons c text inductionHypothesis =>
      refine ⟨fun quoted => ?_, inductionHypothesis spares.2⟩
      obtain ⟨opening, closing⟩ := spares.1 quoted
      cases text with
      | nil => simp
      | cons d text => exact ⟨opening, closing⟩

theorem SparesStrings.of_blank_cons
    {c : Char}
    (blank : Text.isBlank c = true)
    {text : List Char}
    (spares : SparesStrings none (c :: text)) :
    SparesStrings none text := by
  have later := spares.2
  rw [nextQuote, isQuote_of_isBlank blank] at later
  exact later

theorem SparesStrings.trim
    {text : List Char}
    (spares : SparesStrings none text) :
    SparesStrings none (Text.trim text) := by
  obtain ⟨lead, trail, split, leadBlanks, _⟩ := Text.exists_trim text
  rw [split, List.append_assoc] at spares
  have spared : SparesStrings none (Text.trim text ++ trail) := by
    clear split
    induction lead with
    | nil => exact spares
    | cons c lead inductionHypothesis =>
        obtain ⟨blank, leadBlanks⟩ := List.forall_mem_cons.mp leadBlanks
        exact inductionHypothesis (spares.of_blank_cons blank) leadBlanks
  exact spared.of_append

theorem head?_squeezeFrom_of_quoted
    (keeps : Option Char → Char → Bool)
    {state : TightenState}
    (quoted : state.quote ≠ none)
    (text : List Char) :
    (squeezeFrom keeps state text).head? = text.head? := by
  obtain ⟨_ | quote, previous, pending⟩ := state
  · exact absurd rfl quoted
  · cases text <;> rfl

/-- Inside a string a squeezed text goes on as the text does, behind any character that ends
no string. -/
theorem head?_squeezeFrom_after
    (keeps : Option Char → Char → Bool)
    {quote c : Char}
    (proper : isQuote quote = true)
    (plain : isQuote c = false)
    (text : List Char) :
    (squeezeFrom keeps ⟨if c = quote then none else some quote, some c, false⟩ text).head? =
      text.head? := by
  have different : c ≠ quote := by
    rintro rfl
    rw [proper] at plain
    cases plain
  rw [if_neg different]
  exact head?_squeezeFrom_of_quoted keeps (Option.some_ne_none quote) text

theorem sparesStrings_squeezeFrom
    (keeps : Option Char → Char → Bool)
    (state : TightenState)
    {text : List Char}
    (proper : ∀ quote ∈ state.quote, isQuote quote = true)
    (spares : SparesStrings state.quote text) :
    SparesStrings state.quote (squeezeFrom keeps state text) := by
  fun_induction squeezeFrom keeps state text with
  | case1 => trivial
  | case2 quote previous pending c rest inductionHypothesis =>
      obtain ⟨tight, laterSpares⟩ := spares
      refine ⟨fun quoted => ?_, inductionHypothesis
        (fun _ => isQuote_of_mem_nextQuote (c := c) proper) laterSpares⟩
      obtain ⟨opening, closing⟩ := tight quoted
      refine ⟨?_, ?_⟩
      · rintro ⟨rfl, space⟩
        rw [head?_squeezeFrom_after keeps (proper quote rfl) rfl] at space
        exact opening ⟨rfl, space⟩
      · rintro ⟨rfl, parenthesis⟩
        rw [head?_squeezeFrom_after keeps (proper quote rfl) rfl] at parenthesis
        exact closing ⟨rfl, parenthesis⟩
  | case3 previous pending c rest blank inductionHypothesis =>
      exact inductionHypothesis proper (spares.of_blank_cons blank)
  | case4 previous pending c rest nonblank tail kept inductionHypothesis =>
      refine ⟨fun quoted => absurd rfl quoted, fun quoted => absurd rfl quoted, ?_⟩
      exact inductionHypothesis (fun _ => isQuote_of_mem_nextQuote (c := c) proper) spares.2
  | case5 previous pending c rest nonblank tail dropped inductionHypothesis =>
      refine ⟨fun quoted => absurd rfl quoted, ?_⟩
      exact inductionHypothesis (fun _ => isQuote_of_mem_nextQuote (c := c) proper) spares.2

/-- A character that opens a string is no parenthesis. -/
theorem ne_opening_of_opens
    {c : Char}
    (rest : List Char)
    (opens : (if isQuote c then some c else none) ≠ none) :
    ¬(some c = some '(' ∧ rest.head? = some ' ') := by
  rintro ⟨same, _⟩
  obtain rfl := Option.some.inj same
  exact opens rfl

theorem closeUp_cons_of_nonblank
    (afterOpening : Bool)
    {c : Char}
    (nonblank : ¬Text.isBlank c = true)
    (text : List Char) :
    closeUp afterOpening (c :: text) = c :: closeUp (c == '(') text := by
  have notSpace : c ≠ ' ' := by
    rintro rfl
    exact nonblank rfl
  simp [closeUp, notSpace]

/-- The first replacement is one more rule for the scan: no space after an opening
parenthesis. -/
theorem closeUp_squeezeFrom
    (keeps : Option Char → Char → Bool)
    (state : TightenState)
    {text : List Char}
    (spares : SparesStrings state.quote text)
    (start : state.quote ≠ none → ¬(state.previous = some '(' ∧ text.head? = some ' ')) :
    closeUp (state.previous == some '(') (squeezeFrom keeps state text) =
      squeezeFrom (fun previous c => keeps previous c && previous != some '(') state text := by
  fun_induction squeezeFrom keeps state text with
  | case1 => simp [closeUp, squeezeFrom]
  | case2 quote previous pending c rest inductionHypothesis =>
      obtain ⟨tight, laterSpares⟩ := spares
      have kept : ¬((previous == some '(') && c == ' ') = true := by
        simpa using start (Option.some_ne_none quote)
      have later := inductionHypothesis laterSpares fun _ => by
        simpa using (tight (Option.some_ne_none quote)).1
      rw [closeUp, if_neg kept, squeezeFrom, ← later]
      rfl
  | case3 previous pending c rest blank inductionHypothesis =>
      rw [squeezeFrom, if_pos blank]
      exact inductionHypothesis (spares.of_blank_cons blank)
        (by simp)
  | case4 previous pending c rest nonblank tail kept inductionHypothesis =>
      have later := inductionHypothesis spares.2 (ne_opening_of_opens rest)
      obtain ⟨isPending, keep⟩ := Bool.and_eq_true_iff.mp kept
      have tail_eq (afterOpening : Bool) : closeUp afterOpening tail = c :: squeezeFrom
          (fun previous c => keeps previous c && previous != some '(')
          ⟨if isQuote c then some c else none, some c, false⟩ rest := by
        rw [closeUp_cons_of_nonblank afterOpening nonblank, ← later]
        rfl
      rw [squeezeFrom, if_neg nonblank, isPending]
      by_cases opening : previous = some '('
      · simp [closeUp, opening, tail_eq]
      · simp [closeUp, opening, tail_eq, keep]
  | case5 previous pending c rest nonblank tail dropped inductionHypothesis =>
      have later := inductionHypothesis spares.2 (ne_opening_of_opens rest)
      have stillDropped : ¬(pending && (keeps previous c && previous != some '(')) = true := by
        rw [← Bool.and_assoc, Bool.and_eq_true]
        exact fun both => dropped both.1
      rw [squeezeFrom, if_neg nonblank, if_neg stillDropped, ← later,
        closeUp_cons_of_nonblank _ nonblank]
      simp

theorem closeDown_cons
    {c : Char}
    {text : List Char}
    (apart : ¬(c = ' ' ∧ text.head? = some ')')) :
    closeDown (c :: text) = c :: closeDown text := by
  rw [closeDown]
  rintro rest rfl rfl
  exact apart ⟨rfl, rfl⟩

/-- The second replacement is one more rule for the scan: no space before a closing
parenthesis. -/
theorem closeDown_squeezeFrom
    (keeps : Option Char → Char → Bool)
    (state : TightenState)
    {text : List Char}
    (proper : ∀ quote ∈ state.quote, isQuote quote = true)
    (spares : SparesStrings state.quote text) :
    closeDown (squeezeFrom keeps state text) =
      squeezeFrom (fun previous c => keeps previous c && c != ')') state text := by
  have notSpace {c : Char} (nonblank : ¬Text.isBlank c = true) : c ≠ ' ' := by
    rintro rfl
    exact nonblank rfl
  fun_induction squeezeFrom keeps state text with
  | case1 => simp [closeDown, squeezeFrom]
  | case2 quote previous pending c rest inductionHypothesis =>
      obtain ⟨tight, laterSpares⟩ := spares
      have later := inductionHypothesis (fun _ => isQuote_of_mem_nextQuote (c := c) proper)
        laterSpares
      rw [squeezeFrom, ← later]
      refine closeDown_cons ?_
      rintro ⟨rfl, parenthesis⟩
      rw [head?_squeezeFrom_after keeps (proper quote rfl) rfl] at parenthesis
      exact (tight (Option.some_ne_none quote)).2 ⟨rfl, parenthesis⟩
  | case3 previous pending c rest blank inductionHypothesis =>
      rw [squeezeFrom, if_pos blank]
      exact inductionHypothesis proper
        (spares.of_blank_cons blank)
  | case4 previous pending c rest nonblank tail kept inductionHypothesis =>
      have later := inductionHypothesis (fun _ => isQuote_of_mem_nextQuote (c := c) proper) spares.2
      obtain ⟨isPending, keep⟩ := Bool.and_eq_true_iff.mp kept
      have tail_eq : closeDown tail = c :: closeDown _ :=
        closeDown_cons fun pair => notSpace nonblank pair.1
      rw [squeezeFrom, if_neg nonblank, ← later, isPending]
      by_cases closing : c = ')'
      · subst closing
        simp [tail, closeDown]
      · rw [closeDown_cons (by simpa [tail] using closing), tail_eq]
        simp [keep, closing]
  | case5 previous pending c rest nonblank tail dropped inductionHypothesis =>
      have later := inductionHypothesis (fun _ => isQuote_of_mem_nextQuote (c := c) proper) spares.2
      have stillDropped : ¬(pending && (keeps previous c && c != ')')) = true := by
        rw [← Bool.and_assoc, Bool.and_eq_true]
        exact fun both => dropped both.1
      rw [squeezeFrom, if_neg nonblank, if_neg stillDropped, ← later]
      exact closeDown_cons fun pair => notSpace nonblank pair.1

/-- A space stays in a prelude where no comma or colon stands beside it, and not just inside
parentheses. -/
def keepsInPrelude (previous : Option Char) (c : Char) : Bool :=
  keepsBeside isTightInPrelude previous c && previous != some '(' && c != ')'

/-- Where strings are spared, a written prelude is squeezed in one scan. -/
theorem toList_minifyPrelude_eq_squeeze
    (prelude : String)
    (spares : SparesStrings none prelude.toList) :
    (minifyPrelude prelude).toList = squeeze keepsInPrelude prelude.toList := by
  have first := closeUp_squeezeFrom (keepsBeside isTightInPrelude) ⟨none, none, false⟩
    spares.trim (by simp)
  have second := closeDown_squeezeFrom
    (fun previous c => keepsBeside isTightInPrelude previous c && previous != some '(')
    ⟨none, none, false⟩ (by simp) spares.trim
  rw [toList_minifyPrelude, tighten_eq_squeeze, squeeze, squeeze]
  exact (congrArg closeDown first).trans second

/-- A written prelude is its own written form. -/
theorem minifyPrelude_minifyPrelude
    {prelude : String}
    (spares : SparesStrings none prelude.toList) :
    minifyPrelude (minifyPrelude prelude) = minifyPrelude prelude := by
  have written := toList_minifyPrelude_eq_squeeze prelude spares
  have squeezed := sparesStrings_squeezeFrom keepsInPrelude ⟨none, none, false⟩ (by simp)
    spares.trim
  have again := toList_minifyPrelude_eq_squeeze (minifyPrelude prelude)
  rw [written] at again
  apply String.toList_inj.mp
  rw [again squeezed, written]
  exact squeeze_squeeze (by decide) prelude.toList

end Css
end MailPress
