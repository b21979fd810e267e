import Mathlib.Data.List.Infix
import MailPress.Css.Selector.Reader
import MailPress.Proofs.Css.Closed

/-!
# Selectors as lists of words

Reading a selector carries bounds along, so that the arguments of negations are read with the
same function. Here the text is cut into words first, with arguments as plain texts, and the words
are joined afterwards. A word stands for the place where a text is not understood, so that
cutting never fails; joining does.
-/

namespace MailPress
namespace Css

/-! ## Words -/

/-- A test as written, with what stands in brackets or parentheses as a text. -/
inductive Mark
  /-- The universal test. -/
  | universal
  /-- A test that needs no further reading. -/
  | plain (test : Simple)
  /-- A test of an attribute. -/
  | bracketed (inner : List Char)
  /-- A pseudo-class or pseudo-element with an argument. -/
  | functional (name : String) (argument : List Char)

/-- A part of a selector as written, or the place where the text is not understood. -/
inductive Word
  /-- A blank. -/
  | gap
  /-- A combinator that has a sign. -/
  | combinator (combinator : Combinator)
  /-- A compound. -/
  | compound (marks : List Mark)
  /-- The text is not understood from here on. -/
  | bad

/-- What stands at the start of the rest of a compound. -/
inductive Taking
  /-- A test, and what is left. -/
  | mark (mark : Mark) (rest : List Char)
  /-- The compound ends here. -/
  | stop
  /-- The text is not understood. -/
  | failed

/-- Take a name that is not empty, and make a test of it. -/
def takeNamed (make : String → Mark) (text : List Char) : Taking :=
  match takeName text with
  | some (c :: name, rest) => .mark (make (String.ofList (c :: name))) rest
  | _ => .failed

/-- Take a pseudo-class or pseudo-element after its first colon. -/
def takePseudo (text : List Char) : Taking :=
  match takeName (withoutColon text) with
  | some (c :: name, '(' :: inner) =>
      match takeArgument 0 inner with
      | some (argument, after) =>
          .mark (.functional (Text.lower (String.ofList (c :: name))) argument) after
      | none => .failed
  | some (c :: name, rest) =>
      .mark (.plain (plainPseudo (text.head? == some ':')
        (Text.lower (String.ofList (c :: name))))) rest
  | _ => .failed

/-- Take one test of a compound; a name is a test only when it comes first. -/
def takeTest (first : Bool) (text : List Char) : Taking :=
  match text with
  | '*' :: rest => .mark .universal rest
  | '#' :: rest => takeNamed (fun name => .plain (.id name)) rest
  | '.' :: rest => takeNamed (fun name => .plain (.className name)) rest
  | '[' :: rest =>
      match takeBracket none rest with
      | some (inner, after) =>
          if (readAttributeTest inner).isSome then .mark (.bracketed inner) after else .failed
      | none => .failed
  | ':' :: rest => takePseudo rest
  | c :: rest =>
      if first && isNameChar c then
        takeNamed (fun name => .plain (.type (Text.lower name))) (c :: rest)
      else .stop
  | [] => .stop

/-! ## Agreement with the reader -/

section Reader

variable {bound : Nat}

/-- A written test and the same with its argument as a text. -/
inductive WrittenTest.IsMark : WrittenTest bound → Mark → Prop
  /-- The universal test. -/
  | universal : IsMark .universal .universal
  /-- A test that needs no further reading. -/
  | plain (test : Simple) : IsMark (.plain test) (.plain test)
  /-- A test of an attribute that was read from its brackets. -/
  | bracketed {inner : List Char} {test : AttributeTest}
      (read : readAttributeTest inner = some test) : IsMark (.plain (.attr test)) (.bracketed inner)
  /-- A pseudo-class or pseudo-element with an argument. -/
  | functional (name : String) (argument : { text : List Char // text.length < bound }) :
      IsMark (.functional name argument) (.functional name argument.1)

/-- The same was found at the start of the rest of a compound. -/
inductive TestStep.Agrees {length : Nat} : TestStep bound length → Taking → Prop
  /-- The same test. -/
  | mark {test : WrittenTest bound} {mark : Mark} (same : test.IsMark mark) (rest : List Char)
      (shorter : rest.length < length) : Agrees (.test test rest shorter) (.mark mark rest)
  /-- The compound ends. -/
  | stop : Agrees .stop .stop
  /-- The text is not understood. -/
  | failed : Agrees .failed .failed

theorem exists_takeName1_of_takeName
    {c : Char}
    {text name rest : List Char}
    (found : takeName text = some (c :: name, rest)) :
    ∃ shorter, takeName1 text = some (String.ofList (c :: name), ⟨rest, shorter⟩) := by
  unfold takeName1
  split
  · next first others behind same =>
      have eq := Option.some.inj (same.symm.trans found)
      simp only [Prod.mk.injEq, List.cons.injEq] at eq
      obtain ⟨⟨rfl, rfl⟩, rfl⟩ := eq
      have lengths := length_takeName_le found
      simp only [List.length_cons] at lengths
      exact ⟨by omega, rfl⟩
  · next other => exact absurd found (other c name rest)

theorem takeName1_eq_none
    {text : List Char}
    (none : ∀ c name rest, takeName text ≠ some (c :: name, rest)) :
    takeName1 text = Option.none := by
  unfold takeName1
  split
  · next found => exact absurd found (none _ _ _)
  · rfl

theorem takeNamed_eq (make : String → Mark) (text : List Char) :
    takeNamed make text =
      match takeName1 text with
      | some (name, ⟨rest, _⟩) => .mark (make name) rest
      | none => .failed := by
  unfold takeNamed
  split
  · next found =>
      obtain ⟨shorter, eq⟩ := exists_takeName1_of_takeName found
      rw [eq]
  · next none => rw [takeName1_eq_none none]

theorem takePseudo_eq
    {text : List Char}
    (within : text.length < bound) :
    match readPseudo text within with
    | some (test, rest) => ∃ mark, takePseudo text = .mark mark rest.1 ∧ test.IsMark mark
    | none => takePseudo text = .failed := by
  unfold readPseudo
  fun_cases takePseudo text with
  | case1 c name inner found argument after taken =>
      obtain ⟨shorter, eq⟩ := exists_takeName1_of_takeName found
      simp only [eq]
      split
      · next eq =>
          split at eq
          · cases eq
          · next same =>
              obtain ⟨rfl, rfl⟩ := Prod.mk.inj (Option.some.inj (taken.symm.trans same))
              cases eq
              exact ⟨_, rfl, .functional ..⟩
      · next eq =>
          split at eq
          · next none => cases taken.symm.trans none
          · cases eq
  | case2 c name inner found untaken =>
      obtain ⟨shorter, eq⟩ := exists_takeName1_of_takeName found
      simp only [eq]
      split
      · next eq =>
          split at eq
          · cases eq
          · next same => cases untaken.symm.trans same
      · trivial
  | case3 c name rest notArgument found =>
      obtain ⟨shorter, eq⟩ := exists_takeName1_of_takeName found
      simp only [eq]
      split
      · next eq =>
          split at eq
          · exact absurd rfl (notArgument _)
          · cases eq
            exact ⟨_, rfl, .plain _⟩
      · next eq =>
          split at eq
          · exact absurd rfl (notArgument _)
          · cases eq
  | case4 notArgument none =>
      simp only [takeName1_eq_none none]

theorem agrees_readTest
    (first : Bool)
    {text : List Char}
    (within : text.length ≤ bound) :
    (readTest first text within).Agrees (takeTest first text) := by
  fun_cases takeTest first text with
  | case1 rest => exact .mark .universal ..
  | case2 rest =>
      rw [takeNamed_eq]
      simp only [readTest]
      cases takeName1 rest with
      | none => exact .failed
      | some found => exact .mark (.plain _) ..
  | case3 rest =>
      rw [takeNamed_eq]
      simp only [readTest]
      cases takeName1 rest with
      | none => exact .failed
      | some found => exact .mark (.plain _) ..
  | case4 rest inner after taken read =>
      obtain ⟨test, read⟩ := Option.isSome_iff_exists.mp read
      simp only [readTest]
      split
      · next same =>
          obtain ⟨rfl, rfl⟩ := Prod.mk.inj (Option.some.inj (taken.symm.trans same))
          rw [read]
          exact .mark (.bracketed read) ..
      · next none => cases taken.symm.trans none
  | case5 rest inner after taken unread =>
      rw [Bool.not_eq_true, Option.isSome_eq_false_iff, Option.isNone_iff_eq_none] at unread
      simp only [readTest]
      split
      · next same =>
          obtain ⟨rfl, rfl⟩ := Prod.mk.inj (Option.some.inj (taken.symm.trans same))
          rw [unread]
          exact .failed
      · exact .failed
  | case6 rest untaken =>
      simp only [readTest]
      split
      · next same => cases untaken.symm.trans same
      · exact .failed
  | case7 rest =>
      have pseudo := takePseudo_eq within
      simp only [readTest]
      split at pseudo
      · next test behind read =>
          obtain ⟨mark, taken, same⟩ := pseudo
          rw [taken]
          simp only [read]
          exact .mark same ..
      · next read =>
          rw [pseudo]
          simp only [read]
          exact .failed
  | case8 c rest star hash dot bracket colon named =>
      rw [takeNamed_eq]
      simp only [readTest, if_pos named]
      cases takeName1 (c :: rest) with
      | none => exact .failed
      | some found => exact .mark (.plain _) ..
  | case9 c rest star hash dot bracket colon unnamed =>
      simp only [readTest, if_neg unnamed]
      exact .stop
  | case10 => exact .stop

section

variable {first : Bool} {text rest : List Char} {mark : Mark}

theorem exists_readTest_of_mark
    (taken : takeTest first text = .mark mark rest)
    (within : text.length ≤ bound) :
    ∃ test shorter, readTest first text within = .test test rest shorter ∧ test.IsMark mark := by
  have agrees := agrees_readTest first within
  rw [taken] at agrees
  generalize readTest first text within = step at agrees
  cases agrees with
  | mark same _ shorter => exact ⟨_, shorter, rfl, same⟩

theorem readTest_of_stop
    (taken : takeTest first text = .stop)
    (within : text.length ≤ bound) :
    readTest first text within = .stop := by
  have agrees := agrees_readTest first within
  rw [taken] at agrees
  generalize readTest first text within = step at agrees
  cases agrees
  rfl

theorem readTest_of_failed
    (taken : takeTest first text = .failed)
    (within : text.length ≤ bound) :
    readTest first text within = .failed := by
  have agrees := agrees_readTest first within
  rw [taken] at agrees
  generalize readTest first text within = step at agrees
  cases agrees
  rfl

end

end Reader

theorem length_lt_of_takeTest
    {first : Bool}
    {text rest : List Char}
    {mark : Mark}
    (taken : takeTest first text = .mark mark rest) :
    rest.length < text.length := by
  obtain ⟨_, shorter, _⟩ := exists_readTest_of_mark taken (Nat.le_refl text.length)
  exact shorter

/-! ## Cutting into words -/

/-- Take the tests of a compound; nothing is left where the text is not understood. -/
def takeTests (first : Bool) (text : List Char) : List Mark × Option (List Char) :=
  match taken : takeTest first text with
  | .mark mark rest =>
      have := length_lt_of_takeTest taken
      let behind := takeTests false rest
      (mark :: behind.1, behind.2)
  | .stop => ([], some text)
  | .failed => ([], none)
termination_by text.length

section

variable {first : Bool} {text rest left : List Char} {mark : Mark}

theorem takeTests_of_mark (taken : takeTest first text = .mark mark rest) :
    takeTests first text = (mark :: (takeTests false rest).1, (takeTests false rest).2) := by
  rw [takeTests]
  split
  · next same =>
      obtain ⟨rfl, rfl⟩ := Taking.mark.inj (taken.symm.trans same)
      rfl
  · next same => cases taken.symm.trans same
  · next same => cases taken.symm.trans same

theorem takeTests_of_stop (taken : takeTest first text = .stop) :
    takeTests first text = ([], some text) := by
  rw [takeTests]
  split
  · next same => cases taken.symm.trans same
  · rfl
  · next same => cases taken.symm.trans same

theorem takeTests_of_failed (taken : takeTest first text = .failed) :
    takeTests first text = ([], none) := by
  rw [takeTests]
  split
  · next same => cases taken.symm.trans same
  · next same => cases taken.symm.trans same
  · rfl

theorem length_takeTests_le (taken : (takeTests first text).2 = some left) :
    left.length ≤ text.length := by
  fun_induction takeTests first text with
  | case1 first text mark rest found _ behind inductionHypothesis =>
      exact Nat.le_trans (inductionHypothesis taken) (Nat.le_of_lt (length_lt_of_takeTest found))
  | case2 => exact (Option.some.inj taken) ▸ Nat.le_refl _
  | case3 => cases taken

end

/-- Cut a selector into words. -/
def selectorWords (text : List Char) : List Word :=
  match text with
  | [] => []
  | c :: rest =>
      if Text.isBlank c then .gap :: selectorWords rest
      else
        match combinatorOfSign? c with
        | some sign => .combinator sign :: selectorWords rest
        | none =>
            match taken : takeTest true (c :: rest) with
            | .mark mark after =>
                match behind : (takeTests false after).2 with
                | none => [.compound (mark :: (takeTests false after).1), .bad]
                | some left =>
                    have := length_lt_of_takeTest taken
                    have := length_takeTests_le behind
                    .compound (mark :: (takeTests false after).1) :: selectorWords left
            | _ => [.bad]
termination_by text.length
decreasing_by
  all_goals
    simp only [List.length_cons] at *
    omega

section

variable {c : Char} {text rest after left : List Char} {mark : Mark}

@[simp] theorem selectorWords_nil : selectorWords [] = [] := by
  rw [selectorWords.eq_def]

theorem selectorWords_of_isBlank (blank : Text.isBlank c = true) (rest : List Char) :
    selectorWords (c :: rest) = .gap :: selectorWords rest := by
  rw [selectorWords.eq_def]
  exact if_pos blank

theorem selectorWords_of_sign
    {sign : Combinator}
    (nonblank : Text.isBlank c = false)
    (found : combinatorOfSign? c = some sign)
    (rest : List Char) :
    selectorWords (c :: rest) = .combinator sign :: selectorWords rest := by
  rw [selectorWords.eq_def]
  simp only [nonblank, Bool.false_eq_true, if_false, found]

theorem selectorWords_of_mark
    (nonblank : Text.isBlank c = false)
    (noSign : combinatorOfSign? c = none)
    (taken : takeTest true (c :: rest) = .mark mark after) :
    selectorWords (c :: rest) =
      .compound (mark :: (takeTests false after).1) ::
        (takeTests false after).2.elim [.bad] selectorWords := by
  rw [selectorWords.eq_def]
  simp only [nonblank, Bool.false_eq_true, if_false, noSign]
  split
  · next same =>
      obtain ⟨rfl, rfl⟩ := Taking.mark.inj (taken.symm.trans same)
      split
      · next behind => rw [behind, Option.elim_none]
      · next behind => rw [behind, Option.elim_some]
  · next other => exact absurd taken (other mark after)

theorem selectorWords_of_not_mark
    (nonblank : Text.isBlank c = false)
    (noSign : combinatorOfSign? c = none)
    (other : ∀ mark after, takeTest true (c :: rest) ≠ .mark mark after) :
    selectorWords (c :: rest) = [.bad] := by
  rw [selectorWords.eq_def]
  simp only [nonblank, Bool.false_eq_true, if_false, noSign]

end

/-! ## What is taken -/

theorem takeName_cons {c : Char} (plain : c ≠ '\\') (rest : List Char) :
    takeName (c :: rest) =
      if isNameChar c then (takeName rest).map fun found => (c :: found.1, found.2)
      else some ([], c :: rest) := by
  rw [takeName, if_neg plain]
  rintro d others rfl
  exact absurd rfl plain

theorem isQuote_of_isNameChar {c : Char} (named : isNameChar c = true) : isQuote c = false :=
  isQuote_of_test named (by decide)

theorem eq_append_of_takeName
    {text name rest : List Char}
    (plain : '\\' ∉ text)
    (taken : takeName text = some (name, rest)) :
    text = name ++ rest ∧ ∀ c ∈ name, isNameChar c = true := by
  induction text generalizing name rest with
  | nil =>
      cases taken
      exact ⟨rfl, List.forall_mem_nil _⟩
  | cons c text inductionHypothesis =>
      obtain ⟨different, plainRest⟩ := List.ne_and_not_mem_of_not_mem_cons plain
      rw [takeName_cons different.symm] at taken
      split at taken
      · next named =>
          obtain ⟨found, inner, same⟩ := Option.map_eq_some_iff.mp taken
          cases same
          obtain ⟨whole, others⟩ := inductionHypothesis plainRest inner
          exact ⟨congrArg (c :: ·) whole, List.forall_mem_cons.mpr ⟨named, others⟩⟩
      · cases taken
        exact ⟨rfl, List.forall_mem_nil _⟩

theorem eq_append_of_takeBracket
    {quote : Option Char}
    {text inner after : List Char}
    (taken : takeBracket quote text = some (inner, after)) :
    text = inner ++ ']' :: after := by
  fun_induction takeBracket quote text generalizing inner after with
  | case1 => cases taken
  | case2 quote c rest inductionHypothesis =>
      obtain ⟨found, behind, same⟩ := Option.map_eq_some_iff.mp taken
      cases same
      exact congrArg (c :: ·) (inductionHypothesis behind)
  | case3 rest =>
      cases taken
      rfl
  | case4 c rest _ inductionHypothesis =>
      obtain ⟨found, behind, same⟩ := Option.map_eq_some_iff.mp taken
      cases same
      exact congrArg (c :: ·) (inductionHypothesis behind)

/-- All strings end in a bracket. -/
theorem foldl_nextQuote_of_takeBracket
    {quote : Option Char}
    {text inner after : List Char}
    (taken : takeBracket quote text = some (inner, after)) :
    inner.foldl nextQuote quote = none := by
  fun_induction takeBracket quote text generalizing inner after with
  | case1 => cases taken
  | case2 quote c rest inductionHypothesis =>
      obtain ⟨found, behind, same⟩ := Option.map_eq_some_iff.mp taken
      cases same
      exact inductionHypothesis behind
  | case3 rest =>
      cases taken
      rfl
  | case4 c rest _ inductionHypothesis =>
      obtain ⟨found, behind, same⟩ := Option.map_eq_some_iff.mp taken
      cases same
      exact inductionHypothesis behind

theorem eq_append_of_takeArgument
    {depth : Nat}
    {text argument after : List Char}
    (taken : takeArgument depth text = some (argument, after)) :
    text = argument ++ ')' :: after := by
  induction text generalizing depth argument after with
  | nil => cases taken
  | cons c rest inductionHypothesis =>
      rw [takeArgument] at taken
      split at taken
      · next ends =>
          cases taken
          rw [ends.1]
          rfl
      · obtain ⟨found, behind, same⟩ := Option.map_eq_some_iff.mp taken
        cases same
        exact congrArg (c :: ·) (inductionHypothesis behind)

/-- What a test holds between brackets or parentheses, with them. -/
def Mark.delimited : Mark → List Char
  | .bracketed inner => '[' :: (inner ++ [']'])
  | .functional _ argument => '(' :: (argument ++ [')'])
  | _ => []

/-- A test stands at the start of a text: signs and names, and then what it holds. -/
def Mark.Starts (mark : Mark) (text rest : List Char) : Prop :=
  ∃ front, text = front ++ (mark.delimited ++ rest) ∧ ∀ c ∈ front, isQuote c = false

theorem Mark.Starts.cons
    {mark : Mark}
    {text rest : List Char}
    (starts : mark.Starts text rest)
    {c : Char}
    (plain : isQuote c = false) :
    mark.Starts (c :: text) rest := by
  obtain ⟨front, whole, unquoted⟩ := starts
  exact ⟨c :: front, congrArg (c :: ·) whole, List.forall_mem_cons.mpr ⟨plain, unquoted⟩⟩

theorem Mark.Starts.suffix
    {mark : Mark}
    {text rest : List Char}
    (starts : mark.Starts text rest) :
    rest <:+ text := by
  obtain ⟨front, rfl, _⟩ := starts
  exact (List.suffix_append mark.delimited rest).trans (List.suffix_append front _)

theorem starts_of_takeNamed
    {make : String → Mark}
    (plainMark : ∀ name, ∃ test, make name = .plain test)
    {text rest : List Char}
    (plain : '\\' ∉ text)
    {mark : Mark}
    (taken : takeNamed make text = .mark mark rest) :
    (∃ test, mark = .plain test) ∧ mark.Starts text rest := by
  unfold takeNamed at taken
  split at taken
  · next c name _ found =>
      cases taken
      obtain ⟨whole, named⟩ := eq_append_of_takeName plain found
      obtain ⟨test, same⟩ := plainMark (String.ofList (c :: name))
      refine ⟨⟨test, same⟩, c :: name, ?_, fun d member => isQuote_of_isNameChar (named d member)⟩
      rw [same]
      exact whole
  · cases taken

theorem starts_of_takePseudo
    {text rest : List Char}
    (plain : '\\' ∉ text)
    {mark : Mark}
    (taken : takePseudo text = .mark mark rest) :
    (∀ inner, mark ≠ .bracketed inner) ∧ mark.Starts text rest := by
  have without (starts : mark.Starts (withoutColon text) rest) : mark.Starts text rest := by
    revert starts
    fun_cases withoutColon text with
    | case1 rest => exact fun starts => starts.cons rfl
    | case2 => exact id
  have plainWithout : '\\' ∉ withoutColon text := by
    revert plain
    fun_cases withoutColon text with
    | case1 rest => exact fun plain => (List.ne_and_not_mem_of_not_mem_cons plain).2
    | case2 => exact id
  revert taken
  fun_cases takePseudo text with
  | case1 c name inner found argument after taken =>
      rintro ⟨⟩
      obtain ⟨whole, named⟩ := eq_append_of_takeName plainWithout found
      refine ⟨by rintro _ ⟨⟩, without ⟨c :: name, ?_, fun d member =>
        isQuote_of_isNameChar (named d member)⟩⟩
      rw [whole, eq_append_of_takeArgument taken]
      simp [Mark.delimited]
  | case2 => rintro ⟨⟩
  | case3 c name behind notArgument found =>
      rintro ⟨⟩
      obtain ⟨whole, named⟩ := eq_append_of_takeName plainWithout found
      exact ⟨by rintro _ ⟨⟩, without ⟨c :: name, whole, fun d member =>
        isQuote_of_isNameChar (named d member)⟩⟩
  | case4 => rintro ⟨⟩

/-- A test stands in front of what is left of the text. The strings of what it holds in brackets
end there. -/
theorem starts_of_takeTest
    {first : Bool}
    {text rest : List Char}
    (plain : '\\' ∉ text)
    {mark : Mark}
    (taken : takeTest first text = .mark mark rest) :
    (∀ inner, mark = .bracketed inner → inner.foldl nextQuote none = none) ∧
      mark.Starts text rest := by
  have behind {c : Char} {more : List Char} (same : text = c :: more) : '\\' ∉ more := by
    rw [same] at plain
    exact (List.ne_and_not_mem_of_not_mem_cons plain).2
  revert taken
  fun_cases takeTest first text with
  | case1 more =>
      rintro ⟨⟩
      exact ⟨by rintro _ ⟨⟩, ['*'], rfl, List.forall_mem_singleton.mpr rfl⟩
  | case2 more =>
      intro taken
      obtain ⟨⟨test, rfl⟩, starts⟩ := starts_of_takeNamed (fun _ => ⟨_, rfl⟩) (behind rfl) taken
      exact ⟨by rintro _ ⟨⟩, starts.cons rfl⟩
  | case3 more =>
      intro taken
      obtain ⟨⟨test, rfl⟩, starts⟩ := starts_of_takeNamed (fun _ => ⟨_, rfl⟩) (behind rfl) taken
      exact ⟨by rintro _ ⟨⟩, starts.cons rfl⟩
  | case4 more inner after found read =>
      rintro ⟨⟩
      refine ⟨?_, [], ?_, List.forall_mem_nil _⟩
      · rintro _ ⟨⟩
        exact foldl_nextQuote_of_takeBracket found
      · rw [eq_append_of_takeBracket found]
        simp [Mark.delimited]
  | case5 => rintro ⟨⟩
  | case6 => rintro ⟨⟩
  | case7 more =>
      intro taken
      obtain ⟨other, starts⟩ := starts_of_takePseudo (behind rfl) taken
      exact ⟨fun inner same => absurd same (other inner), starts.cons rfl⟩
  | case8 c more star hash dot bracket colon named =>
      intro taken
      obtain ⟨⟨test, rfl⟩, starts⟩ := starts_of_takeNamed (fun _ => ⟨_, rfl⟩) plain taken
      exact ⟨by rintro _ ⟨⟩, starts⟩
  | case9 => rintro ⟨⟩
  | case10 => rintro ⟨⟩

theorem suffix_of_takeTests
    {first : Bool}
    {text left : List Char}
    (plain : '\\' ∉ text)
    (taken : (takeTests first text).2 = some left) :
    left <:+ text := by
  fun_induction takeTests first text with
  | case1 first text mark rest found _ behind inductionHypothesis =>
      have suffix := (starts_of_takeTest plain found).2.suffix
      exact (inductionHypothesis (fun member => plain (suffix.subset member)) taken).trans suffix
  | case2 => exact (Option.some.inj taken) ▸ List.suffix_rfl
  | case3 => cases taken

theorem exists_of_mem_takeTests
    {first : Bool}
    {text : List Char}
    (plain : '\\' ∉ text)
    {mark : Mark}
    (member : mark ∈ (takeTests first text).1) :
    ∃ start behind rest, behind <:+ text ∧ takeTest start behind = .mark mark rest := by
  fun_induction takeTests first text with
  | case1 first text other rest taken _ behind inductionHypothesis =>
      rcases List.mem_cons.mp member with rfl | later
      · exact ⟨first, text, rest, List.suffix_rfl, taken⟩
      · have ends := (starts_of_takeTest plain taken).2.suffix
        obtain ⟨start, behind, left, suffix, found⟩ :=
          inductionHypothesis (fun member => plain (ends.subset member)) later
        exact ⟨start, behind, left, suffix.trans ends, found⟩
  | case2 => cases member
  | case3 => cases member

/-- Each test among the words of a selector was taken somewhere in the text. -/
theorem exists_of_mem_selectorWords
    {text : List Char}
    (plain : '\\' ∉ text)
    {marks : List Mark}
    (compound : .compound marks ∈ selectorWords text)
    {mark : Mark}
    (member : mark ∈ marks) :
    ∃ start behind rest, behind <:+ text ∧ takeTest start behind = .mark mark rest := by
  have here {first : Bool} {text after : List Char} {other : Mark} (plain : '\\' ∉ text)
      (taken : takeTest first text = .mark other after)
      (inCompound : mark ∈ other :: (takeTests false after).1) :
      ∃ start behind rest, behind <:+ text ∧ takeTest start behind = .mark mark rest := by
    have inTests : mark ∈ (takeTests first text).1 := by
      rw [takeTests_of_mark taken]
      exact inCompound
    exact exists_of_mem_takeTests plain inTests
  fun_induction selectorWords text with
  | case1 => cases compound
  | case2 c rest blank inductionHypothesis =>
      obtain ⟨start, behind, left, suffix, found⟩ :=
        inductionHypothesis (List.ne_and_not_mem_of_not_mem_cons plain).2
          ((List.mem_cons.mp compound).resolve_left Word.noConfusion)
      exact ⟨start, behind, left, suffix.trans (List.suffix_cons c rest), found⟩
  | case3 c rest nonblank sign noSign inductionHypothesis =>
      obtain ⟨start, behind, left, suffix, found⟩ :=
        inductionHypothesis (List.ne_and_not_mem_of_not_mem_cons plain).2
          ((List.mem_cons.mp compound).resolve_left Word.noConfusion)
      exact ⟨start, behind, left, suffix.trans (List.suffix_cons c rest), found⟩
  | case4 c rest nonblank noSign other after taken behind =>
      rcases List.mem_cons.mp compound with same | later
      · exact here plain taken (Word.compound.inj same ▸ member)
      · exact absurd (List.mem_singleton.mp later) Word.noConfusion
  | case5 c rest nonblank noSign other after taken left behind _ _ inductionHypothesis =>
      rcases List.mem_cons.mp compound with same | later
      · exact here plain taken (Word.compound.inj same ▸ member)
      · have afterSuffix := (starts_of_takeTest plain taken).2.suffix
        have plainAfter : '\\' ∉ after := fun member => plain (afterSuffix.subset member)
        have suffix := (suffix_of_takeTests plainAfter behind).trans afterSuffix
        obtain ⟨start, inside, more, inLeft, found⟩ :=
          inductionHypothesis (fun member => plain (suffix.subset member)) later
        exact ⟨start, inside, more, inLeft.trans suffix, found⟩
  | case6 => exact absurd (List.mem_singleton.mp compound) Word.noConfusion

/-! ## Joining words -/

/-- Join one word, its tests resolved. -/
def Joining.takeWord
    (resolve : Mark → Option Simple)
    (joining : Joining) :
    Word → Option Joining
  | .gap => some { joining with spaced := true }
  | .combinator sign =>
      if joining.left.isNone || joining.pending.isSome then none
      else some ⟨joining.left, some sign, false⟩
  | .compound marks =>
      match joining.left, joining.pending with
      | none, _ => some ⟨some (.compound (marks.filterMap resolve)), none, false⟩
      | some left, some sign =>
          some ⟨some (.combined left sign (marks.filterMap resolve)), none, false⟩
      | some left, none =>
          if joining.spaced then
            some ⟨some (.combined left .descendant (marks.filterMap resolve)), none, false⟩
          else none
  | .bad => none

/-- The selector that was joined, if no combinator waits for its right side. -/
def Joining.finish : Joining → Option Selector
  | ⟨left, none, _⟩ => left
  | _ => none

/-- Join words to a selector. -/
def joinWords (resolve : Mark → Option Simple) (words : List Word) : Option Selector :=
  (words.foldlM (Joining.takeWord resolve) ⟨none, none, false⟩).bind Joining.finish

/-- What a test stands for. -/
def Mark.resolve : Mark → Option Simple
  | .universal => none
  | .plain test => some test
  | .bracketed inner => (readAttributeTest inner).map .attr
  | .functional name argument =>
      some <|
        match name with
        | "nth-child" => positional .nthChild argument
        | "nth-last-child" => positional .nthLastChild argument
        | "nth-of-type" => positional .nthOfType argument
        | "nth-last-of-type" => positional .nthLastOfType argument
        | "not" => (((cutAtTopLevel ',' argument).mapM readSelector).map .not).getD .unknown
        | _ => .unknown

section

variable {bound : Nat} {resolve : List (WrittenTest bound) → List Simple}
  {resolveMark : Mark → Option Simple}

theorem exists_readTests_of_takeTests
    {first : Bool}
    {text left : List Char}
    (within : text.length ≤ bound)
    (taken : (takeTests first text).2 = some left) :
    ∃ tests less, readTests first text within = some (tests, ⟨left, less⟩) ∧
      List.Forall₂ WrittenTest.IsMark tests (takeTests first text).1 := by
  fun_induction takeTests first text with
  | case1 first text mark rest found _ behind inductionHypothesis =>
      obtain ⟨test, shorter, read, same⟩ := exists_readTest_of_mark found within
      obtain ⟨tests, less, eq, marks⟩ :=
        inductionHypothesis (Nat.le_of_lt (Nat.lt_of_lt_of_le shorter within)) taken
      rw [readTests]
      simp only [read, eq]
      exact ⟨_, Nat.le_trans less (Nat.le_of_lt shorter), rfl, .cons same marks⟩
  | case2 first text found =>
      obtain rfl := Option.some.inj taken
      rw [readTests]
      simp only [readTest_of_stop found within]
      exact ⟨[], Nat.le_refl _, rfl, .nil⟩
  | case3 => cases taken

theorem readTests_eq_none
    {first : Bool}
    {text : List Char}
    (within : text.length ≤ bound)
    (taken : (takeTests first text).2 = none) :
    readTests first text within = none := by
  fun_induction takeTests first text with
  | case1 first text mark rest found _ behind inductionHypothesis =>
      obtain ⟨test, shorter, read, _⟩ := exists_readTest_of_mark found within
      have eq := inductionHypothesis (Nat.le_of_lt (Nat.lt_of_lt_of_le shorter within)) taken
      rw [readTests]
      simp only [read, eq]
  | case2 => cases taken
  | case3 first text found =>
      rw [readTests]
      simp only [readTest_of_failed found within]

theorem foldlM_readLexemes
    (agrees : ∀ tests marks, List.Forall₂ WrittenTest.IsMark tests marks →
      resolve tests = marks.filterMap resolveMark)
    {text : List Char}
    (within : text.length ≤ bound)
    (joining : Joining) :
    ((readLexemes text within).bind fun lexemes =>
        lexemes.foldlM (Joining.take resolve) joining) =
      (selectorWords text).foldlM (Joining.takeWord resolveMark) joining := by
  fun_induction selectorWords text generalizing joining with
  | case1 =>
      rw [readLexemes.eq_def]
      rfl
  | case2 c rest blank inductionHypothesis =>
      rw [readLexemes.eq_def]
      simp only [blank, if_true, Option.bind_map, List.foldlM_cons, Function.comp_def]
      exact inductionHypothesis (Nat.le_of_succ_le within) { joining with spaced := true }
  | case3 c rest nonblank sign found inductionHypothesis =>
      rw [readLexemes.eq_def]
      simp only [if_neg nonblank, found, Option.bind_map, List.foldlM_cons, Function.comp_def]
      have behind := inductionHypothesis (Nat.le_of_succ_le within)
      by_cases refused : (joining.left.isNone || joining.pending.isSome) = true
      · simp [Joining.take, Joining.takeWord, refused]
      · simpa [Joining.take, Joining.takeWord, refused] using behind _
  | case4 c rest nonblank found mark after taken behind =>
      obtain ⟨test, shorter, read, _⟩ := exists_readTest_of_mark taken within
      have eq := readTests_eq_none (Nat.le_trans (Nat.le_of_lt shorter) within) behind
      rw [readLexemes.eq_def]
      simp only [if_neg nonblank, found, read, eq, List.foldlM_cons]
      cases joining.takeWord resolveMark (.compound (mark :: (takeTests false after).1)) <;> rfl
  | case5 c rest nonblank found mark after taken left behind _ _ inductionHypothesis =>
      obtain ⟨test, shorter, read, same⟩ := exists_readTest_of_mark taken within
      obtain ⟨tests, less, eq, marks⟩ :=
        exists_readTests_of_takeTests (Nat.le_trans (Nat.le_of_lt shorter) within) behind
      have resolved : (mark :: (takeTests false after).1).filterMap resolveMark =
          resolve (test :: tests) :=
        (agrees _ _ (.cons same marks)).symm
      have behind := inductionHypothesis (by omega)
      rw [readLexemes.eq_def]
      simp only [if_neg nonblank, found, read, eq, Option.bind_map, List.foldlM_cons,
        Function.comp_def]
      obtain ⟨_ | joined, _ | sign, spaced⟩ := joining
      · simpa [Joining.take, Joining.takeWord, resolved] using behind _
      · simpa [Joining.take, Joining.takeWord, resolved] using behind _
      · cases spaced
        · simp [Joining.take, Joining.takeWord]
        · simpa [Joining.take, Joining.takeWord, resolved] using behind _
      · simpa [Joining.take, Joining.takeWord, resolved] using behind _
  | case6 c rest nonblank found none =>
      rw [readLexemes.eq_def]
      simp only [if_neg nonblank, found]
      split
      · next read =>
          have agrees := agrees_readTest true within
          rw [read] at agrees
          generalize taken : takeTest true (c :: rest) = taking at agrees
          cases agrees
          exact absurd taken (none _ _)
      · rfl

end

/-- The bound on the parts of an argument does not matter for what they are read as. -/
theorem mapM_attach_readSelector (parts : List (List Char)) :
    (parts.attach.mapM fun part => readSelector part.1) = parts.mapM readSelector := by
  rw [List.mapM_subtype fun part _ => rfl, List.unattach_attach]

/-- A written test stands for what the same test with its argument as a text stands for. -/
theorem WrittenTest.IsMark.resolve_eq
    {bound : Nat}
    {test : WrittenTest bound}
    {mark : Mark}
    (isMark : test.IsMark mark) :
    (test.resolve fun argument _ =>
        (cutAtTopLevel ',' argument).attach.mapM fun part => readSelector part.1) =
      mark.resolve := by
  simp only [mapM_attach_readSelector]
  cases isMark with
  | universal => rfl
  | plain test => rfl
  | bracketed read => exact (congrArg (Option.map Simple.attr) read).symm
  | functional name argument => rfl

/-- Reading a selector is joining its words. -/
theorem readSelector_eq_joinWords (text : List Char) :
    readSelector text = joinWords Mark.resolve (selectorWords (Text.trim text)) := by
  rw [readSelector]
  dsimp only
  generalize resolver : (fun tests : List (WrittenTest text.length) => List.filterMap _ tests) =
    resolve
  have agrees (tests : List (WrittenTest text.length)) (marks : List Mark)
      (same : List.Forall₂ WrittenTest.IsMark tests marks) :
      resolve tests = marks.filterMap Mark.resolve := by
    rw [← resolver]
    dsimp only
    induction same with
    | nil => rfl
    | @cons test mark tests marks isMark _ inductionHypothesis =>
        rw [List.filterMap_cons, List.filterMap_cons, inductionHypothesis, isMark.resolve_eq]
  rw [joinWords, ← foldlM_readLexemes agrees (Text.length_trim_le text)]
  cases readLexemes (Text.trim text) (Text.length_trim_le text) with
  | none => rfl
  | some lexemes =>
      rw [Option.bind_some]
      dsimp only [joinLexemes]
      cases lexemes.foldlM (Joining.take resolve) ⟨none, none, false⟩ with
      | none => rfl
      | some joining =>
        obtain ⟨left, _ | sign, spaced⟩ := joining <;> rfl

end Css
end MailPress
