import MailPress.Proofs.Css.Prelude
import MailPress.Proofs.Text.Search

/-!
# Strings in written forms

A string goes from a quote outside strings to the next same quote that no backslash escapes. The
reader finds strings that way. The tightening scan looks for them itself and knows no escapes, so
it takes a string for ended at an escaped quote, and whatever follows is out of step.

Where the scan is in step, the string is kept as it is by the written forms of selectors and
values. The written form of a prelude keeps it exactly when the string holds no space just inside
a parenthesis, since the two replacements do not look at strings.
-/

namespace MailPress
namespace Css

/-! ## Strings as the reader finds them -/

/-- The inside of a string: its own quote stands only behind a backslash. -/
inductive IsStringBody (quote : Char) : List Char → Prop
  /-- A string may be empty. -/
  | nil : IsStringBody quote []
  /-- A character that neither ends the string nor escapes the next one. -/
  | plain {c : Char} (notQuote : c ≠ quote) (notEscape : c ≠ '\\') {body : List Char}
      (rest : IsStringBody quote body) : IsStringBody quote (c :: body)
  /-- A backslash and the character it escapes. -/
  | escaped (c : Char) {body : List Char} (rest : IsStringBody quote body) :
      IsStringBody quote ('\\' :: c :: body)

/-- A text whose strings all end in it. -/
inductive EndsOutside : List Char → Prop
  /-- Nothing is read yet. -/
  | nil : EndsOutside []
  /-- A character outside strings; a backslash escapes nothing there. -/
  | plain {c : Char} (notQuote : isQuote c = false) {text : List Char}
      (rest : EndsOutside text) : EndsOutside (c :: text)
  /-- A whole string. -/
  | string {quote : Char} (opens : isQuote quote = true) {body text : List Char}
      (inside : IsStringBody quote body) (rest : EndsOutside text) :
      EndsOutside (quote :: (body ++ quote :: text))

/-- A text with a string in it, taken apart at the quotes of the string. -/
structure StringAt (text before : List Char) (quote : Char) (body after : List Char) : Prop where
  /-- The string with what stands before and behind it. -/
  text_eq : text = before ++ quote :: (body ++ quote :: after)
  /-- The string starts outside other strings. -/
  outside : EndsOutside before
  /-- It starts with a quote. -/
  opens : isQuote quote = true
  /-- It goes on to the next same quote that is not escaped. -/
  inside : IsStringBody quote body

/-- The reader reads a string to its end, whatever it holds. -/
theorem readUntil_stringBody
    (stops : List Char)
    {quote : Char}
    (opens : isQuote quote = true)
    (depth : Nat)
    {body : List Char}
    (inside : IsStringBody quote body)
    (rest : List Char) :
    readUntil stops (.quoted quote depth) (body ++ quote :: rest) =
      ((readUntil stops (.plain depth) rest).push quote).prepend body := by
  have notEscape : quote ≠ '\\' := by
    rintro rfl
    cases opens
  have read (c : Char) (notEscape : c ≠ '\\') (more : List Char) :
      readUntil stops (.quoted quote depth) (c :: more) =
        if c = quote then (readUntil stops (.plain depth) more).push c
        else (readUntil stops (.quoted quote depth) more).push c := by
    rw [readUntil]
    rintro d others rfl
    exact absurd rfl notEscape
  induction inside with
  | nil =>
      rw [List.nil_append, read quote notEscape, if_pos rfl]
      rfl
  | @plain c notQuote plain body rest inductionHypothesis =>
      rw [List.cons_append, read c plain, if_neg notQuote, inductionHypothesis]
      rfl
  | escaped c rest inductionHypothesis =>
      rw [List.cons_append, List.cons_append, readUntil, inductionHypothesis]
      rfl

/-- The scan is in step with the reader at a string: it is outside strings before it, and takes
the same quote for its end. -/
structure InStep (before : List Char) (quote : Char) (body : List Char) : Prop where
  /-- To the scan, which knows no escapes, all strings have ended. -/
  outside : before.foldl nextQuote none = none
  /-- The string does not hold its own quote, escaped. -/
  fresh : quote ∉ body

instance (before : List Char) (quote : Char) (body : List Char) :
    Decidable (InStep before quote body) :=
  decidable_of_iff (before.foldl nextQuote none = none ∧ quote ∉ body)
    ⟨fun both => ⟨both.1, both.2⟩, fun inStep => ⟨inStep.1, inStep.2⟩⟩

theorem IsStringBody.fresh
    {quote : Char}
    {body : List Char}
    (inside : IsStringBody quote body)
    (unescaped : '\\' ∉ body) :
    quote ∉ body := by
  induction inside with
  | nil => exact List.not_mem_nil
  | plain notQuote notEscape rest inductionHypothesis =>
      have later := inductionHypothesis fun member => unescaped (List.mem_cons_of_mem _ member)
      exact fun member => (List.mem_cons.mp member).elim (fun same => notQuote same.symm) later
  | escaped c rest inductionHypothesis => exact absurd List.mem_cons_self unescaped

/-- Inside a string the scan waits for the quote. -/
theorem foldl_nextQuote_of_fresh
    {quote : Char}
    {body : List Char}
    (fresh : quote ∉ body) :
    body.foldl nextQuote (some quote) = some quote := by
  induction body with
  | nil => rfl
  | cons c body inductionHypothesis =>
      obtain ⟨different, freshRest⟩ := List.ne_and_not_mem_of_not_mem_cons fresh
      rw [List.foldl_cons, nextQuote, if_neg different.symm, inductionHypothesis freshRest]

theorem EndsOutside.foldl_nextQuote_eq_none
    {text : List Char}
    (outside : EndsOutside text)
    (unescaped : '\\' ∉ text) :
    text.foldl nextQuote none = none := by
  induction outside with
  | nil => rfl
  | plain notQuote rest inductionHypothesis =>
      rw [List.foldl_cons, nextQuote, notQuote]
      exact inductionHypothesis fun member => unescaped (List.mem_cons_of_mem _ member)
  | @string quote opens body text inside rest inductionHypothesis =>
      simp only [List.mem_cons, List.mem_append, not_or] at unescaped
      obtain ⟨_, bodyUnescaped, _, restUnescaped⟩ := unescaped
      rw [List.foldl_cons, nextQuote, if_pos opens, List.foldl_append,
        foldl_nextQuote_of_fresh (inside.fresh bodyUnescaped), List.foldl_cons, nextQuote,
        if_pos rfl, inductionHypothesis restUnescaped]

/-- Without backslashes the scan is in step at every string. -/
theorem StringAt.inStep
    {text before body after : List Char}
    {quote : Char}
    (string : StringAt text before quote body after)
    (unescaped : '\\' ∉ text) :
    InStep before quote body := by
  rw [string.text_eq] at unescaped
  simp only [List.mem_append, List.mem_cons, not_or] at unescaped
  exact ⟨string.outside.foldl_nextQuote_eq_none unescaped.1, string.inside.fresh unescaped.2.2.1⟩

/-! ## Strings and the scan -/

/-- The written form holds a string where the text does: between what the written form makes of
the text before it and of the text behind it. -/
def KeepsString (before : List Char) (quote : Char) (body after written : List Char) : Prop :=
  ∃ front back, written = front ++ quote :: (body ++ quote :: back) ∧
    Respaced before front ∧ Respaced after back

section

variable {text before body after : List Char} {quote : Char}

/-- The scan keeps a string at which it is in step. -/
theorem keepsString_squeeze
    (keeps : Option Char → Char → Bool)
    (string : StringAt text before quote body after)
    (inStep : InStep before quote body) :
    KeepsString before quote body after (squeeze keeps text) := by
  have nonblank := isBlank_of_isQuote string.opens
  have trimmed : Text.trim text =
      Text.trimStart before ++ quote :: (body ++ quote :: Text.trimEnd after) := by
    have apart := Text.trimEnd_append_cons (Text.trimStart before ++ quote :: body) nonblank after
    rw [List.append_assoc, List.append_assoc] at apart
    rw [string.text_eq, Text.trim, Text.trimStart_append_cons before nonblank]
    exact apart
  have outside : (Text.trimStart before).foldl nextQuote none = none :=
    (Respaced.trimStart before).foldl_nextQuote_eq.trans inStep.outside
  have written := squeezeFrom_string keeps outside string.opens inStep.fresh (Text.trimEnd after)
  rw [← trimmed, ← squeeze, ← List.append_assoc] at written
  refine ⟨_, _, written, ?_, ?_⟩
  · -- the scan of the text up to the quote, which is kept at its end
    have respaced := respaced_squeezeFrom keeps ⟨none, none, false⟩
      (Text.trimStart before ++ [quote])
    have quote_eq : (TightenState.run ⟨none, none, false⟩ (Text.trimStart before)).quote = none := by
      rw [TightenState.quote_run]
      exact outside
    rw [squeezeFrom_append, squeezeFrom_cons_of_nonblank keeps quote_eq nonblank,
      ← List.append_assoc] at respaced
    exact (Respaced.trimStart before).trans (Respaced.of_concat nonblank respaced)
  · exact (Respaced.trimEnd after).trans
      (respaced_squeezeFrom keeps ⟨none, some quote, false⟩ (Text.trimEnd after))

/-! ## Strings and the replacements -/

theorem closeUp_append_cons
    {c : Char}
    (notSpace : c ≠ ' ')
    (notOpening : c ≠ '(')
    (afterOpening : Bool)
    (first second : List Char) :
    closeUp afterOpening (first ++ c :: second) =
      closeUp afterOpening first ++ c :: closeUp false second := by
  induction first generalizing afterOpening with
  | nil =>
      have other : (c == '(') = false := beq_eq_false_iff_ne.mpr notOpening
      simp [closeUp, notSpace, other]
  | cons d first inductionHypothesis =>
      simp only [List.cons_append, closeUp, inductionHypothesis]
      split <;> rfl

theorem closeDown_append_cons
    {c : Char}
    (notSpace : c ≠ ' ')
    (notClosing : c ≠ ')')
    (first second : List Char) :
    closeDown (first ++ c :: second) = closeDown first ++ c :: closeDown second := by
  fun_induction closeDown first with
  | case1 first inductionHypothesis =>
      rw [List.cons_append, List.cons_append, closeDown, inductionHypothesis, List.cons_append]
  | case2 d first different inductionHypothesis =>
      rw [List.cons_append, closeDown_cons, inductionHypothesis, List.cons_append]
      rintro ⟨rfl, closing⟩
      cases first with
      | nil => exact notClosing (Option.some.inj closing)
      | cons e first =>
          obtain rfl : e = ')' := Option.some.inj closing
          exact different first rfl rfl
  | case3 => exact closeDown_cons fun pair => notSpace pair.1

theorem closeUp_sublist (afterOpening : Bool) (text : List Char) :
    (closeUp afterOpening text).Sublist text := by
  fun_induction closeUp afterOpening text with
  | case1 => exact List.Sublist.slnil
  | case2 afterOpening c rest left inductionHypothesis => exact inductionHypothesis.cons c
  | case3 afterOpening c rest kept inductionHypothesis => exact inductionHypothesis.cons_cons c

theorem closeDown_sublist (text : List Char) : (closeDown text).Sublist text := by
  fun_induction closeDown text with
  | case1 rest inductionHypothesis => exact (inductionHypothesis.cons_cons ')').cons ' '
  | case2 c rest different inductionHypothesis => exact inductionHypothesis.cons_cons c
  | case3 => exact List.Sublist.slnil

theorem pair_infix_cons_iff (first second c : Char) (text : List Char) :
    [first, second] <:+: c :: text ↔
      (first = c ∧ text.head? = some second) ∨ [first, second] <:+: text := by
  rw [List.infix_cons_iff, List.cons_prefix_cons, List.singleton_prefix_iff_head?_eq_some]

theorem closeUp_eq_self_iff (afterOpening : Bool) (text : List Char) :
    closeUp afterOpening text = text ↔
      ¬(afterOpening = true ∧ text.head? = some ' ') ∧ ¬['(', ' '] <:+: text := by
  fun_induction closeUp afterOpening text with
  | case1 => simp
  | case2 afterOpening c rest left inductionHypothesis =>
      have shorter := (closeUp_sublist false rest).length_le
      refine iff_of_false (fun same => ?_) ?_
      · rw [same, List.length_cons] at shorter
        omega
      · simp only [Bool.and_eq_true, beq_iff_eq] at left
        simp [left]
  | case3 afterOpening c rest kept inductionHypothesis =>
      rw [List.cons_inj_right, inductionHypothesis, pair_infix_cons_iff]
      simp only [Bool.and_eq_true, beq_iff_eq] at kept
      simp [kept, eq_comm (a := '(')]

theorem closeDown_eq_self_iff (text : List Char) :
    closeDown text = text ↔ ¬[' ', ')'] <:+: text := by
  fun_induction closeDown text with
  | case1 rest inductionHypothesis =>
      have shorter := (closeDown_sublist rest).length_le
      refine iff_of_false (fun same => ?_) (fun free => free ?_)
      · have lengths := congrArg List.length same
        simp only [List.length_cons] at lengths
        omega
      · exact List.infix_append [] [' ', ')'] rest
  | case2 c rest different inductionHypothesis =>
      rw [List.cons_inj_right, inductionHypothesis, pair_infix_cons_iff]
      have apart : ¬(' ' = c ∧ rest.head? = some ')') := by
        rintro ⟨rfl, closing⟩
        obtain ⟨tail, rfl⟩ := List.head?_eq_some_iff.mp closing
        exact different tail rfl rfl
      simp [apart]
  | case3 => simp

/-- The replacements leave a text alone exactly when it holds no space just inside a
parenthesis. -/
theorem closeDown_closeUp_eq_self_iff (text : List Char) :
    closeDown (closeUp false text) = text ↔
      ¬['(', ' '] <:+: text ∧ ¬[' ', ')'] <:+: text := by
  have kept : closeDown (closeUp false text) = text ↔
      closeUp false text = text ∧ closeDown text = text := by
    constructor
    · intro same
      have up_eq : closeUp false text = text := by
        have shorter := (closeDown_sublist (closeUp false text)).length_le
        rw [same] at shorter
        exact (closeUp_sublist false text).eq_of_length_le shorter
      rw [up_eq] at same
      exact ⟨up_eq, same⟩
    · rintro ⟨up_eq, down_eq⟩
      rw [up_eq, down_eq]
  rw [kept, closeUp_eq_self_iff, closeDown_eq_self_iff]
  simp

/-! ## Written forms -/

theorem eq_of_respaced_append_cons
    {first second firstRest secondRest : List Char}
    (firstRespaced : Respaced before first)
    (secondRespaced : Respaced before second)
    (nonblank : Text.isBlank quote = false)
    (same : first ++ quote :: firstRest = second ++ quote :: secondRest) :
    first = second ∧ firstRest = secondRest := by
  -- a longer text would hold one more character that is no blank
  have noLonger {shorter more : List Char} (short : Respaced before shorter)
      (long : Respaced before (shorter ++ quote :: more)) : False := by
    have lengths := congrArg List.length (short.filter_eq.trans long.filter_eq.symm)
    simp [nonblank] at lengths
  rcases List.append_eq_append_iff.mp same with ⟨_ | ⟨c, more⟩, rfl, rest⟩ | ⟨_ | ⟨c, more⟩, rfl, rest⟩
  · exact ⟨(List.append_nil first).symm, (List.cons.inj rest).2⟩
  · obtain ⟨rfl, _⟩ := List.cons.inj rest
    exact (noLonger firstRespaced secondRespaced).elim
  · exact ⟨List.append_nil second, (List.cons.inj rest).2.symm⟩
  · obtain ⟨rfl, _⟩ := List.cons.inj rest
    exact (noLonger secondRespaced firstRespaced).elim

/-- A written prelude keeps a string exactly when the replacements find nothing in it. -/
theorem keepsString_minifyPrelude_iff
    {prelude : String}
    (string : StringAt prelude.toList before quote body after)
    (inStep : InStep before quote body) :
    KeepsString before quote body after (minifyPrelude prelude).toList ↔
      ¬['(', ' '] <:+: body ∧ ¬[' ', ')'] <:+: body := by
  have different {c : Char} (notQuote : isQuote c = false) : quote ≠ c := by
    rintro rfl
    rw [string.opens] at notQuote
    cases notQuote
  obtain ⟨front, back, tightened, frontRespaced, backRespaced⟩ :=
    keepsString_squeeze (keepsBeside isTightInPrelude) string inStep
  have respaced (text : List Char) : Respaced text (closeDown (closeUp false text)) :=
    (respaced_closeUp false text).trans (respaced_closeDown _)
  have written : (minifyPrelude prelude).toList = closeDown (closeUp false front) ++
      quote :: (closeDown (closeUp false body) ++ quote :: closeDown (closeUp false back)) := by
    have notSpace : quote ≠ ' ' := different rfl
    have notOpening : quote ≠ '(' := different rfl
    have notClosing : quote ≠ ')' := different rfl
    rw [toList_minifyPrelude, tighten_eq_squeeze, tightened,
      closeUp_append_cons notSpace notOpening, closeUp_append_cons notSpace notOpening,
      closeDown_append_cons notSpace notClosing, closeDown_append_cons notSpace notClosing]
  rw [← closeDown_closeUp_eq_self_iff]
  constructor
  · rintro ⟨otherFront, otherBack, kept, otherRespaced, _⟩
    have starts := eq_of_respaced_append_cons (frontRespaced.trans (respaced front)) otherRespaced
      (isBlank_of_isQuote string.opens) (written.symm.trans kept)
    have free : quote ∉ closeDown (closeUp false body) := fun member =>
      inStep.fresh (((closeDown_sublist _).trans (closeUp_sublist false body)).subset member)
    have cut := congrArg (Text.splitOnce [quote]) starts.2
    rw [Text.splitOnce_append_cons free, Text.splitOnce_append_cons inStep.fresh] at cut
    exact congrArg Prod.fst (Option.some.inj cut)
  · intro kept
    rw [kept] at written
    exact ⟨_, _, written, frontRespaced.trans (respaced front), backRespaced.trans (respaced back)⟩

/-- The written forms keep each string at which the scan is in step: those of selectors and
values whatever it holds, that of a prelude exactly when it holds no space just inside a
parenthesis. -/
theorem written_forms_keep_string
    {written : String}
    (string : StringAt written.toList before quote body after)
    (inStep : InStep before quote body) :
    KeepsString before quote body after (minifySelector written).toList ∧
      KeepsString before quote body after (minifyValue written).toList ∧
      (KeepsString before quote body after (minifyPrelude written).toList ↔
        ¬['(', ' '] <:+: body ∧ ¬[' ', ')'] <:+: body) := by
  refine ⟨?_, ?_, keepsString_minifyPrelude_iff string inStep⟩
  · rw [toList_minifySelector]
    exact keepsString_squeeze (keepsBeside isTightInSelector) string inStep
  · rw [toList_minifyValue]
    exact keepsString_squeeze (keepsBeside isTightInValue) string inStep

/-- A string with blanks around a comma, behind a name and two blanks. -/
theorem written_forms_keep_string_comma :
    StringAt "a  'b ,  c' , d".toList ['a', ' ', ' '] '\'' ['b', ' ', ',', ' ', ' ', 'c']
        [' ', ',', ' ', 'd'] ∧
      InStep ['a', ' ', ' '] '\'' ['b', ' ', ',', ' ', ' ', 'c'] ∧
      KeepsString ['a', ' ', ' '] '\'' ['b', ' ', ',', ' ', ' ', 'c'] [' ', ',', ' ', 'd']
        (minifyPrelude "a  'b ,  c' , d").toList := by
  have inside : IsStringBody '\'' ['b', ' ', ',', ' ', ' ', 'c'] := by
    repeat' first | exact .nil | refine .plain (by decide) (by decide) ?_
  have string : StringAt "a  'b ,  c' , d".toList ['a', ' ', ' '] '\''
      ['b', ' ', ',', ' ', ' ', 'c'] [' ', ',', ' ', 'd'] :=
    ⟨by decide, .plain rfl (.plain rfl (.plain rfl .nil)), rfl, inside⟩
  have inStep : InStep ['a', ' ', ' '] '\'' ['b', ' ', ',', ' ', ' ', 'c'] := by decide
  exact ⟨string, inStep, (written_forms_keep_string string inStep).2.2.mpr (by decide)⟩

/-- A string that holds its own quote, escaped, and two blanks behind it: all three written forms
lose one of them. -/
theorem escaped_quote_loses_blank :
    StringAt "\"a\\\"  b\"".toList [] '"' ['a', '\\', '"', ' ', ' ', 'b'] [] ∧
      ¬KeepsString [] '"' ['a', '\\', '"', ' ', ' ', 'b'] []
        (minifySelector "\"a\\\"  b\"").toList ∧
      ¬KeepsString [] '"' ['a', '\\', '"', ' ', ' ', 'b'] []
        (minifyValue "\"a\\\"  b\"").toList ∧
      ¬KeepsString [] '"' ['a', '\\', '"', ' ', ' ', 'b'] []
        (minifyPrelude "\"a\\\"  b\"").toList := by
  have inside : IsStringBody '"' ['a', '\\', '"', ' ', ' ', 'b'] :=
    .plain (by decide) (by decide) (.escaped '"'
      (.plain (by decide) (by decide) (.plain (by decide) (by decide)
        (.plain (by decide) (by decide) .nil))))
  have shortened {written : List Char} (short : written.length = 7) :
      ¬KeepsString [] '"' ['a', '\\', '"', ' ', ' ', 'b'] [] written := by
    rintro ⟨front, back, rfl, _, _⟩
    simp at short
    omega
  refine ⟨⟨by decide, .nil, rfl, inside⟩, shortened ?_, shortened ?_, shortened ?_⟩ <;> decide

end

end Css
end MailPress
