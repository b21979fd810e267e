import MailPress.Proofs.Css.TightReading

/-!
# What tests hold in tightened selectors

The tightening scan takes blanks out of what stands in brackets and parentheses, too. A test of an
attribute that is written as it should be, with a name and at most one sign and one value, is read
in the same way without them. The commas that part a list of selectors stay where they are, and
between them stand the written forms of the parts.
-/

namespace MailPress
namespace Css

/-! ## What stands in brackets -/

/-- The value of a test: a string, or a word without blanks. There is no equals sign in it. -/
inductive IsAttributeValue : List Char → Prop
  /-- A string. -/
  | quoted {quote : Char} (opens : isQuote quote = true) {body : List Char} (fresh : quote ∉ body)
      (plain : '=' ∉ body) : IsAttributeValue (quote :: (body ++ [quote]))
  /-- A word. -/
  | bare {value : List Char} (solid : ∀ c ∈ value, Text.isBlank c = false) (plain : '=' ∉ value) :
      IsAttributeValue value

/-- What stands in the brackets of a test, blanks aside: a name, or a name, the sign of a relation
and a value. -/
inductive IsAttributeText : List Char → Prop
  /-- A name alone. -/
  | name {text : List Char} (named : ∀ c ∈ Text.trim text, isNameChar c = true) :
      IsAttributeText text
  /-- A name that is compared with a value. -/
  | test {left sign right : List Char} {relation : Relation}
      (named : ∀ c ∈ Text.trim left, isNameChar c = true) (known : (sign, relation) ∈ relationSigns)
      (value : IsAttributeValue (Text.trim right)) : IsAttributeText (left ++ (sign ++ right))

section Attributes

variable {text left right : List Char}

/-- A name between blanks holds nothing that a test is cut at. -/
theorem of_mem_named
    (named : ∀ c ∈ Text.trim text, isNameChar c = true)
    {c : Char}
    (member : c ∈ text) :
    isQuote c = false ∧ c ≠ '=' ∧ c ∉ signMarks := by
  rcases Text.isBlank_or_mem_trim member with blank | inside
  · obtain ⟨notQuote, _, different, noMark⟩ := of_isBlank blank
    exact ⟨notQuote, different, noMark⟩
  · exact ⟨isQuote_of_isNameChar (named c inside), ne_of_test (named c inside) rfl,
      not_mem_of_test (named c inside) (by decide)⟩

theorem foldl_nextQuote_of_forall
    (unquoted : ∀ c ∈ text, isQuote c = false) :
    text.foldl nextQuote none = none := by
  induction text with
  | nil => rfl
  | cons c rest inductionHypothesis =>
      obtain ⟨notQuote, others⟩ := List.forall_mem_cons.mp unquoted
      rw [List.foldl_cons, nextQuote, notQuote]
      exact inductionHypothesis others

/-- The scan goes on afresh behind a loose character between brackets. -/
theorem tightenedInside_append_cons
    (leftClosed : left.foldl nextQuote none = none)
    {c : Char}
    (loose : IsLooseInSelector c)
    (rightClosed : right.foldl nextQuote none = none) :
    tightenedInside (left ++ c :: right) = tightenedInside left ++ c :: tightenedInside right := by
  have closing : IsLooseInSelector ')' := ⟨rfl, rfl, rfl⟩
  have plain : nextQuote none c = none := by
    rw [nextQuote, loose.2.1]
    rfl
  have wholeClosed : (left ++ c :: right).foldl nextQuote none = none := by
    rw [List.foldl_append, leftClosed, List.foldl_cons, plain, rightClosed]
  refine (List.append_left_inj [')']).mp ?_
  calc
    tightenedInside (left ++ c :: right) ++ ')' :: tightened [] =
        tightened ((left ++ c :: right) ++ [')']) :=
      (tightened_append_cons wholeClosed closing []).symm
    _ = tightened (left ++ c :: (right ++ [')'])) := by rw [List.append_assoc, List.cons_append]
    _ = tightenedInside left ++ c :: tightened (right ++ [')']) :=
      tightened_append_cons leftClosed loose _
    _ = tightenedInside left ++ c :: (tightenedInside right ++ ')' :: tightened []) := by
      rw [tightened_append_cons rightClosed closing]
    _ = (tightenedInside left ++ c :: tightenedInside right) ++ ')' :: tightened [] := by simp

theorem squeezeFrom_of_forall_isBlank
    {keeps : Option Char → Char → Bool}
    {previous : Option Char}
    {pending : Bool}
    (blanks : ∀ c ∈ text, Text.isBlank c = true) :
    squeezeFrom keeps ⟨none, previous, pending⟩ text = [] := by
  induction text generalizing pending with
  | nil => simp [squeezeFrom]
  | cons c rest inductionHypothesis =>
      obtain ⟨blank, others⟩ := List.forall_mem_cons.mp blanks
      rw [squeezeFrom, if_pos blank, inductionHypothesis others]

/-- A value between blanks is kept. -/
theorem trim_tightenedInside_of_value
    (closed : text.foldl nextQuote none = none)
    (value : IsAttributeValue (Text.trim text)) :
    Text.trim (tightenedInside text) = Text.trim text := by
  generalize trimmed : Text.trim text = word at value
  cases value with
  | bare solid plain =>
      rw [← trimmed] at solid ⊢
      exact (respaced_tightenedInside closed).trim_eq solid
  | @quoted quote opens body fresh plain =>
      obtain ⟨lead, trail, split, leadBlanks, trailBlanks⟩ := Text.exists_trim text
      have outside := foldl_nextQuote_of_forall fun c member =>
        isQuote_of_isBlank (leadBlanks c member)
      have written := squeezeFrom_string (keepsBeside isTightInSelector) outside opens fresh trail
      rw [squeezeFrom_of_forall_isBlank leadBlanks, squeezeFrom_of_forall_isBlank trailBlanks,
        List.nil_append, ← tightened] at written
      have whole : text = lead ++ quote :: (body ++ quote :: trail) := by
        rw [split, trimmed]
        simp
      have trimmedWord : Text.trim (quote :: (body ++ [quote])) = quote :: (body ++ [quote]) := by
        rw [← trimmed, Text.trim_trim]
      rw [tightenedInside, whole, written]
      exact Text.trim_append_append (forall_mem_gap _ _ _) (forall_mem_gap _ _ _) trimmedWord
        (List.cons_ne_nil _ _)

/-- There is no equals sign in a value. -/
theorem IsAttributeValue.not_mem {value : List Char} (isValue : IsAttributeValue value) :
    '=' ∉ value := by
  cases isValue with
  | bare solid plain => exact plain
  | @quoted quote opens body fresh plain =>
      have different : '=' ≠ quote := by
        rintro rfl
        cases opens
      simp [different, plain]

/-- A test is read in the same way from its tightened text. -/
theorem readAttributeTest_tightenedInside
    (blanks : ∀ c ∈ text, Text.isBlank c = true → Text.isAscii c = true)
    (closed : text.foldl nextQuote none = none)
    (isText : IsAttributeText text) :
    readAttributeTest (tightenedInside text) = readAttributeTest text := by
  have solid {part : List Char} (subset : part ⊆ text)
      (named : ∀ c ∈ Text.trim part, isNameChar c = true) :
      ∀ c ∈ Text.trim part, Text.isBlank c = false := fun c member =>
    (isLoose_of_isNameChar (blanks c (subset ((Text.trim_infix part).subset member)))
      (named c member)).1
  have respaced := respaced_tightenedInside closed
  cases isText with
  | name named =>
      have fresh : '=' ∉ text := fun member => (of_mem_named named member).2.1 rfl
      rw [readAttributeTest_of_fresh fresh,
        readAttributeTest_of_fresh (mt (respaced.mem_iff rfl).mp fresh),
        respaced.trim_eq (solid (List.Subset.refl text) named)]
  | @test left sign right relation named known value =>
      obtain ⟨marks, rfl, isMark, _⟩ := exists_marks known
      have whole : left ++ (marks ++ ['='] ++ right) = (left ++ marks) ++ '=' :: right := by simp
      have frontClosed : (left ++ marks).foldl nextQuote none = none := by
        refine foldl_nextQuote_of_forall fun c member => ?_
        rcases List.mem_append.mp member with inLeft | inMarks
        · exact (of_mem_named named inLeft).1
        · exact (of_mem_signMarks (isMark c inMarks)).1
      have rightClosed : right.foldl nextQuote none = none := by
        rw [whole, List.foldl_append, frontClosed] at closed
        exact closed
      -- the scan keeps the sign, since no blank stands in it
      obtain ⟨name, sign, front_eq, nameRespaced, signRespaced⟩ :=
        (respaced_tightenedInside frontClosed).exists_append
      obtain rfl := signRespaced.eq_of_forall_not_isBlank fun c member =>
        isBlank_of_mem_signMarks (isMark c member)
      have written : tightenedInside (left ++ (sign ++ ['='] ++ right)) =
          name ++ (sign ++ '=' :: tightenedInside right) := by
        rw [whole, tightenedInside_append_cons frontClosed ⟨rfl, rfl, rfl⟩ rightClosed, front_eq,
          List.append_assoc]
      have value_eq := trim_tightenedInside_of_value rightClosed value
      have read {front behind : List Char} (frontRespaced : Respaced left front)
          (behindRespaced : Respaced right behind) (sameValue : Text.trim behind = Text.trim right) :
          readAttributeTest (front ++ (sign ++ '=' :: behind)) =
            some ⟨Text.lower (String.ofList (Text.trim left)), relation,
              String.ofList (unquote (Text.trim right))⟩ := by
        have fresh : '=' ∉ front := fun member =>
          (of_mem_named named ((frontRespaced.mem_iff rfl).mp member)).2.1 rfl
        have last : ∀ c ∈ front.getLast?, c ∉ signMarks := fun c found mark =>
          (of_mem_named named ((frontRespaced.mem_iff (isBlank_of_mem_signMarks mark)).mp
            (List.mem_of_getLast? found))).2.2 mark
        have freshBehind : '=' ∉ behind := fun member =>
          value.not_mem ((Text.isBlank_or_mem_trim ((behindRespaced.mem_iff rfl).mp
            member)).resolve_left (by decide))
        have absent : ∀ earlier ∈ earlierSigns (sign ++ ['=']), ¬earlier <:+: behind := by
          intro earlier isEarlier inside
          obtain ⟨_, _, _, others⟩ := exists_marks known
          obtain ⟨a, _, rfl, _⟩ := others earlier isEarlier
          exact freshBehind (inside.subset (by simp))
        rw [readAttributeTest_append known fresh last absent, sameValue,
          frontRespaced.trim_eq (solid (List.subset_append_left left _) named)]
      rw [written, read nameRespaced (respaced_tightenedInside rightClosed) value_eq, whole,
        List.append_assoc, read (.refl left) (.refl right) rfl]

end Attributes

/-! ## Lists of selectors -/

/-- Behind blanks the scan is where it was, but may hold a blank back. -/
theorem exists_squeezeFrom_append
    (keeps : Option Char → Char → Bool)
    (previous : Option Char)
    (pending : Bool)
    {lead : List Char}
    (blanks : ∀ c ∈ lead, Text.isBlank c = true) :
    ∃ held, ∀ text, squeezeFrom keeps ⟨none, previous, pending⟩ (lead ++ text) =
      squeezeFrom keeps ⟨none, previous, held⟩ text := by
  induction lead generalizing pending with
  | nil => exact ⟨pending, fun _ => rfl⟩
  | cons c lead inductionHypothesis =>
      obtain ⟨blank, others⟩ := List.forall_mem_cons.mp blanks
      obtain ⟨held, same⟩ := inductionHypothesis true others
      exact ⟨held, fun text => by rw [List.cons_append, squeezeFrom, if_pos blank, same]⟩

/-- What the scan makes of a part of a selector is the written form of the part, blanks aside. -/
theorem trim_squeezeFrom
    (previous : Option Char)
    (pending : Bool)
    (text : List Char) :
    Text.trim (squeezeFrom (keepsBeside isTightInSelector) ⟨none, previous, pending⟩ text) =
      squeeze (keepsBeside isTightInSelector) text := by
  obtain ⟨lead, trail, split, leadBlanks, trailBlanks⟩ := Text.exists_trim text
  have tightens : IsTightened text (squeeze (keepsBeside isTightInSelector) text) :=
    isTightened_squeeze (by decide) text
  cases word : Text.trim text with
  | nil =>
      rw [word, List.append_nil] at split
      have blanks : ∀ c ∈ text, Text.isBlank c = true := by
        rw [split]
        exact List.forall_mem_append.mpr ⟨leadBlanks, trailBlanks⟩
      rw [squeezeFrom_of_forall_isBlank blanks, tightens.eq_nil_iff.mpr word]
      rfl
  | cons c rest =>
      have nonblank : Text.isBlank c = false := Text.isBlank_head?_trim text c (by rw [word]; rfl)
      obtain ⟨held, behindLead⟩ :=
        exists_squeezeFrom_append (keepsBeside isTightInSelector) previous pending leadBlanks
      have written : squeezeFrom (keepsBeside isTightInSelector) ⟨none, previous, pending⟩ text =
          TightenState.gap (keepsBeside isTightInSelector) ⟨none, previous, held⟩ c ++
            squeeze (keepsBeside isTightInSelector) text ++
              squeezeFrom (keepsBeside isTightInSelector)
                (TightenState.run ⟨none, none, false⟩ (c :: rest)) trail := by
        have tail := squeezeFrom_append (keepsBeside isTightInSelector) ⟨none, none, false⟩
          (c :: rest) trail
        rw [List.cons_append] at tail
        rw [squeeze, word, List.append_assoc, ← tail]
        conv => lhs; rw [split, word, List.append_assoc, behindLead, List.cons_append]
        exact squeezeFrom_eq_gap_append previous held nonblank (rest ++ trail)
      have trailWritten := respaced_squeezeFrom (keepsBeside isTightInSelector)
        (TightenState.run ⟨none, none, false⟩ (c :: rest)) trail
      have endBlanks := trailWritten.forall_isBlank_iff.mpr (by
        split
        · exact List.forall_mem_cons.mpr ⟨Text.isBlank_space, trailBlanks⟩
        · exact trailBlanks)
      rw [written]
      refine Text.trim_append_append (forall_mem_gap _ _ _) endBlanks tightens.trim_eq fun empty => ?_
      exact absurd (tightens.eq_nil_iff.mp empty) (by rw [word]; exact List.cons_ne_nil c rest)

/-- A text without the separator is one part. -/
theorem cutFrom_of_not_mem
    {separator : Char}
    {text : List Char}
    (plain : '\\' ∉ text)
    (whole : separator ∉ text)
    (state : CutState) :
    cutFrom separator state text = [text] := by
  induction text generalizing state with
  | nil => rfl
  | cons c rest inductionHypothesis =>
      obtain ⟨notEscape, plainRest⟩ := List.ne_and_not_mem_of_not_mem_cons plain
      obtain ⟨different, wholeRest⟩ := List.ne_and_not_mem_of_not_mem_cons whole
      rw [cutFrom_cons separator state notEscape.symm,
        if_neg fun separates => different separates.1.symm, inductionHypothesis plainRest wholeRest]
      rfl

/-- The parts of a text, and those of what the scan makes of it from a state on: the first one is
scanned from there, and the others are written forms, blanks aside. -/
def CutsAlike (state : TightenState) (parts tightParts : List (List Char)) : Prop :=
  ∃ first others tightOthers blanks, parts = first :: others ∧
    tightParts =
      (squeezeFrom (keepsBeside isTightInSelector) state first ++ blanks) :: tightOthers ∧
      (∀ c ∈ blanks, Text.isBlank c = true) ∧
        tightOthers.map Text.trim = others.map (squeeze (keepsBeside isTightInSelector))

theorem CutsAlike.cons
    {state next : TightenState}
    {parts tightParts : List (List Char)}
    (alike : CutsAlike next parts tightParts)
    {c : Char}
    {front : List Char}
    (written : ∀ more, squeezeFrom (keepsBeside isTightInSelector) state (c :: more) =
      front ++ squeezeFrom (keepsBeside isTightInSelector) next more) :
    CutsAlike state (consFirst c parts) (prependFirst front tightParts) := by
  obtain ⟨first, others, tightOthers, blanks, rfl, rfl, areBlank, same⟩ := alike
  refine ⟨c :: first, others, tightOthers, blanks, rfl, ?_, areBlank, same⟩
  rw [written, List.append_assoc]
  rfl

theorem CutsAlike.comma
    {state next : TightenState}
    (outside : next.quote = none)
    {parts tightParts : List (List Char)}
    (alike : CutsAlike next parts tightParts) :
    CutsAlike state ([] :: parts) ([] :: tightParts) := by
  obtain ⟨first, others, tightOthers, blanks, rfl, rfl, areBlank, same⟩ := alike
  obtain ⟨quote, previous, pending⟩ := next
  obtain rfl : quote = none := outside
  refine ⟨[], first :: others, _, [], rfl, by rw [squeezeFrom_nil]; rfl,
    List.forall_mem_nil _, ?_⟩
  rw [List.map_cons, List.map_cons, same, Text.trim_append_of_forall_isBlank areBlank,
    trim_squeezeFrom]

/-- The scan keeps the commas at which a text is cut. -/
theorem cutsAlike_squeezeFrom
    {text : List Char}
    (plain : '\\' ∉ text)
    {trail : List Char}
    (trailBlanks : ∀ c ∈ trail, Text.isBlank c = true)
    (state : CutState)
    (previous : Option Char)
    (pending : Bool) :
    CutsAlike ⟨state.quote, previous, pending⟩ (cutFrom ',' state text)
      (cutFrom ',' state
        (squeezeFrom (keepsBeside isTightInSelector) ⟨state.quote, previous, pending⟩ text ++
          trail)) := by
  induction text generalizing state previous pending with
  | nil =>
      have uncut := cutFrom_of_not_mem
        (fun member => ne_of_test (d := '\\') (trailBlanks _ member) rfl rfl)
        (fun member => ne_of_test (d := ',') (trailBlanks _ member) rfl rfl) state
      refine ⟨[], [], [], trail, rfl, ?_, trailBlanks, rfl⟩
      rw [squeezeFrom_nil, List.nil_append]
      exact uncut
  | cons c rest inductionHypothesis =>
      obtain ⟨notEscape, plainRest⟩ := List.ne_and_not_mem_of_not_mem_cons plain
      rw [cutFrom_cons ',' state notEscape.symm]
      -- any character but a comma at the top is written behind some others that cut nothing
      have goOn (front : List Char)
          (written : ∀ more, squeezeFrom (keepsBeside isTightInSelector)
            ⟨state.quote, previous, pending⟩ (c :: more) =
              front ++ squeezeFrom (keepsBeside isTightInSelector)
                (TightenState.after ⟨state.quote, previous, pending⟩ c) more)
          (unbarred : Unbarred [','] state front) (run_eq : state.run front = state.after c) :
          CutsAlike ⟨state.quote, previous, pending⟩
            (consFirst c (cutFrom ',' (state.after c) rest))
            (cutFrom ',' state (squeezeFrom (keepsBeside isTightInSelector)
              ⟨state.quote, previous, pending⟩ (c :: rest) ++ trail)) := by
        generalize next_eq : TightenState.after ⟨state.quote, previous, pending⟩ c = next at written
        have alike := inductionHypothesis plainRest (state.after c) next.previous next.pending
        have quote_eq : (state.after c).quote = next.quote := by
          rw [← next_eq, TightenState.quote_after, CutState.quote_after]
        rw [quote_eq] at alike
        rw [written, List.append_assoc, cutFrom_append unbarred, run_eq]
        exact alike.cons written
      obtain ⟨depth, _ | quote⟩ := state
      · have proper : CutState.IsProper ⟨depth, none⟩ := by
          rintro _ ⟨⟩
        by_cases blank : Text.isBlank c = true
        · rw [if_neg fun separates => ne_of_test blank rfl separates.1]
          refine goOn [] (fun more => ?_) trivial (CutState.after_of_isBlank proper blank).symm
          simp [squeezeFrom, TightenState.after, blank]
        · rw [Bool.not_eq_true] at blank
          by_cases separates : c = ',' ∧ CutState.mk depth none = ⟨0, none⟩
          · obtain ⟨rfl, ⟨⟩⟩ := separates
            have noGap : TightenState.gap (keepsBeside isTightInSelector)
                ⟨none, previous, pending⟩ ',' = [] := by
              simp [TightenState.gap, keepsBeside, isTightInSelector]
            rw [if_pos ⟨rfl, rfl⟩, squeezeFrom_cons_of_nonblank _ rfl rfl, noGap, List.nil_append,
              List.cons_append, cutFrom_cons ',' _ (by decide), if_pos ⟨rfl, rfl⟩]
            exact (inductionHypothesis plainRest ⟨0, none⟩ (some ',') false).comma rfl
          · rw [if_neg separates]
            have gapUnbarred : Unbarred [','] ⟨depth, none⟩
                (TightenState.gap (keepsBeside isTightInSelector) ⟨none, previous, pending⟩ c) := by
              unfold TightenState.gap
              split
              · exact ⟨by decide, fun _ => by decide, trivial⟩
              · trivial
            have gapRun := CutState.run_of_forall_isBlank proper
              (forall_mem_gap (keepsBeside isTightInSelector) ⟨none, previous, pending⟩ c)
            refine goOn (_ ++ [c]) (fun more => ?_) (unbarred_append_iff.mpr ⟨gapUnbarred, ?_⟩) ?_
            · rw [squeezeFrom_cons_of_nonblank _ rfl blank, List.append_cons]
            · rw [gapRun]
              exact ⟨notEscape.symm, fun top isComma => separates ⟨List.mem_singleton.mp isComma, top⟩,
                trivial⟩
            · rw [CutState.run_append, gapRun]
              rfl
      · rw [if_neg (by rintro ⟨_, ⟨⟩⟩)]
        exact goOn [c] (fun more => rfl) ⟨notEscape.symm, by rintro ⟨⟩, trivial⟩ rfl

/-- The parts of a tightened list are the written forms of its parts, blanks aside. -/
theorem map_trim_cutAtTopLevel
    {text : List Char}
    (plain : '\\' ∉ text) :
    (cutAtTopLevel ',' (tightenedInside text)).map Text.trim =
      (cutAtTopLevel ',' text).map (squeeze (keepsBeside isTightInSelector)) := by
  have trailBlanks := forall_mem_gap (keepsBeside isTightInSelector)
    (TightenState.run ⟨none, none, false⟩ text) ')'
  obtain ⟨first, others, tightOthers, blanks, cut, tightCut, areBlank, same⟩ :=
    cutsAlike_squeezeFrom plain trailBlanks ⟨0, none⟩ none false
  rw [cutAtTopLevel, cutAtTopLevel, cut, tightenedInside, tightened, tightCut, List.map_cons,
    List.map_cons, same, Text.trim_append_of_forall_isBlank areBlank, trim_squeezeFrom]

end Css
end MailPress
