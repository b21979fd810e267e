import MailPress.Proofs.Css.RoundTrip
import MailPress.Proofs.Css.Thinned
import MailPress.Proofs.Css.Shape

/-!
# Contained sheets

A source is clean when its strings, brackets and comments are closed, leaving its comments out
starts no other one, and no backslash outside strings stands in front of a quote or a bracket.
All texts that are read of a clean source are contained, and so are their written forms. Only
opening braces may stand outside strings and brackets, and only in declarations.
-/

namespace MailPress
namespace Css

/-- A source whose texts are contained. -/
structure IsClean (text : List Char) : Prop where
  /-- Every string and every bracket ends. -/
  place_run : (Scan.top.run (withoutComments text)).place = .top
  /-- Leaving comments out starts no other one. -/
  uncommented : Avoids startsComment .top (withoutComments text)
  /-- Outside strings, no backslash stands in front of a quote or a bracket. -/
  unescaped : Avoids escapesMark .top (withoutComments text)

namespace IsClean

variable {text rest : List Char}

theorem nil : IsClean [] :=
  ⟨rfl, trivial, trivial⟩

/-- What follows where the scan is outside everything is clean. -/
theorem of_append
    (clean : IsClean text)
    {front : List Char}
    (split : withoutComments text = front ++ withoutComments rest)
    (outside : Scan.top.run front = .top) :
    IsClean rest := by
  obtain ⟨place_run, uncommented, unescaped⟩ := clean
  rw [split] at place_run uncommented unescaped
  rw [Scan.run_append, outside] at place_run
  rw [avoids_append_iff, outside] at uncommented unescaped
  exact ⟨place_run, uncommented.2, unescaped.2⟩

end IsClean

theorem stop_readUntil
    (stops : List Char)
    (state : ScanState)
    (text : List Char) :
    ((readUntil stops state text).stop = none → (readUntil stops state text).rest = []) ∧
      ∀ c ∈ (readUntil stops state text).stop, c ∈ stops := by
  fun_induction readUntil stops state text with
  | case1 => simp
  | case8 depth c rest uncommented stopped =>
      refine ⟨by simp, ?_⟩
      rintro _ ⟨⟩
      exact stopped.2
  | _ => assumption

/-- A stretch of a clean source is contained, and so is what follows. -/
theorem IsClean.stretch
    {text : List Char}
    (clean : IsClean text)
    {stops : List Char}
    (inert : IsStopList stops) :
    IsContained stops (readUntil stops (.plain 0) text).text ∧
      Avoids escapesMark .top (readUntil stops (.plain 0) text).text ∧
      IsClean (readUntil stops (.plain 0) text).rest := by
  have split : withoutComments text = _ := text_readUntil_nil inert (.plain 0) text
  obtain ⟨unbarred, ends⟩ := avoids_readUntil stops text Matches.top
  obtain ⟨atEnd, isStop⟩ := stop_readUntil stops (.plain 0) text
  cases stop : (readUntil stops (.plain 0) text).stop with
  | none =>
      have whole := split
      rw [stop, List.append_nil] at whole
      rw [atEnd stop]
      exact ⟨⟨whole ▸ clean.place_run, whole ▸ clean.uncommented, unbarred⟩,
        whole ▸ clean.unescaped, .nil⟩
  | some c =>
      have place_run := ends (by rw [stop]; exact nofun)
      rw [stop] at split isStop
      have outside : Scan.top.run ((readUntil stops (.plain 0) text).text ++ [c]) = .top := by
        rw [Scan.run_append_cons Scan.isProper_top (inert c (isStop c rfl)), place_run]
        rfl
      have uncommented := clean.uncommented
      have unescaped := clean.unescaped
      rw [split, avoids_append_iff] at uncommented unescaped
      refine ⟨⟨place_run, uncommented.1, unbarred⟩, unescaped.1, clean.of_append ?_ outside⟩
      rw [split, List.append_assoc, List.singleton_append]

/-! ## Parts of a contained text -/

/-- Behind a backslash and the character that it stands in front of, a scan is where it was. -/
theorem next_next_backslash
    {scan : Scan}
    (proper : scan.place.IsProper)
    (plain : scan.isEscaped = false)
    {c : Char}
    (unescaped : escapesMark (scan.next '\\') c = false) :
    ((scan.next '\\').next c).place = scan.place ∧
      ((scan.next '\\').next c).isEscaped = false := by
  obtain ⟨⟨depth, quote⟩, held⟩ := scan
  cases quote with
  | some quote =>
      have here : Matches (.quoted quote depth) ⟨⟨depth, some quote⟩, held⟩ := by
        refine ⟨rfl, proper quote rfl, ?_⟩
        rintro rfl
        cases plain
      have after := here.next_next_backslash c
      exact ⟨after.1, after.isEscaped_quoted⟩
  | none =>
      have next_eq : Scan.next ⟨⟨depth, none⟩, held⟩ '\\' = ⟨⟨depth, none⟩, some '\\'⟩ := rfl
      rw [next_eq] at unescaped ⊢
      have unmarked : isMark c = false := unescaped
      have after_eq : CutState.after ⟨depth, none⟩ c = ⟨depth, none⟩ := by
        simp only [isMark, Bool.or_eq_false_iff, List.contains_eq_mem, List.mem_cons,
          decide_eq_false_iff_not, not_or] at unmarked
        simp [CutState.after, unmarked]
      rw [Scan.next_of_not_isEscaped rfl, after_eq]
      exact ⟨rfl, rfl⟩

/-- The parts of a cut end outside strings and brackets when the text does, and a scan of a part
meets nothing that a scan of the text does not meet. The first part goes on from where the cut
starts. -/
theorem run_of_cutFrom_eq
    {separator : Char}
    (inert : isInert separator = true)
    {state : CutState}
    {text first : List Char}
    {others : List (List Char)}
    (cut : cutFrom separator state text = first :: others)
    {scan : Scan}
    (proper : scan.place.IsProper)
    (place_eq : scan.place = state)
    (plain : scan.isEscaped = false)
    (unescaped : Avoids escapesMark scan text)
    (ends : (scan.run text).place = .top) :
    (scan.run first).place = .top ∧ (∀ part ∈ others, (Scan.top.run part).place = .top) ∧
      ∀ bad, Avoids bad scan text →
        Avoids bad scan first ∧ ∀ part ∈ others, Avoids bad .top part := by
  fun_induction cutFrom separator state text generalizing scan first others with
  | case1 state =>
      obtain ⟨rfl, rfl⟩ := List.cons.inj cut
      exact ⟨ends, by simp, fun bad avoids => ⟨avoids, by simp⟩⟩
  | case2 state c rest inductionHypothesis =>
      obtain ⟨second, parts, cutRest⟩ :=
        List.exists_cons_of_ne_nil (cutFrom_ne_nil separator state rest)
      rw [cutRest] at cut
      obtain ⟨rfl, rfl⟩ := List.cons.inj cut
      obtain ⟨sameplace, notEscaped⟩ := next_next_backslash proper plain unescaped.2.1
      have nextProper := Scan.isProper_next (Scan.isProper_next proper '\\') c
      obtain ⟨firstEnds, othersEnd, avoids⟩ := inductionHypothesis cutRest nextProper
        (sameplace.trans place_eq) notEscaped unescaped.2.2 ends
      refine ⟨firstEnds, othersEnd, fun bad met => ?_⟩
      obtain ⟨firstAvoids, othersAvoid⟩ := avoids bad met.2.2
      exact ⟨⟨met.1, met.2.1, firstAvoids⟩, othersAvoid⟩
  | case3 state =>
      obtain ⟨rfl, rfl⟩ := List.cons.inj cut
      exact ⟨ends, by simp, fun bad avoids => ⟨avoids, by simp⟩⟩
  | case4 state c rest _ _ separates inductionHypothesis =>
      obtain ⟨rfl, rfl⟩ := separates
      obtain ⟨rfl, rfl⟩ := List.cons.inj cut
      obtain ⟨second, parts, cutRest⟩ :=
        List.exists_cons_of_ne_nil (cutFrom_ne_nil c ⟨0, none⟩ rest)
      have next_eq : scan.next c = .top := by
        rw [Scan.next_of_isInert proper inert, place_eq]
        rfl
      rw [Scan.run_cons, next_eq] at ends
      obtain ⟨secondEnds, othersEnd, avoids⟩ := inductionHypothesis cutRest
        CutState.isProper_top rfl rfl (next_eq ▸ unescaped.2) ends
      rw [cutRest]
      refine ⟨place_eq, List.forall_mem_cons.mpr ⟨secondEnds, othersEnd⟩, fun bad met => ?_⟩
      obtain ⟨secondAvoids, othersAvoid⟩ := avoids bad (next_eq ▸ met.2)
      exact ⟨trivial, List.forall_mem_cons.mpr ⟨secondAvoids, othersAvoid⟩⟩
  | case5 state c rest notPair notLast goes inductionHypothesis =>
      obtain ⟨second, parts, cutRest⟩ :=
        List.exists_cons_of_ne_nil (cutFrom_ne_nil separator (state.after c) rest)
      rw [cutRest] at cut
      obtain ⟨rfl, rfl⟩ := List.cons.inj cut
      have next_eq := Scan.next_of_not_isEscaped plain c
      have notBackslash : c ≠ '\\' := by
        rintro rfl
        cases rest with
        | nil => exact notLast rfl rfl
        | cons d rest => exact notPair d rest rfl rfl
      have notEscaped : (scan.next c).isEscaped = false := by
        rw [next_eq]
        by_cases slash : c = '/' ∧ scan.place.quote = none
        · simp [Scan.isEscaped, Scan.heldAt, slash]
        · simp [Scan.isEscaped, Scan.heldAt, slash, notBackslash]
      obtain ⟨firstEnds, othersEnd, avoids⟩ := inductionHypothesis cutRest
        (Scan.isProper_next proper c) (by rw [next_eq, place_eq]) notEscaped unescaped.2 ends
      refine ⟨firstEnds, othersEnd, fun bad met => ?_⟩
      obtain ⟨firstAvoids, othersAvoid⟩ := avoids bad met.2
      exact ⟨⟨met.1, firstAvoids⟩, othersAvoid⟩

/-- The parts of a contained text are contained. -/
theorem IsContained.of_mem_cutAtTopLevel
    {barred text : List Char}
    (contained : IsContained barred text)
    (unescaped : Avoids escapesMark .top text)
    {separator : Char}
    (inert : isInert separator = true)
    {part : List Char}
    (member : part ∈ cutAtTopLevel separator text) :
    IsContained barred part := by
  obtain ⟨first, others, cut⟩ := List.exists_cons_of_ne_nil (cutFrom_ne_nil separator .top text)
  obtain ⟨firstEnds, othersEnd, avoids⟩ := run_of_cutFrom_eq inert cut
    Scan.isProper_top rfl rfl unescaped contained.place_run
  obtain ⟨firstUncommented, othersUncommented⟩ := avoids startsComment contained.uncommented
  obtain ⟨firstUnbarred, othersUnbarred⟩ := avoids (standsOutside barred) contained.unbarred
  have inCut : part ∈ cutFrom separator .top text := member
  rw [cut] at inCut
  rcases List.mem_cons.mp inCut with rfl | later
  · exact ⟨firstEnds, firstUncommented, firstUnbarred⟩
  · exact ⟨othersEnd part later, othersUncommented part later, othersUnbarred part later⟩

/-! ## Respelled texts -/

/-- A character of a name is inert, and it ends no stretch. -/
theorem isInert_of_isAtNameChar
    {c : Char}
    (named : isAtNameChar c = true) :
    isInert c = true ∧ c ∉ ['{', '}'] :=
  ⟨isInert_of_test named (by decide), not_mem_of_test named (by decide)⟩

theorem isAtNameChar_of_isAsciiLetter
    {c : Char}
    (letter : Text.isAsciiLetter c = true) :
    isAtNameChar c = true := by
  rw [Text.isAsciiLetter] at letter
  rw [isAtNameChar, Text.isAsciiAlphanumeric, letter]
  rfl

/-- A character and its lowercase form are the same, or both belong to names. -/
theorem lowerChar_eq_or (c : Char) :
    Text.lowerChar c = c ∨ isAtNameChar c = true ∧ isAtNameChar (Text.lowerChar c) = true := by
  by_cases capital : 65 ≤ c.toNat ∧ c.toNat ≤ 90
  · have letter : Text.isAsciiLetter c = true := by
      simp only [Text.isAsciiLetter, Bool.or_eq_true, Bool.and_eq_true, decide_eq_true_eq,
        Char.le_def, UInt32.le_iff_toNat_le]
      exact .inr capital
    have named := isAtNameChar_of_isAsciiLetter letter
    exact .inr ⟨named, (Bool.and_eq_true_iff.mp (isWordChar_lowerChar named)).1⟩
  · exact .inl (Text.lowerChar_eq_self capital)

/-- Lowercasing changes nothing that a scan sees. -/
theorem run_map_lowerChar
    {scan : Scan}
    (proper : scan.place.IsProper)
    (text : List Char) :
    scan.run (text.map Text.lowerChar) = scan.run text ∧
      (Avoids startsComment scan text → Avoids startsComment scan (text.map Text.lowerChar)) ∧
      ∀ barred ⊆ ['{', '}'], Avoids (standsOutside barred) scan text →
        Avoids (standsOutside barred) scan (text.map Text.lowerChar) := by
  induction text generalizing scan with
  | nil => exact ⟨rfl, fun _ => trivial, fun _ _ _ => trivial⟩
  | cons c text inductionHypothesis =>
      obtain ⟨run_eq, comments, outside⟩ := inductionHypothesis (Scan.isProper_next proper c)
      rw [List.map_cons, Scan.run_cons, Scan.run_cons]
      rcases lowerChar_eq_or c with same | ⟨named, lowerNamed⟩
      · rw [same]
        exact ⟨run_eq, fun avoids => ⟨avoids.1, comments avoids.2⟩,
          fun barred braces avoids => ⟨avoids.1, outside barred braces avoids.2⟩⟩
      · obtain ⟨inert, _⟩ := isInert_of_isAtNameChar named
        obtain ⟨lowerInert, notBrace⟩ := isInert_of_isAtNameChar lowerNamed
        have next_eq : scan.next (Text.lowerChar c) = scan.next c := by
          rw [Scan.next_of_isInert proper inert, Scan.next_of_isInert proper lowerInert]
        refine ⟨next_eq ▸ run_eq, fun avoids => ⟨?_, next_eq ▸ comments avoids.2⟩,
          fun barred braces avoids => ⟨?_, next_eq ▸ outside barred braces avoids.2⟩⟩
        · exact startsComment_of_ne (Scan.ne_of_isInert lowerInert).2.2 scan
        · exact standsOutside_of_not_mem (fun member => notBrace (braces member)) scan

theorem scansAlike_map_lowerChar (text : List Char) :
    ScansAlike text (text.map Text.lowerChar) where
  place_run proper := congrArg Scan.place (run_map_lowerChar (Scan.isProper_fresh proper) text).1
  uncommented proper := (run_map_lowerChar (Scan.isProper_fresh proper) text).2.1
  unbarred proper := (run_map_lowerChar (Scan.isProper_fresh proper) text).2.2 _

/-- Taking the importance mark off leads to the same place. -/
theorem scansAlike_takeImportance (text : List Char) :
    ScansAlike text (takeImportance text).1 := by
  by_cases marked : EndsMarked text
  · obtain ⟨before, mark, rfl, important⟩ := marked
    have inert : ∀ c ∈ mark, isInert c = true := by
      intro c member
      obtain ⟨lead, trail, split, leadBlanks, trailBlanks⟩ := Text.exists_trim mark
      rw [split, List.mem_append, List.mem_append] at member
      rcases member with (inLead | inWord) | inTrail
      · exact isInert_of_isBlank (leadBlanks c inLead)
      · exact (isInert_of_isAtNameChar
          (isAtNameChar_of_isAsciiLetter (isAsciiLetter_of_mem_mark important inWord))).1
      · exact isInert_of_isBlank (trailBlanks c inTrail)
    have front : ScansAlike (before ++ '!' :: mark) before := by
      refine ⟨fun proper => ?_, fun _ avoids => (avoids_append_iff.mp avoids).1,
        fun _ _ avoids => (avoids_append_iff.mp avoids).1⟩
      rw [Scan.run_append_cons (Scan.isProper_fresh proper) (by decide),
        Scan.run_of_forall_isInert (Scan.isProper_run (Scan.isProper_fresh proper) before) inert]
      rfl
    rw [takeImportance_of_endsMarked important]
    exact front.trans (scansAlike_trimEnd before)
  · rw [takeImportance_of_not_endsMarked marked]
    exact ⟨fun _ => rfl, fun _ avoids => avoids, fun _ _ avoids => avoids⟩

/-- Two texts around an inert character may each be respelled. -/
theorem IsContained.respell
    {barred first second firstWritten secondWritten : List Char}
    {c : Char}
    (contained : IsContained barred (first ++ c :: second))
    (braces : barred ⊆ ['{', '}'])
    (inert : isInert c = true)
    (allowed : c ∉ barred)
    (firstAlike : ScansAlike first firstWritten)
    (secondAlike : ScansAlike second secondWritten) :
    IsContained barred (firstWritten ++ c :: secondWritten) := by
  have proper := Scan.isProper_top
  have middleProper := Scan.isProper_run proper first
  have place_run := contained.place_run
  have uncommented := contained.uncommented
  have unbarred := contained.unbarred
  have first_eq : (Scan.top.run firstWritten).place = (Scan.top.run first).place :=
    firstAlike.place_run proper
  rw [Scan.run_append_cons proper inert] at place_run
  rw [avoids_append_iff, Avoids, Scan.next_of_isInert middleProper inert] at uncommented unbarred
  refine IsContained.append_cons_of_run inert allowed
    (firstAlike.uncommented proper uncommented.1) (firstAlike.unbarred proper braces unbarred.1)
    ?_ ?_ ?_
  · rw [first_eq, secondAlike.place_run middleProper, place_run]
  · rw [first_eq]
    exact secondAlike.uncommented middleProper uncommented.2.2
  · rw [first_eq]
    exact secondAlike.unbarred middleProper braces unbarred.2.2

/-! ## Declarations and selectors -/

/-- What is written of a declaration in front of its importance mark. -/
def Declaration.core (declaration : Declaration) : List Char :=
  declaration.property.toList ++ ':' :: (minifyValue declaration.value).toList

theorem Declaration.toList_write_eq_core_append (declaration : Declaration) :
    declaration.write.toList = declaration.core ++ declaration.mark := by
  rw [toList_write, core, List.append_assoc, List.cons_append]

theorem scansAlike_minifyValue_ofList (text : List Char) :
    ScansAlike text (minifyValue (String.ofList text)).toList := by
  have alike := scansAlike_minifyValue (String.ofList text)
  rwa [String.toList_ofList] at alike

theorem isContained_of_readDeclaration
    {part : List Char}
    {declaration : Declaration}
    (contained : IsContained ['}'] part)
    (read : readDeclaration part = some declaration) :
    IsContained ['}'] declaration.core := by
  unfold readDeclaration at read
  split at read
  · cases read
  · next name text split =>
      dsimp only at read
      split at read
      · cases read
      · obtain rfl := Option.some.inj read
        obtain rfl : part = name ++ ':' :: text := Text.eq_append_of_splitOnce split
        have nameAlike := (scansAlike_trim name).trans (scansAlike_map_lowerChar _)
        have textAlike := ((scansAlike_trim text).trans (scansAlike_takeImportance _)).trans
          (scansAlike_minifyValue_ofList _)
        rw [Declaration.core, Text.toList_lower, String.toList_ofList]
        exact contained.respell (by decide) (by decide) (by decide) nameAlike textAlike

theorem isContained_of_mem_readDeclarationList
    {text : List Char}
    (contained : IsContained ['}'] text)
    (unescaped : Avoids escapesMark .top text)
    {declaration : Declaration}
    (member : declaration ∈ readDeclarationList text) :
    IsContained ['}'] declaration.core := by
  obtain ⟨part, inParts, read⟩ := List.mem_filterMap.mp member
  rw [text_readUntil_of_uncommented Matches.top nofun contained.uncommented] at inParts
  exact isContained_of_readDeclaration
    (contained.of_mem_cutAtTopLevel unescaped (by decide) inParts) read

theorem isContained_of_mem_readSelectorList
    {text : List Char}
    (contained : IsContained ['{', '}'] text)
    (unescaped : Avoids escapesMark .top text)
    {selector : String}
    (member : selector ∈ readSelectorList text) :
    IsContained ['{', '}'] (minifySelector selector).toList := by
  obtain ⟨trimmed, inTrimmed, kept⟩ := List.mem_filterMap.mp member
  obtain ⟨part, inParts, rfl⟩ := List.mem_map.mp inTrimmed
  split at kept
  · cases kept
  · obtain rfl := Option.some.inj kept
    have alike := scansAlike_minifySelector (String.ofList (Text.trim part))
    rw [String.toList_ofList] at alike
    exact ((scansAlike_trim part).trans alike).isContained (List.Subset.refl _)
      (contained.of_mem_cutAtTopLevel unescaped (by decide) inParts)

theorem isContained_minifyPrelude
    {text : List Char}
    (contained : IsContained ['{', '}'] text) :
    IsContained ['{', '}'] (minifyPrelude (String.ofList (Text.trim text))).toList := by
  have alike := scansAlike_minifyPrelude (String.ofList (Text.trim text))
  rw [String.toList_ofList] at alike
  exact ((scansAlike_trim text).trans alike).isContained (List.Subset.refl _) contained

/-! ## Pieces and sheets -/

/-- All written texts are contained, and only in declarations braces may stand outside strings and
brackets. -/
def containedTexts : Demand where
  rule rule :=
    (∀ selector ∈ rule.selectors, IsContained ['{', '}'] (minifySelector selector).toList) ∧
      ∀ declaration ∈ rule.declarations, IsContained ['}'] declaration.core
  statement _ prelude := IsContained ['{', '}'] (minifyPrelude prelude).toList
  group _ prelude _ := IsContained ['{', '}'] (minifyPrelude prelude).toList
  descriptors _ prelude declarations :=
    IsContained ['{', '}'] (minifyPrelude prelude).toList ∧
      ∀ declaration ∈ declarations, IsContained ['}'] declaration.core

theorem isStopList_head : IsStopList ['{', ';', '}'] := by
  simp [IsStopList, isInert, isQuote]

theorem isStopList_body : IsStopList ['}'] := by
  simp [IsStopList, isInert, isQuote]

theorem IsClean.readRule
    {text : List Char}
    (clean : IsClean text) :
    (∀ piece ∈ (Css.readRule text).1, piece.Meets containedTexts) ∧
      IsClean (Css.readRule text).2 := by
  obtain ⟨headContained, headUnescaped, restClean⟩ := clean.stretch isStopList_head
  obtain ⟨bodyContained, bodyUnescaped, bodyClean⟩ := restClean.stretch isStopList_body
  unfold Css.readRule
  dsimp only
  split
  · split
    · exact ⟨nofun, bodyClean⟩
    · refine ⟨?_, bodyClean⟩
      rintro _ ⟨⟩
      exact ⟨fun selector => isContained_of_mem_readSelectorList
          (headContained.mono (by simp)) headUnescaped,
        fun declaration => isContained_of_mem_readDeclarationList bodyContained bodyUnescaped⟩
  · exact ⟨nofun, restClean⟩

theorem withoutComments_cons_of_isInert
    {c : Char}
    (inert : isInert c = true)
    (rest : List Char) :
    withoutComments (c :: rest) = c :: withoutComments rest := by
  have uncommented : ¬(c = '/' ∧ rest.head? = some '*') :=
    fun comment => (Scan.ne_of_isInert inert).2.1 comment.1
  rw [withoutComments, readUntil_plain_cons [] uncommented, if_neg (by simp),
    stateAfter_of_isInert inert]
  rfl

/-- Whether a source is clean does not depend on inert characters in front. -/
theorem isClean_cons_iff
    {c : Char}
    (inert : isInert c = true)
    {rest : List Char} :
    IsClean (c :: rest) ↔ IsClean rest := by
  have split := withoutComments_cons_of_isInert inert rest
  have next_eq : Scan.top.next c = .top := Scan.next_of_isInert CutState.isProper_top inert
  have run_eq : Scan.top.run [c] = .top := next_eq
  refine ⟨fun clean => clean.of_append split run_eq, fun clean => ?_⟩
  refine ⟨?_, ?_, ?_⟩
  · rw [split, Scan.run_cons, next_eq, clean.place_run]
  · rw [split, Avoids, next_eq]
    exact ⟨rfl, clean.uncommented⟩
  · rw [split, Avoids, next_eq]
    exact ⟨rfl, clean.unescaped⟩

theorem IsClean.of_append_inert
    {front rest : List Char}
    (clean : IsClean (front ++ rest))
    (inert : ∀ c ∈ front, isInert c = true) :
    IsClean rest := by
  induction front with
  | nil => exact clean
  | cons c front inductionHypothesis =>
      obtain ⟨here, others⟩ := List.forall_mem_cons.mp inert
      exact inductionHypothesis ((isClean_cons_iff here).mp clean) others

theorem IsClean.readAtRule
    {text : List Char}
    (clean : IsClean text) :
    (∀ piece ∈ (Css.readAtRule text).1, piece.Meets containedTexts) ∧
      IsClean (Css.readAtRule text).2 := by
  have named : ∀ c ∈ text.takeWhile isAtNameChar, isInert c = true := by
    intro c member
    exact (isInert_of_isAtNameChar (List.all_eq_true.mp List.all_takeWhile c member)).1
  have behindName : IsClean (text.dropWhile isAtNameChar) := by
    rw [← List.takeWhile_append_dropWhile (p := isAtNameChar) (l := text)] at clean
    exact clean.of_append_inert named
  obtain ⟨headContained, headUnescaped, restClean⟩ := behindName.stretch isStopList_head
  obtain ⟨bodyContained, bodyUnescaped, bodyClean⟩ := restClean.stretch isStopList_body
  have preludeContained := isContained_minifyPrelude (headContained.mono (by simp))
  unfold Css.readAtRule
  dsimp only
  generalize Text.lower (String.ofList (text.takeWhile isAtNameChar)) = name
  generalize readUntil ['{', ';', '}'] (.plain 0) (text.dropWhile isAtNameChar) = head at *
  generalize readUntil ['}'] (.plain 0) head.rest = body at *
  generalize String.ofList (Text.trim head.text) = prelude at *
  have yielded {piece : Piece} (met : piece.Meets containedTexts) :
      ∀ other ∈ (if name.isEmpty then none else some piece), other.Meets containedTexts := by
    intro other member
    split at member
    · cases member
    · obtain rfl := Option.some.inj member
      exact met
  split
  · split
    · exact ⟨yielded fun _ => preludeContained, restClean⟩
    · refine ⟨yielded ⟨preludeContained, fun declaration => ?_⟩, bodyClean⟩
      exact isContained_of_mem_readDeclarationList bodyContained bodyUnescaped
  · exact ⟨yielded preludeContained, (isClean_cons_iff (by decide)).mpr restClean⟩
  · exact ⟨yielded preludeContained, restClean⟩

/-- Without its comments, a source is what is left behind its first blanks and comments, with
these blanks in front. -/
theorem exists_blanks_skipGaps
    (inComment : Bool)
    (text : List Char) :
    ∃ blanks, (readUntil [] (if inComment then .comment 0 else .plain 0) text).text =
        blanks ++ withoutComments (skipGaps inComment text) ∧
      ∀ c ∈ blanks, isInert c = true := by
  fun_induction skipGaps inComment text with
  | case1 inComment =>
      refine ⟨[], ?_, by simp⟩
      cases inComment <;> rfl
  | case2 rest inductionHypothesis => exact inductionHypothesis
  | case3 c rest notEnd inductionHypothesis =>
      obtain ⟨blanks, split, inert⟩ := inductionHypothesis
      refine ⟨blanks, ?_, inert⟩
      rw [← split]
      show (readUntil [] (.comment 0) (c :: rest)).text = (readUntil [] (.comment 0) rest).text
      rw [readUntil]
      exact notEnd
  | case4 rest inductionHypothesis => exact inductionHypothesis
  | case5 c rest uncommented blank inductionHypothesis =>
      obtain ⟨blanks, split, inert⟩ := inductionHypothesis
      have here := isInert_of_isBlank blank
      refine ⟨c :: blanks, ?_, List.forall_mem_cons.mpr ⟨here, inert⟩⟩
      rw [List.cons_append, ← split]
      exact withoutComments_cons_of_isInert here rest
  | case6 c rest uncommented nonblank => exact ⟨[], rfl, by simp⟩

/-- What is left of a clean source behind its first blanks and comments is clean. -/
theorem IsClean.skipGaps
    {text : List Char}
    (clean : IsClean text) :
    IsClean (Css.skipGaps false text) := by
  obtain ⟨blanks, split, inert⟩ := exists_blanks_skipGaps false text
  exact clean.of_append split (Scan.run_of_forall_isInert CutState.isProper_top inert)

theorem meets_containedTexts_of_mem_pieces
    {text : List Char}
    (clean : IsClean text)
    {piece : Piece}
    (member : piece ∈ pieces text) :
    piece.Meets containedTexts := by
  fun_induction pieces text with
  | case1 text empty => cases member
  | case2 text rest start shorter inductionHypothesis =>
      have started := clean.skipGaps
      rw [start] at started
      rcases List.mem_cons.mp member with rfl | later
      · trivial
      · exact inductionHypothesis ((isClean_cons_iff (by decide)).mp started) later
  | case3 text rest bound start shorter notClosing inductionHypothesis =>
      have started := clean.skipGaps
      rw [start] at started
      obtain ⟨met, restClean⟩ := ((isClean_cons_iff (by decide)).mp started).readAtRule
      rcases List.mem_append.mp member with first | later
      · exact met piece (Option.mem_toList.mp first)
      · exact inductionHypothesis restClean later
  | case4 text c rest start shorter notClosing notAt bound less inductionHypothesis =>
      have started := clean.skipGaps
      rw [start] at started
      obtain ⟨met, restClean⟩ := started.readRule
      rcases List.mem_append.mp member with first | later
      · exact met piece (Option.mem_toList.mp first)
      · exact inductionHypothesis restClean later

/-- All texts that are read of a clean source are contained. -/
theorem allMeet_containedTexts_read
    {css : String}
    (clean : IsClean css.toList) :
    AllMeet containedTexts (Sheet.read css).items :=
  allMeet_nest (by simp) trivial fun _ => meets_containedTexts_of_mem_pieces clean

end Css
end MailPress
