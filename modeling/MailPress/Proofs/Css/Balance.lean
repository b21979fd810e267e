import MailPress.Proofs.Css.Contained

/-!
# Balanced sheets

A style sheet is balanced when its strings, comments and brackets are closed and its braces match
outside of them. A written sheet leaves as many blocks open as its declarations hold opening
braces: all other braces of a written sheet come in pairs.
-/

namespace MailPress
namespace Css

/-- The number of blocks that are open behind a text, when so many are open in front of it.
There is none when a string, a comment or a bracket is not closed, or when a brace closes a block
that is not open. -/
def openBlocks : ScanState → Nat → List Char → Option Nat
  | .plain depth, blocks, [] => if depth = 0 then some blocks else none
  | .quoted _ _, _, [] => none
  | .comment _, _, [] => none
  | .comment depth, blocks, '*' :: '/' :: rest => openBlocks (.plain depth) blocks rest
  | .comment depth, blocks, _ :: rest => openBlocks (.comment depth) blocks rest
  | .quoted quote depth, blocks, '\\' :: _ :: rest => openBlocks (.quoted quote depth) blocks rest
  | .quoted quote depth, blocks, c :: rest =>
      if c = quote then openBlocks (.plain depth) blocks rest
      else openBlocks (.quoted quote depth) blocks rest
  | .plain depth, blocks, '/' :: '*' :: rest => openBlocks (.comment depth) blocks rest
  | .plain depth, blocks, c :: rest =>
      if depth = 0 ∧ c = '{' then openBlocks (.plain 0) (blocks + 1) rest
      else if depth = 0 ∧ c = '}' then
        if blocks = 0 then none else openBlocks (.plain 0) (blocks - 1) rest
      else openBlocks (stateAfter depth c) blocks rest

/-- A style sheet in which everything that is opened is closed. -/
def IsBalanced (css : String) : Prop :=
  openBlocks (.plain 0) 0 css.toList = some 0

instance (css : String) : Decidable (IsBalanced css) :=
  inferInstanceAs (Decidable (_ = _))

/-- In a text whose blocks can be counted, a scan ends outside strings and brackets. -/
theorem place_run_of_openBlocks
    {state : ScanState}
    {blocks count : Nat}
    {text : List Char}
    (counted : openBlocks state blocks text = some count)
    {scan : Scan}
    (here : Matches state scan) :
    (scan.run (readUntil [] state text).text).place = .top := by
  fun_induction openBlocks state blocks text generalizing scan with
  | case1 blocks => exact here
  | case2 | case3 | case4 => cases counted
  | case5 depth blocks rest inductionHypothesis =>
      rw [readUntil]
      exact inductionHypothesis counted here
  | case6 depth blocks c rest notEnd inductionHypothesis =>
      rw [readUntil]
      · exact inductionHypothesis counted here
      · exact notEnd
  | case7 quote depth blocks c rest inductionHypothesis =>
      rw [readUntil]
      exact inductionHypothesis counted (here.next_next_backslash c)
  | case8 depth blocks c rest plain inductionHypothesis =>
      have different : c ≠ '\\' := by
        rintro rfl
        cases here.2.1
      have after := here.next_quoted different
      rw [if_pos rfl] at after
      rw [readUntil, if_pos rfl]
      · exact inductionHypothesis counted after
      · exact plain
  | case9 quote depth blocks c rest plain ends inductionHypothesis =>
      by_cases backslash : c = '\\'
      · obtain rfl := eq_nil_of_hides_nothing plain backslash
        cases counted
      · have after := here.next_quoted backslash
        rw [if_neg ends] at after
        rw [readUntil, if_neg ends]
        · exact inductionHypothesis counted after
        · exact plain
  | case10 depth blocks rest inductionHypothesis =>
      rw [readUntil]
      exact inductionHypothesis counted here
  | case11 depth blocks c rest uncommented opens inductionHypothesis =>
      obtain ⟨rfl, rfl⟩ := opens
      rw [readUntil, if_neg (by simp)]
      · exact inductionHypothesis counted (here.next_plain '{')
      · exact uncommented
  | case12 => cases counted
  | case13 depth blocks c rest uncommented _ closes _ inductionHypothesis =>
      obtain ⟨rfl, rfl⟩ := closes
      rw [readUntil, if_neg (by simp)]
      · exact inductionHypothesis counted (here.next_plain '}')
      · exact uncommented
  | case14 depth blocks c rest uncommented _ _ inductionHypothesis =>
      rw [readUntil, if_neg (by simp)]
      · exact inductionHypothesis counted (here.next_plain c)
      · exact uncommented

/-- The opening braces of a text that stand outside strings and brackets. -/
def bracesIn : Scan → List Char → Nat
  | _, [] => 0
  | scan, c :: text =>
      (if standsOutside ['{'] scan c then 1 else 0) + bracesIn (scan.next c) text

/-- Behind a contained text without closing braces, as many more blocks are open as the text has
opening braces. -/
theorem openBlocks_append
    {state : ScanState}
    {text : List Char}
    {scan : Scan}
    (here : Matches state scan)
    (notComment : ∀ depth, state ≠ .comment depth)
    (uncommented : Avoids startsComment scan text)
    (unclosed : Avoids (standsOutside ['}']) scan text)
    (ends : (scan.run text).place = .top)
    {rest : List Char}
    (apart : rest.head? ≠ some '*')
    (blocks : Nat) :
    openBlocks state blocks (text ++ rest) =
      openBlocks (.plain 0) (blocks + bracesIn scan text) rest := by
  fun_induction readUntil [] state text generalizing scan blocks with
  | case1 state =>
      obtain rfl : state = .plain 0 := here.eq_plain notComment ends
      rfl
  | case2 depth => exact absurd rfl (notComment depth)
  | case3 depth => exact absurd rfl (notComment depth)
  | case4 quote depth c text inductionHypothesis =>
      have inner := inductionHypothesis (here.next_next_backslash c) (by simp) uncommented.2.2
        unclosed.2.2 ends blocks
      rw [List.cons_append, List.cons_append, openBlocks, inner, bracesIn, bracesIn,
        standsOutside_of_ne_top here.ne_top_quoted,
        standsOutside_of_ne_top here.next_backslash_ne_top]
      simp
  | case5 depth c text plain inductionHypothesis =>
      have different : c ≠ '\\' := by
        rintro rfl
        cases here.2.1
      have after := here.next_quoted different
      rw [if_pos rfl] at after
      have inner := inductionHypothesis after (by simp) uncommented.2 unclosed.2 ends blocks
      rw [List.cons_append, openBlocks, if_pos rfl, inner, bracesIn,
        standsOutside_of_ne_top here.ne_top_quoted]
      · simp
      · exact fun _ _ backslash => absurd backslash different
  | case6 quote depth c text plain notQuote inductionHypothesis =>
      by_cases backslash : c = '\\'
      · obtain rfl := eq_nil_of_hides_nothing plain backslash
        rw [Scan.run_cons, Scan.run_nil, backslash, here.next_backslash] at ends
        cases ends
      · have after := here.next_quoted backslash
        rw [if_neg notQuote] at after
        have inner := inductionHypothesis after (by simp) uncommented.2 unclosed.2 ends blocks
        rw [List.cons_append, openBlocks, if_neg notQuote, inner, bracesIn,
          standsOutside_of_ne_top here.ne_top_quoted]
        · simp
        · exact fun _ _ same => absurd same backslash
  | case7 depth text inductionHypothesis => exact absurd uncommented (here.not_avoids_startsComment text)
  | case8 depth c text uncommented stopped => exact absurd stopped.2 (by simp)
  | case9 depth c text noComment notStopped inductionHypothesis =>
      have place_eq : scan.place = ⟨depth, none⟩ := here
      have inner := inductionHypothesis (here.next_plain c) (stateAfter_ne_comment depth c)
        uncommented.2 unclosed.2 ends
      have continues : ∀ others, c = '/' → text ++ rest = '*' :: others → False := by
        intro others slash split
        cases text with
        | nil => exact apart (by rw [← List.nil_append rest, split]; rfl)
        | cons d text =>
            rw [List.cons_append] at split
            exact noComment text slash (by rw [(List.cons.inj split).1])
      rw [List.cons_append, openBlocks, bracesIn]
      · by_cases opens : depth = 0 ∧ c = '{'
        · obtain ⟨rfl, rfl⟩ := opens
          have counted : standsOutside ['{'] scan '{' = true := by
            rw [standsOutside, place_eq]
            rfl
          rw [if_pos ⟨rfl, rfl⟩, if_pos counted, ← Nat.add_assoc]
          exact inner (blocks + 1)
        · by_cases closes : depth = 0 ∧ c = '}'
          · obtain ⟨rfl, rfl⟩ := closes
            have stands := unclosed.1
            rw [standsOutside, place_eq] at stands
            cases stands
          · have uncounted : ¬standsOutside ['{'] scan c = true := by
              rw [standsOutside, place_eq]
              simp only [Bool.and_eq_true, decide_eq_true_eq, List.contains_eq_mem,
                List.mem_singleton]
              rintro ⟨same, brace⟩
              exact opens ⟨congrArg CutState.depth same, brace⟩
            rw [if_neg opens, if_neg closes, if_neg uncounted, Nat.zero_add]
            exact inner blocks
      · exact continues

/-! ## Braces of contained texts -/

theorem bracesIn_append
    (scan : Scan)
    (first second : List Char) :
    bracesIn scan (first ++ second) = bracesIn scan first + bracesIn (scan.run first) second := by
  induction first generalizing scan with
  | nil => simp [bracesIn]
  | cons c first inductionHypothesis =>
      rw [List.cons_append, bracesIn, bracesIn, inductionHypothesis, Scan.run_cons, Nat.add_assoc]

theorem bracesIn_of_not_mem
    {text : List Char}
    (fresh : '{' ∉ text)
    (scan : Scan) :
    bracesIn scan text = 0 := by
  induction text generalizing scan with
  | nil => rfl
  | cons c text inductionHypothesis =>
      obtain ⟨different, fresh⟩ := List.ne_and_not_mem_of_not_mem_cons fresh
      rw [bracesIn, inductionHypothesis fresh, standsOutside_of_not_mem]
      · rfl
      · simpa using Ne.symm different

theorem bracesIn_of_avoids
    {scan : Scan}
    {text : List Char}
    (avoids : Avoids (standsOutside ['{', '}']) scan text) :
    bracesIn scan text = 0 := by
  induction text generalizing scan with
  | nil => rfl
  | cons c text inductionHypothesis =>
      have uncounted : standsOutside ['{'] scan c = false := by
        have here := avoids.1
        simp only [standsOutside, Bool.and_eq_false_iff, List.contains_eq_mem, List.mem_cons,
          decide_eq_false_iff_not, not_or] at here ⊢
        exact here.imp_right fun different => ⟨different.1, different.2.2⟩
      rw [bracesIn, uncounted, inductionHypothesis avoids.2]
      rfl

/-- The braces of two contained texts with an inert character between them. -/
theorem IsContained.bracesIn_append_cons
    {barred first second : List Char}
    {c : Char}
    (contained : IsContained barred first)
    (inert : isInert c = true)
    (notBrace : c ≠ '{') :
    bracesIn .top (first ++ c :: second) = bracesIn .top first + bracesIn .top second := by
  have proper := Scan.isProper_run Scan.isProper_top first
  have next_eq : (Scan.top.run first).next c = .top := by
    rw [Scan.next_of_isInert proper inert, contained.place_run]
    rfl
  rw [bracesIn_append, bracesIn, next_eq, standsOutside_of_not_mem]
  · simp
  · simpa using notBrace

/-- Behind a contained text, as many more blocks are open as it has opening braces. -/
theorem IsContained.openBlocks_append
    {text : List Char}
    (contained : IsContained ['}'] text)
    {rest : List Char}
    (apart : rest.head? ≠ some '*')
    (blocks : Nat) :
    openBlocks (.plain 0) blocks (text ++ rest) =
      openBlocks (.plain 0) (blocks + bracesIn .top text) rest :=
  Css.openBlocks_append Matches.top (by simp) contained.uncommented contained.unbarred
    contained.place_run apart blocks

/-- A text without braces of its own in front of a block. -/
theorem IsContained.openBlocks_append_block
    {head body : List Char}
    (headContained : IsContained ['{', '}'] head)
    {opened : Nat}
    (bodyOpens : ∀ blocks rest, openBlocks (.plain 0) blocks (body ++ '}' :: rest) =
      openBlocks (.plain 0) (blocks + opened) ('}' :: rest))
    (blocks : Nat)
    (rest : List Char) :
    openBlocks (.plain 0) blocks (head ++ '{' :: (body ++ '}' :: rest)) =
      openBlocks (.plain 0) (blocks + opened) rest := by
  have noBrace := bracesIn_of_avoids headContained.unbarred
  have opening (rest : List Char) : openBlocks (.plain 0) blocks ('{' :: rest) =
      openBlocks (.plain 0) (blocks + 1) rest := by simp [openBlocks]
  have closing : openBlocks (.plain 0) (blocks + 1 + opened) ('}' :: rest) =
      openBlocks (.plain 0) (blocks + opened) rest := by
    simp [openBlocks, Nat.add_right_comm]
  rw [(headContained.mono (by simp)).openBlocks_append (by simp), noBrace, Nat.add_zero, opening,
    bodyOpens, closing]

/-! ## Declarations and blocks -/

/-- The opening braces of some declarations. -/
def bracesOf : List Declaration → Nat
  | [] => 0
  | declaration :: declarations => bracesIn .top declaration.core + bracesOf declarations

theorem not_mem_mark (declaration : Declaration) : '{' ∉ declaration.mark := by
  unfold Declaration.mark
  split <;> decide

theorem isContained_write
    {declaration : Declaration}
    (contained : IsContained ['}'] declaration.core) :
    IsContained ['}'] declaration.write.toList := by
  rw [Declaration.toList_write_eq_core_append, Declaration.mark]
  split
  · have word : IsContained ['}'] "important".toList := ⟨by decide, by decide, by decide⟩
    exact contained.append_cons (by decide) (by decide) word
  · rw [List.append_nil]
    exact contained

theorem bracesIn_write (declaration : Declaration) :
    bracesIn .top declaration.write.toList = bracesIn .top declaration.core := by
  rw [Declaration.toList_write_eq_core_append, bracesIn_append,
    bracesIn_of_not_mem (not_mem_mark declaration), Nat.add_zero]

/-- A declaration is balanced when it holds no opening brace. -/
theorem isBalanced_write_iff
    {declaration : Declaration}
    (contained : IsContained ['}'] declaration.core) :
    IsBalanced declaration.write ↔ bracesIn .top declaration.core = 0 := by
  have apart : ([] : List Char).head? ≠ some '*' := nofun
  have counted := (isContained_write contained).openBlocks_append apart 0
  rw [List.append_nil, bracesIn_write, Nat.zero_add] at counted
  rw [IsBalanced, counted]
  simp [openBlocks]

section Blocks

variable {declarations : List Declaration}

theorem isContained_writtenBody
    (contained : ∀ declaration ∈ declarations, IsContained ['}'] declaration.core) :
    IsContained ['}'] (writtenBody declarations) := by
  refine IsContained.intercalate (by decide) (by decide) fun part member => ?_
  obtain ⟨declaration, present, rfl⟩ := List.mem_map.mp member
  exact isContained_write (contained declaration present)

theorem bracesIn_writtenBody
    (contained : ∀ declaration ∈ declarations, IsContained ['}'] declaration.core) :
    bracesIn .top (writtenBody declarations) = bracesOf declarations := by
  unfold writtenBody
  induction declarations with
  | nil => rfl
  | cons declaration declarations inductionHypothesis =>
      obtain ⟨here, others⟩ := List.forall_mem_cons.mp contained
      cases declarations with
      | nil => simp [List.intercalate_singleton, bracesIn_write, bracesOf]
      | cons next declarations =>
          have inner := inductionHypothesis others
          rw [List.map_cons] at inner
          rw [List.map_cons, List.map_cons, List.intercalate_cons_cons, List.append_assoc,
            List.singleton_append, (isContained_write here).bracesIn_append_cons (by decide)
            (by decide), bracesIn_write, inner, bracesOf, bracesOf, bracesOf]

/-- A block leaves open as many blocks as its declarations hold opening braces. -/
theorem openBlocks_writtenBody
    (contained : ∀ declaration ∈ declarations, IsContained ['}'] declaration.core)
    (blocks : Nat)
    (rest : List Char) :
    openBlocks (.plain 0) blocks (writtenBody declarations ++ '}' :: rest) =
      openBlocks (.plain 0) (blocks + bracesOf declarations) ('}' :: rest) := by
  rw [(isContained_writtenBody contained).openBlocks_append (by simp),
    bracesIn_writtenBody contained]

end Blocks

/-! ## Items -/

/-- What the braces of written items can be counted by. -/
def countable : Demand where
  rule rule := rule.selectors ≠ [] ∧ containedTexts.rule rule
  statement name prelude := IsContained ['{', '}'] (writeAtHead name prelude).toList
  group name prelude _ := IsContained ['{', '}'] (writeAtHead name prelude).toList
  descriptors name prelude declarations :=
    isGrouping name = false ∧ IsContained ['{', '}'] (writeAtHead name prelude).toList ∧
      ∀ declaration ∈ declarations, IsContained ['}'] declaration.core

theorem isContained_writeAtHead
    {name prelude : String}
    (shapedHead : IsShapedHead name prelude)
    (contained : IsContained ['{', '}'] (minifyPrelude prelude).toList) :
    IsContained ['{', '}'] (writeAtHead name prelude).toList := by
  have named : ∀ c ∈ '@' :: name.toList, isInert c = true ∧ c ∉ ['{', '}'] := by
    refine List.forall_mem_cons.mpr ⟨by decide, fun c member => ?_⟩
    exact isInert_of_isAtNameChar
      (Bool.and_eq_true_iff.mp (shapedHead.name_word c member)).1
  rw [toList_writeAtHead, ← List.cons_append]
  refine IsContained.append_of_forall_isInert named ?_
  unfold writtenPrelude
  split
  · exact .nil _
  · exact (IsContained.nil _).append_cons (by decide) (by decide) contained

theorem countable_followsFrom : countable.FollowsFrom shaped containedTexts where
  rule met contained := ⟨met.selectors_ne, contained⟩
  statement met contained := isContained_writeAtHead met contained
  group met contained := isContained_writeAtHead met.1 contained
  descriptors met contained :=
    ⟨met.2.1, isContained_writeAtHead met.1 contained.1, contained.2⟩

/-- The declarations of some items. -/
def declarationsOf (items : List Item) : List Declaration :=
  (allOccurrences items).map Occurrence.declaration

theorem isContained_writtenSelectors
    {selectors : List String}
    (contained : ∀ selector ∈ selectors,
      IsContained ['{', '}'] (minifySelector selector).toList) :
    IsContained ['{', '}'] (writtenSelectors selectors) := by
  refine IsContained.intercalate (by decide) (by decide) fun part member => ?_
  obtain ⟨selector, present, rfl⟩ := List.mem_map.mp member
  exact contained selector present

theorem bracesOf_append (first second : List Declaration) :
    bracesOf (first ++ second) = bracesOf first + bracesOf second := by
  induction first with
  | nil => simp [bracesOf]
  | cons declaration first inductionHypothesis =>
      rw [List.cons_append, bracesOf, bracesOf, inductionHypothesis, Nat.add_assoc]

/-- Written items leave open as many blocks as their declarations hold opening braces, if that
holds of each. -/
theorem openBlocks_writeItems_of_forall
    {items : List Item}
    (each : ∀ item ∈ items, ∀ blocks rest,
      openBlocks (.plain 0) blocks (item.write.toList ++ rest) =
        openBlocks (.plain 0) (blocks + bracesOf (declarationsOf [item])) rest)
    (blocks : Nat)
    (rest : List Char) :
    openBlocks (.plain 0) blocks ((writeItems items).toList ++ rest) =
      openBlocks (.plain 0) (blocks + bracesOf (declarationsOf items)) rest := by
  induction items generalizing blocks with
  | nil => rfl
  | cons item items inductionHypothesis =>
      obtain ⟨first, others⟩ := List.forall_mem_cons.mp each
      have split : declarationsOf (item :: items) = declarationsOf [item] ++ declarationsOf items := by
        rw [declarationsOf, ← List.singleton_append, allOccurrences_append, List.map_append]
        rfl
      rw [writeItems, String.toList_append, List.append_assoc, first, inductionHypothesis others,
        split, bracesOf_append, Nat.add_assoc]

/-- A written item leaves open as many blocks as its declarations hold opening braces. -/
theorem openBlocks_write
    {item : Item}
    (met : item.Meets countable)
    (blocks : Nat)
    (rest : List Char) :
    openBlocks (.plain 0) blocks (item.write.toList ++ rest) =
      openBlocks (.plain 0) (blocks + bracesOf (declarationsOf [item])) rest := by
  induction item generalizing blocks rest with
  | rule rule =>
      obtain ⟨selectors_ne, selectorsContained, declarationsContained⟩ := met
      have declarations_eq : declarationsOf [.rule rule] = rule.declarations := by
        simp [declarationsOf, allOccurrences, Item.occurrences, Function.comp_def]
      rw [declarations_eq, Item.write]
      by_cases empty : rule.declarations = []
      · simp [Rule.write, empty, bracesOf]
      · have block := (isContained_writtenSelectors selectorsContained).openBlocks_append_block
          (openBlocks_writtenBody declarationsContained) blocks rest
        rw [Rule.toList_write selectors_ne empty, List.append_assoc, List.cons_append,
          List.append_assoc, List.singleton_append]
        exact block
  | statement name prelude =>
      have noBrace := bracesIn_of_avoids met.unbarred
      have stop (rest : List Char) : openBlocks (.plain 0) blocks (';' :: rest) =
          openBlocks (.plain 0) blocks rest := by simp [openBlocks, stateAfter, isQuote]
      have head := (met.mono (by simp)).openBlocks_append
        (show (';' :: rest).head? ≠ some '*' by simp) blocks
      rw [noBrace, Nat.add_zero, stop] at head
      rw [Item.write, String.toList_append, List.append_assoc]
      exact head
  | group name prelude items inductionHypothesis =>
      have inner := openBlocks_writeItems_of_forall fun item member =>
        inductionHypothesis item member (allMeet_iff.mp met.2 item member)
      have declarations_eq :
          declarationsOf [.group name prelude items] = declarationsOf items := by
        simp [declarationsOf, allOccurrences, Item.occurrences, Occurrence.within,
          Function.comp_def]
      rw [declarations_eq, Item.write]
      by_cases empty : (writeItems items).isEmpty = true
      · -- Nothing is written, so nothing inside opens a block.
        have none_open := inner 0 []
        rw [String.isEmpty_iff.mp empty] at none_open
        have no_braces : bracesOf (declarationsOf items) = 0 := by
          simpa [openBlocks] using none_open.symm
        simp [empty, no_braces]
      · have block := met.1.openBlocks_append_block (fun blocks rest => inner blocks ('}' :: rest))
          blocks rest
        simpa [empty] using block
  | descriptors name prelude declarations =>
      obtain ⟨_, headContained, declarationsContained⟩ := met
      have declarations_eq :
          declarationsOf [.descriptors name prelude declarations] = declarations := by
        simp [declarationsOf, allOccurrences, Item.occurrences, Function.comp_def]
      have block := headContained.openBlocks_append_block
        (openBlocks_writtenBody declarationsContained) blocks rest
      rw [declarations_eq, Item.write, String.toList_append, toList_writeBlock,
        List.append_assoc, List.cons_append, List.append_assoc, List.singleton_append]
      exact block

/-- What a written sheet leaves open is what its declarations leave open. -/
structure IsBalancedBy (text : String) (declarations : List Declaration) : Prop where
  /-- The text is balanced when each declaration is. -/
  balanced_iff : IsBalanced text ↔ ∀ declaration ∈ declarations, IsBalanced declaration.write
  /-- Behind a balanced text, another one is as balanced as it is by itself. -/
  append_iff : IsBalanced text → ∀ more, IsBalanced (text ++ more) ↔ IsBalanced more

theorem isContained_core_of_mem_occurrences
    {item : Item}
    (met : item.Meets countable)
    {occurrence : Occurrence}
    (member : occurrence ∈ item.occurrences) :
    IsContained ['}'] occurrence.declaration.core := by
  induction item generalizing occurrence with
  | rule rule =>
      obtain ⟨declaration, present, rfl⟩ := List.mem_map.mp member
      exact met.2.2 declaration present
  | statement name prelude => cases member
  | group name prelude items inductionHypothesis =>
      obtain ⟨original, present, rfl⟩ := List.mem_map.mp member
      rw [allOccurrences_eq_flatMap] at present
      obtain ⟨item, inside, present⟩ := List.mem_flatMap.mp present
      have contained := inductionHypothesis item inside (allMeet_iff.mp met.2 item inside) present
      exact contained
  | descriptors name prelude declarations =>
      obtain ⟨declaration, present, rfl⟩ := List.mem_map.mp member
      exact met.2.2 declaration present

theorem isContained_core_of_mem
    {items : List Item}
    (met : AllMeet countable items)
    {declaration : Declaration}
    (member : declaration ∈ declarationsOf items) :
    IsContained ['}'] declaration.core := by
  obtain ⟨occurrence, present, rfl⟩ := List.mem_map.mp member
  rw [allOccurrences_eq_flatMap] at present
  obtain ⟨item, inside, present⟩ := List.mem_flatMap.mp present
  exact isContained_core_of_mem_occurrences (allMeet_iff.mp met item inside) present

/-- Declarations hold no opening brace when each of them is balanced. -/
theorem bracesOf_eq_zero_iff
    {declarations : List Declaration}
    (contained : ∀ declaration ∈ declarations, IsContained ['}'] declaration.core) :
    bracesOf declarations = 0 ↔ ∀ declaration ∈ declarations, IsBalanced declaration.write := by
  induction declarations with
  | nil => simp [bracesOf]
  | cons declaration declarations inductionHypothesis =>
      obtain ⟨here, others⟩ := List.forall_mem_cons.mp contained
      rw [List.forall_mem_cons, isBalanced_write_iff here, ← inductionHypothesis others, bracesOf,
        Nat.add_eq_zero_iff]

/-- Written items leave open what their declarations leave open. -/
theorem isBalancedBy_writeItems
    {items : List Item}
    (met : AllMeet countable items) :
    IsBalancedBy (writeItems items) (declarationsOf items) := by
  have opens := openBlocks_writeItems_of_forall fun item member =>
    openBlocks_write (allMeet_iff.mp met item member)
  have balanced_iff : IsBalanced (writeItems items) ↔ bracesOf (declarationsOf items) = 0 := by
    have counted := opens 0 []
    rw [List.append_nil] at counted
    rw [IsBalanced, counted]
    simp [openBlocks]
  refine ⟨?_, fun balanced more => ?_⟩
  · rw [balanced_iff, bracesOf_eq_zero_iff fun _ => isContained_core_of_mem met]
  · rw [IsBalanced, String.toList_append, opens, balanced_iff.mp balanced]
    rfl

theorem isClean_of_isBalanced
    {css : String}
    (balanced : IsBalanced css)
    (uncommented : Avoids startsComment .top (withoutComments css.toList))
    (unescaped : Avoids escapesMark .top (withoutComments css.toList)) :
    IsClean css.toList :=
  ⟨place_run_of_openBlocks balanced Matches.top, uncommented, unescaped⟩

/-- The braces of what is read of a clean source can be counted. -/
theorem allMeet_countable_read
    {css : String}
    (clean : IsClean css.toList) :
    AllMeet countable (Sheet.read css).items :=
  .of_both countable_followsFrom (allMeet_read css) (allMeet_containedTexts_read clean)

end Css
end MailPress
