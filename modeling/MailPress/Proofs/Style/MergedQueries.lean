import MailPress.Proofs.Css.Prelude
import MailPress.Proofs.Style.Media
import MailPress.Proofs.Text.Words

/-!
# Which media queries are merged

Media queries are merged when they are spaced alike: when they have the same characters,
letter case aside, and blanks at the same places. Only blanks at the ends and behind a colon
do not count.

The written form of a query leaves out more blanks than that, beside commas, in front of
colons and inside parentheses. So the written head has one block for each written query
exactly when the queries of the sheet that are written alike are also spaced alike.
-/

namespace MailPress
namespace Style

open Text (isBlank blankWords joinedWords)

/-! ## Queries that are spaced alike -/

/-- The characters of a text without its blanks, each with whether a blank in front of it counts;
`keeps` tells where blanks count, given the character in front of them. -/
def gapsFrom
    (keeps : Option Char → Bool)
    (previous : Option Char)
    (pending : Bool) :
    List Char → List (Char × Bool)
  | [] => []
  | c :: rest =>
      if isBlank c then gapsFrom keeps previous true rest
      else (c, pending && keeps previous) :: gapsFrom keeps (some c) false rest

/-- Blanks count between characters, but not behind a colon. -/
def countsBehind (previous : Option Char) : Bool :=
  previous.any (· != ':')

/-- What counts when queries are compared. -/
def spacing (query : String) : List (Char × Bool) :=
  gapsFrom countsBehind none false (Text.lower query).toList

/-- Two queries have the same characters, letter case aside, with blanks at the same places,
those at the ends and behind a colon not counted. -/
def SpacedAlike (first second : String) : Prop :=
  spacing first = spacing second

instance (first second : String) : Decidable (SpacedAlike first second) :=
  inferInstanceAs (Decidable (spacing first = spacing second))

/-- Characters with a space in front of each that has a gap. -/
def spell (gaps : List (Char × Bool)) : List Char :=
  gaps.flatMap fun gap => if gap.2 then [' ', gap.1] else [gap.1]

theorem spell_cons (c : Char) (gap : Bool) (gaps : List (Char × Bool)) :
    spell ((c, gap) :: gaps) = if gap then ' ' :: c :: spell gaps else c :: spell gaps := by
  cases gap <;> rfl

theorem ne_space_of_mem_gapsFrom
    {keeps : Option Char → Bool}
    {previous : Option Char}
    {pending : Bool}
    {text : List Char}
    {gap : Char × Bool}
    (member : gap ∈ gapsFrom keeps previous pending text) :
    gap.1 ≠ ' ' := by
  fun_induction gapsFrom keeps previous pending text with
  | case1 => cases member
  | case2 previous pending c rest blank inductionHypothesis => exact inductionHypothesis member
  | case3 previous pending c rest letter inductionHypothesis =>
      rcases List.mem_cons.mp member with rfl | later
      · rintro rfl
        exact letter rfl
      · exact inductionHypothesis later

/-- Spelling loses nothing. -/
theorem spell_injective
    {first second : List (Char × Bool)}
    (firstPlain : ∀ gap ∈ first, gap.1 ≠ ' ')
    (secondPlain : ∀ gap ∈ second, gap.1 ≠ ' ')
    (same : spell first = spell second) :
    first = second := by
  induction first generalizing second with
  | nil =>
      cases second with
      | nil => rfl
      | cons gap second =>
          obtain ⟨c, hasGap⟩ := gap
          cases hasGap <;> cases same
  | cons gap first inductionHypothesis =>
      obtain ⟨c, hasGap⟩ := gap
      obtain ⟨plain, firstPlain⟩ := List.forall_mem_cons.mp firstPlain
      cases second with
      | nil => cases hasGap <;> cases same
      | cons other second =>
          obtain ⟨d, otherGap⟩ := other
          obtain ⟨otherPlain, secondPlain⟩ := List.forall_mem_cons.mp secondPlain
          have tails := inductionHypothesis firstPlain secondPlain
          rw [spell_cons, spell_cons] at same
          cases hasGap <;> cases otherGap
          · obtain ⟨rfl, rest⟩ := List.cons.inj same
            rw [tails rest]
          · exact absurd (List.cons.inj same).1 plain
          · exact absurd (List.cons.inj same).1.symm otherPlain
          · obtain ⟨rfl, rest⟩ := List.cons.inj (List.cons.inj same).2
            rw [tails rest]

/-! ## Normalized queries -/

/-- Behind a character, words that follow are joined to it by a space if there is a blank. -/
theorem spell_gapsFrom_some
    (previous : Char)
    (pending : Bool)
    (text : List Char) :
    spell (gapsFrom Option.isSome (some previous) pending text) =
      if blankWords text = [] then []
      else if pending || text.head?.any isBlank then ' ' :: joinedWords text
      else joinedWords text := by
  induction text generalizing previous pending with
  | nil => rfl
  | cons c rest inductionHypothesis =>
      cases letter : isBlank c with
      | true =>
          rw [gapsFrom, if_pos letter, inductionHypothesis, Text.blankWords_cons_of_isBlank letter,
            Text.joinedWords_cons_of_isBlank letter]
          simp [letter]
      | false =>
          obtain ⟨word, words, found⟩ := Text.exists_blankWords_cons letter rest
          have joined : c :: spell (gapsFrom Option.isSome (some c) false rest) =
              joinedWords (c :: rest) := by
            rw [inductionHypothesis]
            cases rest with
            | nil => simp [joinedWords, blankWords, Text.wordsOf, Text.splitAtEach, letter]
            | cons d rest =>
                cases next : isBlank d with
                | true =>
                    rw [Text.joinedWords_cons_cons_of_isBlank letter next,
                      Text.blankWords_cons_of_isBlank next, Text.joinedWords_cons_of_isBlank next]
                    simp [next]
                | false =>
                    obtain ⟨word, words, found⟩ := Text.exists_blankWords_cons next rest
                    rw [Text.joinedWords_cons_cons_of_letter letter next, found]
                    simp [next]
          rw [gapsFrom, if_neg (by simp [letter]), spell_cons, found, joined]
          cases pending <;> simp [letter]

/-- At the start of a text, no blank counts. -/
theorem spell_gapsFrom_none
    (pending : Bool)
    (text : List Char) :
    spell (gapsFrom Option.isSome none pending text) = joinedWords text := by
  induction text generalizing pending with
  | nil => rfl
  | cons c rest inductionHypothesis =>
      cases letter : isBlank c with
      | true =>
          rw [gapsFrom, if_pos letter, inductionHypothesis,
            Text.joinedWords_cons_of_isBlank letter]
      | false =>
          have behind := spell_gapsFrom_some c false (c :: rest)
          obtain ⟨word, words, found⟩ := Text.exists_blankWords_cons letter rest
          rw [found, if_neg (List.cons_ne_nil _ _)] at behind
          simpa [gapsFrom, letter, spell_cons] using behind

/-- Gaps of which those behind a colon are closed. -/
def closeGaps : Option Char → List (Char × Bool) → List (Char × Bool)
  | _, [] => []
  | previous, (c, gap) :: gaps =>
      (c, gap && previous != some ':') :: closeGaps (some c) gaps

theorem closeGaps_gapsFrom
    (previous : Option Char)
    (pending : Bool)
    (text : List Char) :
    closeGaps previous (gapsFrom Option.isSome previous pending text) =
      gapsFrom countsBehind previous pending text := by
  induction text generalizing previous pending with
  | nil => rfl
  | cons c rest inductionHypothesis =>
      cases letter : isBlank c with
      | true => rw [gapsFrom, if_pos letter, gapsFrom, if_pos letter, inductionHypothesis]
      | false =>
          rw [gapsFrom, if_neg (by simp [letter]), gapsFrom, if_neg (by simp [letter]), closeGaps,
            inductionHypothesis]
          cases previous <;> simp [countsBehind, bne]

/-- Gaps of which the first is closed when it stands behind a colon. -/
def closeFirst (previous : Option Char) : List (Char × Bool) → List (Char × Bool)
  | [] => []
  | (c, gap) :: gaps => (c, gap && previous != some ':') :: gaps

/-- Leaving out the spaces behind colons closes the gaps there. -/
theorem replaceAll_colon_spell
    (previous : Option Char)
    {gaps : List (Char × Bool)}
    (plain : ∀ gap ∈ gaps, gap.1 ≠ ' ') :
    Text.replaceAll [':', ' '] [':'] (spell (closeFirst previous gaps)) =
      spell (closeGaps previous gaps) := by
  unfold Text.replaceAll
  induction gaps generalizing previous with
  | nil => rfl
  | cons gap gaps inductionHypothesis =>
      obtain ⟨c, gap⟩ := gap
      obtain ⟨_, plain⟩ := List.forall_mem_cons.mp plain
      have behind : Text.replaceFrom [':', ' '] [':'] 0 (c :: spell gaps) =
          c :: spell (closeGaps (some c) gaps) := by
        rw [← inductionHypothesis (some c) plain, Text.replaceFrom]
        cases gaps with
        | nil => simp [spell, closeFirst, Text.replaceFrom, Text.startsWith, Text.dropStart?]
        | cons next gaps =>
            obtain ⟨d, next⟩ := next
            have notSpace : d ≠ ' ' := plain _ List.mem_cons_self
            cases next with
            | false =>
                have apart : ¬Text.startsWith [':', ' '] (c :: d :: spell gaps) = true := by
                  rw [Css.startsWith_pair]
                  rintro ⟨_, space⟩
                  exact notSpace (Option.some.inj space)
                rw [closeFirst, spell_cons, if_neg Bool.false_ne_true, if_neg apart]
                rfl
            | true =>
                rw [closeFirst, Bool.true_and, spell_cons, spell_cons, if_pos rfl]
                by_cases colon : c = ':'
                · subst colon
                  rw [if_pos ((Css.startsWith_pair ..).mpr ⟨rfl, rfl⟩)]
                  rfl
                · have apart :
                      ¬Text.startsWith [':', ' '] (c :: ' ' :: d :: spell gaps) = true := by
                    rw [Css.startsWith_pair]
                    exact fun pair => colon pair.1.symm
                  have different : (some c != some ':') = true := by simpa using colon
                  rw [if_neg apart, if_pos different]
      rw [closeFirst, closeGaps, spell_cons, spell_cons]
      split
      · rw [Text.replaceFrom, if_neg (by simp [Text.startsWith, Text.dropStart?]), behind]
      · exact behind

/-- A normalized query spells what counts when queries are compared. -/
theorem toList_normalizeQuery (query : String) :
    (normalizeQuery query).toList = spell (spacing query) := by
  have words : (String.intercalate " "
      ((blankWords (Text.lower query).toList).map String.ofList)).toList =
        spell (gapsFrom Option.isSome none false (Text.lower query).toList) := by
    rw [spell_gapsFrom_none]
    simp [String.toList_intercalate, joinedWords, Function.comp_def]
  have unclosed (gaps : List (Char × Bool)) : closeFirst none gaps = gaps := by
    cases gaps with
    | nil => rfl
    | cons gap gaps => exact congrArg (· :: gaps) (Prod.ext rfl (Bool.and_true gap.2))
  have plain : ∀ gap ∈ gapsFrom Option.isSome none false (Text.lower query).toList, gap.1 ≠ ' ' :=
    fun _ => ne_space_of_mem_gapsFrom
  have closed := replaceAll_colon_spell none plain
  rw [unclosed, closeGaps_gapsFrom] at closed
  rw [normalizeQuery, Text.substitute, String.toList_ofList, words]
  exact closed

/-- Queries are compared by their spacing. -/
theorem normalizeQuery_eq_iff
    {first second : String} :
    normalizeQuery first = normalizeQuery second ↔ SpacedAlike first second := by
  rw [← String.toList_inj, toList_normalizeQuery, toList_normalizeQuery]
  constructor
  · exact spell_injective (fun _ => ne_space_of_mem_gapsFrom) fun _ => ne_space_of_mem_gapsFrom
  · exact congrArg spell

/-! ## Adding to a merge -/

theorem addMedia_cons
    (query : String)
    (items : List Css.Item)
    (media : Media)
    (rest : List Media) :
    addMedia query items (media :: rest) =
      if SpacedAlike media.query query then ⟨media.query, media.items ++ items⟩ :: rest
      else media :: addMedia query items rest := by
  rw [addMedia]
  exact if_congr normalizeQuery_eq_iff rfl rfl

/-- Items are added under a query that is spaced like their own, or under their own. -/
theorem query_mem_of_mem_addMedia
    {query : String}
    {items : List Css.Item}
    {merged : List Media}
    {media : Media}
    (member : media ∈ addMedia query items merged) :
    media.query = query ∨ media.query ∈ merged.map Media.query := by
  induction merged with
  | nil =>
      obtain rfl := List.mem_singleton.mp member
      exact .inl rfl
  | cons first rest inductionHypothesis =>
      rw [addMedia] at member
      split at member
      · rcases List.mem_cons.mp member with rfl | later
        · exact .inr List.mem_cons_self
        · exact .inr (List.mem_cons_of_mem _ (List.mem_map_of_mem later))
      · rcases List.mem_cons.mp member with rfl | later
        · exact .inr List.mem_cons_self
        · exact (inductionHypothesis later).imp_right (List.mem_cons_of_mem _)

/-- After items are added there is a block for their query, and for no other query that had
none. -/
theorem exists_alike_addMedia_iff
    (query wanted : String)
    (items : List Css.Item)
    (merged : List Media) :
    (∃ media ∈ addMedia query items merged, SpacedAlike media.query wanted) ↔
      (∃ media ∈ merged, SpacedAlike media.query wanted) ∨ SpacedAlike query wanted := by
  induction merged with
  | nil => simp [addMedia]
  | cons media rest inductionHypothesis =>
      rw [addMedia_cons]
      by_cases same : SpacedAlike media.query query
      · have known : SpacedAlike query wanted ↔ SpacedAlike media.query wanted :=
          ⟨same.trans, same.symm.trans⟩
        simp only [if_pos same, List.exists_mem_cons_iff, known]
        exact (or_iff_left_of_imp .inl).symm
      · simp only [if_neg same, List.exists_mem_cons_iff, inductionHypothesis, or_assoc]

/-- No two blocks have queries that are spaced alike. -/
def AreApart (blocks : List Media) : Prop :=
  blocks.Pairwise fun first second => ¬SpacedAlike first.query second.query

theorem AreApart.addMedia
    {merged : List Media}
    (apart : AreApart merged)
    (query : String)
    (items : List Css.Item) :
    AreApart (addMedia query items merged) := by
  induction merged with
  | nil => exact List.pairwise_singleton _ _
  | cons media rest inductionHypothesis =>
      obtain ⟨first, others⟩ := List.pairwise_cons.mp apart
      rw [addMedia_cons]
      split
      · exact List.pairwise_cons.mpr ⟨first, others⟩
      · next different =>
          refine List.pairwise_cons.mpr ⟨fun other member => ?_, inductionHypothesis others⟩
          rcases query_mem_of_mem_addMedia member with new | known
          · rw [new]
            exact different
          · obtain ⟨block, present, same⟩ := List.mem_map.mp known
            rw [← same]
            exact first block present

/-- The items under the first of some queries that is spaced like a query. -/
def heldUnder (query : String) : List Media → List Css.Item
  | [] => []
  | media :: rest => if SpacedAlike media.query query then media.items else heldUnder query rest

theorem heldUnder_addMedia
    (query wanted : String)
    (items : List Css.Item)
    (merged : List Media) :
    heldUnder wanted (addMedia query items merged) =
      heldUnder wanted merged ++ if SpacedAlike wanted query then items else [] := by
  have swap : SpacedAlike wanted query ↔ SpacedAlike query wanted := eq_comm
  rw [if_congr swap rfl rfl]
  induction merged with
  | nil => simp [addMedia, heldUnder]
  | cons media rest inductionHypothesis =>
      rw [addMedia_cons]
      by_cases same : SpacedAlike media.query query
      · rw [if_pos same, heldUnder, heldUnder]
        by_cases found : SpacedAlike media.query wanted
        · have alike : SpacedAlike query wanted := same.symm.trans found
          rw [if_pos found, if_pos found, if_pos alike]
        · have apart : ¬SpacedAlike query wanted := fun alike => found (same.trans alike)
          rw [if_neg found, if_neg found, if_neg apart, List.append_nil]
      · rw [if_neg same, heldUnder, heldUnder, inductionHypothesis]
        by_cases found : SpacedAlike media.query wanted
        · have apart : ¬SpacedAlike query wanted := fun alike => same (found.trans alike.symm)
          rw [if_pos found, if_pos found, if_neg apart, List.append_nil]
        · rw [if_neg found, if_neg found]

theorem heldUnder_query
    {blocks : List Media}
    (apart : AreApart blocks)
    {block : Media}
    (member : block ∈ blocks) :
    heldUnder block.query blocks = block.items := by
  induction blocks with
  | nil => cases member
  | cons first rest inductionHypothesis =>
      obtain ⟨firstApart, restApart⟩ := List.pairwise_cons.mp apart
      rw [heldUnder]
      rcases List.mem_cons.mp member with rfl | later
      · exact if_pos rfl
      · rw [if_neg (firstApart block later), inductionHypothesis restApart later]

/-! ## The blocks of a merge -/

/-- What a sheet holds in media queries that are spaced like a query, in source order. -/
def itemsUnder (query : String) (items : List Css.Item) : List Css.Item :=
  items.flatMap fun item =>
    match item with
    | .group name other inner =>
        if name = mediaName ∧ SpacedAlike query other then inner else []
    | _ => []

/-- An item that a merge passes over. -/
structure IsPassedOver (item : Css.Item) : Prop where
  /-- Nothing is added to the merge. -/
  addItem_eq : ∀ merged, addItem merged item = merged
  /-- The item has no query. -/
  mediaQueries_eq : ∀ items, mediaQueries (item :: items) = mediaQueries items
  /-- The item holds nothing under a query. -/
  itemsUnder_eq : ∀ query items, itemsUnder query (item :: items) = itemsUnder query items

theorem isPassedOver_group
    {name : String}
    (other : name ≠ mediaName)
    (query : String)
    (inner : List Css.Item) :
    IsPassedOver (.group name query inner) where
  addItem_eq merged := by rw [addItem, if_neg other]
  mediaQueries_eq items := by simp [mediaQueries, other]
  itemsUnder_eq wanted items := by simp [itemsUnder, other]

/-- An item is a media query with items, or it is passed over. -/
theorem exists_media_or_isPassedOver (item : Css.Item) :
    (∃ query inner, item = .group mediaName query inner) ∨ IsPassedOver item := by
  cases item with
  | rule rule => exact .inr ⟨fun _ => rfl, fun _ => rfl, fun _ _ => rfl⟩
  | statement name prelude => exact .inr ⟨fun _ => rfl, fun _ => rfl, fun _ _ => rfl⟩
  | descriptors name prelude declarations =>
      exact .inr ⟨fun _ => rfl, fun _ => rfl, fun _ _ => rfl⟩
  | group name query inner =>
      by_cases media : name = mediaName
      · exact .inl ⟨query, inner, by rw [media]⟩
      · exact .inr (isPassedOver_group media query inner)

section Media

variable (query : String) (inner items : List Css.Item)

theorem addItem_media (merged : List Media) :
    addItem merged (.group mediaName query inner) = addMedia query inner merged := by
  rw [addItem, if_pos rfl]

theorem mediaQueries_media :
    mediaQueries (.group mediaName query inner :: items) = query :: mediaQueries items := by
  simp [mediaQueries]

theorem itemsUnder_media (wanted : String) :
    itemsUnder wanted (.group mediaName query inner :: items) =
      (if SpacedAlike wanted query then inner else []) ++ itemsUnder wanted items := by
  simp [itemsUnder]

end Media

theorem AreApart.foldl_addItem
    {merged : List Media}
    (apart : AreApart merged)
    (items : List Css.Item) :
    AreApart (items.foldl addItem merged) := by
  induction items generalizing merged with
  | nil => exact apart
  | cons item items inductionHypothesis =>
      rw [List.foldl_cons]
      rcases exists_media_or_isPassedOver item with ⟨query, inner, rfl⟩ | passed
      · rw [addItem_media]
        exact inductionHypothesis (apart.addMedia query inner)
      · rw [passed.addItem_eq]
        exact inductionHypothesis apart

theorem exists_alike_foldl_addItem_iff
    (wanted : String)
    (items : List Css.Item)
    (merged : List Media) :
    (∃ media ∈ items.foldl addItem merged, SpacedAlike media.query wanted) ↔
      (∃ media ∈ merged, SpacedAlike media.query wanted) ∨
        ∃ query ∈ mediaQueries items, SpacedAlike query wanted := by
  induction items generalizing merged with
  | nil => simp [mediaQueries]
  | cons item items inductionHypothesis =>
      rw [List.foldl_cons, inductionHypothesis]
      rcases exists_media_or_isPassedOver item with ⟨query, inner, rfl⟩ | passed
      · rw [addItem_media, mediaQueries_media, exists_alike_addMedia_iff,
          List.exists_mem_cons_iff, or_assoc]
      · rw [passed.addItem_eq, passed.mediaQueries_eq]

/-- The blocks of a merge have queries of the sheet. -/
theorem query_mem_of_mem_foldl_addItem
    {items : List Css.Item}
    {merged : List Media}
    {media : Media}
    (member : media ∈ items.foldl addItem merged) :
    media.query ∈ mediaQueries items ∨ media.query ∈ merged.map Media.query := by
  induction items generalizing merged with
  | nil => exact .inr (List.mem_map_of_mem member)
  | cons item items inductionHypothesis =>
      rw [List.foldl_cons] at member
      rcases exists_media_or_isPassedOver item with ⟨query, inner, rfl⟩ | passed
      · rw [addItem_media] at member
        rw [mediaQueries_media, List.mem_cons]
        rcases inductionHypothesis member with later | added
        · exact .inl (.inr later)
        · obtain ⟨block, present, same⟩ := List.mem_map.mp added
          rw [← same]
          exact (query_mem_of_mem_addMedia present).imp_left .inl
      · rw [passed.addItem_eq] at member
        rw [passed.mediaQueries_eq]
        exact inductionHypothesis member

theorem heldUnder_foldl_addItem
    (wanted : String)
    (items : List Css.Item)
    (merged : List Media) :
    heldUnder wanted (items.foldl addItem merged) =
      heldUnder wanted merged ++ itemsUnder wanted items := by
  induction items generalizing merged with
  | nil => simp [itemsUnder]
  | cons item items inductionHypothesis =>
      rw [List.foldl_cons, inductionHypothesis]
      rcases exists_media_or_isPassedOver item with ⟨query, inner, rfl⟩ | passed
      · rw [addItem_media, heldUnder_addMedia, itemsUnder_media, List.append_assoc]
      · rw [passed.addItem_eq, passed.itemsUnder_eq]

/-! ## The written blocks -/

/-- The written form of a media query with its items. -/
def Media.write (media : Media) : String :=
  (Css.Item.group mediaName media.query media.items).write

theorem forceImportant_media (query : String) (inner : List Css.Item) :
    (Css.Item.group mediaName query inner).forceImportant =
      .group mediaName query (Css.forceImportantAll inner) := rfl

theorem IsPassedOver.forceImportant
    {item : Css.Item}
    (passed : IsPassedOver item) :
    IsPassedOver item.forceImportant := by
  cases item with
  | rule rule => exact ⟨fun _ => rfl, fun _ => rfl, fun _ _ => rfl⟩
  | statement name prelude => exact passed
  | descriptors name prelude declarations =>
      rw [Css.Item.forceImportant]
      split <;> exact ⟨fun _ => rfl, fun _ => rfl, fun _ _ => rfl⟩
  | group name query inner =>
      have other : name ≠ mediaName := by
        rintro rfl
        have queries := passed.mediaQueries_eq []
        rw [mediaQueries_media] at queries
        cases queries
      rw [Css.Item.forceImportant]
      split <;> exact isPassedOver_group other query _

theorem mediaQueries_forceImportant (items : List Css.Item) :
    mediaQueries (Css.forceImportantAll items) = mediaQueries items := by
  induction items with
  | nil => rfl
  | cons item items inductionHypothesis =>
      rw [Css.forceImportantAll]
      rcases exists_media_or_isPassedOver item with ⟨query, inner, rfl⟩ | passed
      · rw [forceImportant_media, mediaQueries_media, mediaQueries_media, inductionHypothesis]
      · rw [passed.forceImportant.mediaQueries_eq, passed.mediaQueries_eq, inductionHypothesis]

theorem itemsUnder_forceImportant (query : String) (items : List Css.Item) :
    itemsUnder query (Css.forceImportantAll items) =
      Css.forceImportantAll (itemsUnder query items) := by
  induction items with
  | nil => rfl
  | cons item items inductionHypothesis =>
      rw [Css.forceImportantAll]
      rcases exists_media_or_isPassedOver item with ⟨other, inner, rfl⟩ | passed
      · rw [forceImportant_media, itemsUnder_media, itemsUnder_media, inductionHypothesis]
        split
        · rw [Css.forceImportantAll_eq_map, Css.forceImportantAll_eq_map,
            Css.forceImportantAll_eq_map, List.map_append]
        · rfl
      · rw [passed.forceImportant.itemsUnder_eq, passed.itemsUnder_eq, inductionHypothesis]

/-- The blocks of a written head, as the written forms of queries ask for them. -/
structure HasBlockPerQuery (queries : List String) (blocks : List Media) : Prop where
  /-- No two blocks carry the same written query. -/
  distinct : (blocks.map fun block => Css.minifyPrelude block.query).Nodup
  /-- What stands under queries that are written alike is in one block. -/
  together : ∀ first ∈ queries, ∀ second ∈ queries,
    Css.minifyPrelude first = Css.minifyPrelude second →
      ∃ block ∈ blocks, SpacedAlike block.query first ∧ SpacedAlike block.query second

theorem writeItems_append (first second : List Css.Item) :
    Css.writeItems (first ++ second) = Css.writeItems first ++ Css.writeItems second := by
  induction first with
  | nil => simp [Css.writeItems]
  | cons item first inductionHypothesis =>
      rw [List.cons_append, Css.writeItems, inductionHypothesis, Css.writeItems,
        String.append_assoc]

theorem writeItems_map_media (blocks : List Media) :
    Css.writeItems (blocks.map fun media => .group mediaName media.query media.items) =
      String.join (blocks.map Media.write) := by
  induction blocks with
  | nil => rfl
  | cons block blocks inductionHypothesis =>
      rw [List.map_cons, Css.writeItems, inductionHypothesis, List.map_cons, String.join_cons]
      rfl

/-- The media queries of a head as they are written, marked important and merged. -/
def Partition.blocks (partition : Partition) : List Media :=
  mergedMedia (Css.forceImportantAll partition.head.items)

theorem blocks_eq_foldl (partition : Partition) :
    partition.blocks = (Css.forceImportantAll partition.head.items).foldl addItem [] := rfl

theorem headCss_eq (partition : Partition) :
    partition.headCss =
      Css.writeItems ((Css.forceImportantAll partition.head.items).filter (!isMedia ·)) ++
        String.join (partition.blocks.map Media.write) := by
  rw [← writeItems_map_media, ← writeItems_append]
  rfl

theorem Partition.areApart_blocks (partition : Partition) : AreApart partition.blocks :=
  AreApart.foldl_addItem .nil _

theorem items_eq_of_mem_blocks
    {partition : Partition}
    {block : Media}
    (member : block ∈ partition.blocks) :
    block.items = Css.forceImportantAll (itemsUnder block.query partition.head.items) := by
  rw [← heldUnder_query partition.areApart_blocks member, blocks_eq_foldl, heldUnder_foldl_addItem,
    itemsUnder_forceImportant]
  rfl

theorem query_mem_of_mem_blocks
    {partition : Partition}
    {block : Media}
    (member : block ∈ partition.blocks) :
    block.query ∈ mediaQueries partition.head.items := by
  rw [← mediaQueries_forceImportant]
  exact (query_mem_of_mem_foldl_addItem member).resolve_right (by simp)

theorem exists_block_of_mem
    {partition : Partition}
    {query : String}
    (member : query ∈ mediaQueries partition.head.items) :
    ∃ block ∈ partition.blocks, SpacedAlike block.query query := by
  rw [blocks_eq_foldl, exists_alike_foldl_addItem_iff, mediaQueries_forceImportant]
  exact .inr ⟨query, member, rfl⟩

/-- A written head has the other items in front and then a block for each kind of spacing, with
all that stands under queries of that spacing, in source order. It has one block for each written
query exactly when all queries that are written alike are spaced alike. -/
theorem headCss_block_per_query_iff (partition : Partition) :
    partition.headCss =
        Css.writeItems ((Css.forceImportantAll partition.head.items).filter (!isMedia ·)) ++
          String.join (partition.blocks.map Media.write) ∧
      (∀ block ∈ partition.blocks, block.items =
        Css.forceImportantAll (itemsUnder block.query partition.head.items)) ∧
      (HasBlockPerQuery (mediaQueries partition.head.items) partition.blocks ↔
        ∀ first ∈ mediaQueries partition.head.items,
          ∀ second ∈ mediaQueries partition.head.items,
            Css.minifyPrelude first = Css.minifyPrelude second → SpacedAlike first second) := by
  refine ⟨headCss_eq partition, fun _ => items_eq_of_mem_blocks, fun perQuery => ?_,
    fun alike => ⟨?_, ?_⟩⟩
  · intro first firstMember second secondMember same
    obtain ⟨block, _, firstAlike, secondAlike⟩ :=
      perQuery.together first firstMember second secondMember same
    exact firstAlike.symm.trans secondAlike
  · refine List.pairwise_map.mpr (partition.areApart_blocks.imp_of_mem ?_)
    intro first second firstMember secondMember different same
    exact different (alike _ (query_mem_of_mem_blocks firstMember) _
      (query_mem_of_mem_blocks secondMember) same)
  · intro first firstMember second secondMember same
    obtain ⟨block, member, firstAlike⟩ := exists_block_of_mem firstMember
    exact ⟨block, member, firstAlike,
      firstAlike.trans (alike first firstMember second secondMember same)⟩

/-- Two media queries that differ in a blank behind a comma are written alike, but in two
blocks. -/
theorem query_written_twice :
    Css.minifyPrelude "screen, print" = Css.minifyPrelude "screen,print" ∧
      (Partition.split (Css.Sheet.read
        "@media screen,print\x7ba\x7bb:c\x7d\x7d@media screen, print\x7bd\x7be:f\x7d\x7d")).headCss =
        "@media screen,print\x7ba\x7bb:c!important\x7d\x7d" ++
          "@media screen,print\x7bd\x7be:f!important\x7d\x7d" := by
  decide +kernel

end Style
end MailPress
