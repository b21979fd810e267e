import Mathlib.Computability.StateTransition
import MailPress.Proofs.Css.Rule

/-!
# Reading goes on to the end

A style sheet is read in loops: one over the items of a list, which is entered again for the block
of a grouping at-rule, and inside its rounds the scans of single stretches. Each turn of a loop
leaves a rest of the text that is shorter than the one it found, even where an at-rule gives the
brace that ended it back. So every loop ends, and the outermost ends nowhere but at the end of the
source.

The rounds are composed of the functions that read the sheet, and the loops are relations that need
not end by their form. That the pieces of the sheet, nested, are what the loops collect is proved
here too.
-/

namespace MailPress
namespace Css

open StateTransition

/-! ## Places in a source -/

/-- The byte of a source at which a rest of it starts. -/
def position (source : String) (rest : List Char) : Nat :=
  source.utf8ByteSize - (String.ofList rest).utf8ByteSize

/-- The position lies in the source, on the boundary of a character. -/
def IsBoundary (source : String) (position : Nat) : Prop :=
  String.Pos.Raw.IsValid source ⟨position⟩

section Positions

variable {source : String} {before text rest : List Char}

theorem position_eq_of_append (whole : source.toList = before ++ rest) :
    position source rest = (String.ofList before).utf8ByteSize := by
  have parts : source = String.ofList before ++ String.ofList rest := by
    rw [← String.ofList_append, ← whole, String.ofList_toList]
  rw [position, parts, String.utf8ByteSize_append, Nat.add_sub_cancel]

theorem isBoundary_position (suffix : rest <:+ source.toList) :
    IsBoundary source (position source rest) := by
  obtain ⟨before, whole⟩ := suffix
  rw [position_eq_of_append whole.symm]
  refine String.Pos.Raw.isValid_iff_exists_append.mpr
    ⟨String.ofList before, String.ofList rest, ?_, rfl⟩
  rw [← String.ofList_append, whole, String.ofList_toList]

/-- A shorter rest starts further on. -/
theorem position_lt_position
    (suffix : text <:+ source.toList)
    (left : rest <:+ text)
    (shorter : rest.length < text.length) :
    position source text < position source rest := by
  obtain ⟨before, whole⟩ := suffix
  obtain ⟨taken, rfl⟩ := left
  have takenBytes : 0 < (String.ofList taken).utf8ByteSize := by
    rw [Nat.pos_iff_ne_zero]
    intro nothing
    simp_all
  have further : source.toList = (before ++ taken) ++ rest := by
    rw [← whole, List.append_assoc]
  rw [position_eq_of_append whole.symm, position_eq_of_append further, String.ofList_append,
    String.utf8ByteSize_append]
  omega

/-- The second place is further on in the source, on the boundary of a character. -/
structure Advances (source : String) (text next : List Char) : Prop where
  /-- It is further on. -/
  further : position source text < position source next
  /-- It is on a boundary. -/
  boundary : IsBoundary source (position source next)

theorem advances_of_shorter
    (suffix : text <:+ source.toList)
    (left : rest <:+ text)
    (shorter : rest.length < text.length) :
    Advances source text rest :=
  ⟨position_lt_position suffix left shorter, isBoundary_position (left.trans suffix)⟩

/-- A closing brace takes one byte. -/
theorem position_closing (suffix : '}' :: rest <:+ source.toList) :
    position source ('}' :: rest) + 1 = position source rest := by
  obtain ⟨before, whole⟩ := suffix
  have behind : source.toList = (before ++ ['}']) ++ rest := by
    rw [← whole, List.append_cons]
  rw [position_eq_of_append whole.symm, position_eq_of_append behind, String.ofList_append,
    String.utf8ByteSize_append]
  rfl

end Positions

/-! ## Loops that take off -/

/-- Every turn of a loop leaves less than it finds. -/
structure TakesOff {State : Type} (turn : State → Option State) (rest : State → List Char) :
    Prop where
  /-- What it leaves stood at the end of what it found. -/
  left : ∀ here next, turn here = some next → rest next <:+ rest here
  /-- It is shorter. -/
  shorter : ∀ here next, turn here = some next → (rest next).length < (rest here).length

namespace TakesOff

variable {State Result : Type} {turn : State → Option State} {rest : State → List Char}
  {start here next : State}

theorem suffix_of_reaches (takesOff : TakesOff turn rest) (reaches : Reaches turn start here) :
    rest here <:+ rest start := by
  induction reaches with
  | refl => exact List.suffix_rfl
  | tail _ turns inductionHypothesis =>
      exact (takesOff.left _ _ turns).trans inductionHypothesis

theorem advances
    {source : String}
    (takesOff : TakesOff turn rest)
    (suffix : rest start <:+ source.toList)
    (reaches : Reaches turn start here)
    (turns : turn here = some next) :
    Advances source (rest here) (rest next) :=
  advances_of_shorter ((takesOff.suffix_of_reaches reaches).trans suffix)
    (takesOff.left here next turns) (takesOff.shorter here next turns)

/-- Such a loop ends, with the result that no turn changes. -/
theorem exists_mem_eval
    (takesOff : TakesOff turn rest)
    (result : State → Result)
    (kept : ∀ here next, turn here = some next → result next = result here)
    (start : State) :
    ∃ ended ∈ eval turn start, turn ended = none ∧ result ended = result start := by
  induction size : (rest start).length using Nat.strong_induction_on generalizing start with
  | _ size inductionHypothesis =>
      subst size
      cases turns : turn start with
      | none => exact ⟨start, mem_eval.mpr ⟨.refl, turns⟩, turns, rfl⟩
      | some next =>
          obtain ⟨ended, ends, last, same⟩ :=
            inductionHypothesis _ (takesOff.shorter start next turns) next rfl
          rw [← kept start next turns]
          exact ⟨ended, by rwa [reaches_eval (.single turns)], last, same⟩

end TakesOff

/-! ## Gaps -/

/-- One turn of skipping blanks and comments; the flag tells whether it stands in a comment. -/
def gapTurn : Bool × List Char → Option (Bool × List Char)
  | (_, []) => none
  | (true, '*' :: '/' :: rest) => some (false, rest)
  | (true, _ :: rest) => some (true, rest)
  | (false, '/' :: '*' :: rest) => some (true, rest)
  | (false, c :: rest) => if Text.isBlank c then some (false, rest) else none

theorem gapTurn_takesOff : TakesOff gapTurn Prod.snd where
  left here next turns := by
    revert turns
    fun_cases gapTurn here <;> rintro ⟨⟩ <;> simp_all [List.suffix_cons_iff]
  shorter here next turns := by
    revert turns
    fun_cases gapTurn here <;> rintro ⟨⟩ <;> simp only [List.length_cons] <;> omega

/-- A turn does not change what is left behind the gaps. -/
theorem skipGaps_eq_of_gapTurn
    {here next : Bool × List Char}
    (turns : gapTurn here = some next) :
    skipGaps next.1 next.2 = skipGaps here.1 here.2 := by
  symm
  revert turns
  fun_cases gapTurn here <;> rintro ⟨⟩
  -- The definition is opened as a whole: its equations are slow to derive.
  all_goals
    rw [skipGaps.eq_def]
    dsimp only
    split <;> grind

theorem skipGaps_of_gapTurn_eq_none
    {here : Bool × List Char}
    (last : gapTurn here = none) :
    skipGaps here.1 here.2 = here.2 := by
  revert last
  fun_cases gapTurn here <;> rintro ⟨⟩ <;> rw [skipGaps.eq_def]
  dsimp only
  split <;> grind

/-- The turns end where the gaps do. -/
theorem exists_mem_eval_gapTurn (text : List Char) :
    ∃ ended ∈ eval gapTurn (false, text), ended.2 = skipGaps false text := by
  obtain ⟨ended, ends, last, same⟩ :=
    gapTurn_takesOff.exists_mem_eval (fun here => skipGaps here.1 here.2)
      (fun _ _ => skipGaps_eq_of_gapTurn) (false, text)
  exact ⟨ended, ends, (skipGaps_of_gapTurn_eq_none last).symm.trans same⟩

/-! ## Scans -/

/-- A stretch that is being read. -/
structure Reading where
  /-- Where the scan stands. -/
  state : ScanState
  /-- The characters read so far, comments left out. -/
  read : List Char
  /-- The source that is left. -/
  rest : List Char

namespace Reading

/-- One turn of a reading. There is none at the end of the text and in front of a stop character. -/
def turn (stops : List Char) (reading : Reading) : Option Reading :=
  match reading.state, reading.rest with
  | _, [] => none
  | .comment depth, '*' :: '/' :: rest => some ⟨.plain depth, reading.read, rest⟩
  | .comment depth, _ :: rest => some ⟨.comment depth, reading.read, rest⟩
  | .quoted quote depth, '\\' :: c :: rest =>
      some ⟨.quoted quote depth, reading.read ++ ['\\', c], rest⟩
  | .quoted quote depth, c :: rest =>
      if c = quote then some ⟨.plain depth, reading.read ++ [c], rest⟩
      else some ⟨.quoted quote depth, reading.read ++ [c], rest⟩
  | .plain depth, '/' :: '*' :: rest => some ⟨.comment depth, reading.read, rest⟩
  | .plain depth, c :: rest =>
      if depth = 0 ∧ c ∈ stops then none
      else some ⟨stateAfter depth c, reading.read ++ [c], rest⟩

/-- What a scan comes to read in all. -/
def total (stops : List Char) (reading : Reading) : Stretch :=
  let stretch := readUntil stops reading.state reading.rest
  { stretch with text := reading.read ++ stretch.text }

variable {stops : List Char} {reading next : Reading}

theorem turn_takesOff (stops : List Char) : TakesOff (turn stops) rest where
  left here next turns := by
    obtain ⟨state, read, text⟩ := here
    revert turns
    fun_cases turn stops ⟨state, read, text⟩ <;> rintro ⟨⟩ <;> simp_all [List.suffix_cons_iff]
  shorter here next turns := by
    obtain ⟨state, read, text⟩ := here
    revert turns
    fun_cases turn stops ⟨state, read, text⟩ <;> rintro ⟨⟩ <;>
      simp_all only [List.length_cons] <;> omega

/-- A turn does not change what is read in all. -/
theorem total_eq_of_turn (turns : reading.turn stops = some next) :
    next.total stops = reading.total stops := by
  obtain ⟨state, read, text⟩ := reading
  revert turns
  fun_cases turn stops ⟨state, read, text⟩ <;> rintro ⟨⟩ <;>
    grind [total, readUntil, Stretch.push]

/-- A scan without a next turn has read everything. -/
theorem total_of_turn_eq_none (last : reading.turn stops = none) :
    (reading.total stops).text = reading.read ∧
      (reading.total stops).stop.toList ++ (reading.total stops).rest = reading.rest := by
  obtain ⟨state, read, text⟩ := reading
  revert last
  fun_cases turn stops ⟨state, read, text⟩ <;> rintro ⟨⟩ <;> simp_all [total, readUntil]

/-- A scan ends in front of its stop character, and has read all up to there. -/
theorem exists_mem_eval (stops text : List Char) :
    ∃ ended ∈ eval (turn stops) ⟨.plain 0, [], text⟩,
      ended.read = (readUntil stops (.plain 0) text).text ∧
        ended.rest =
          (readUntil stops (.plain 0) text).stop.toList ++
            (readUntil stops (.plain 0) text).rest := by
  obtain ⟨ended, ends, last, same⟩ :=
    (turn_takesOff stops).exists_mem_eval (total stops) (fun _ _ => total_eq_of_turn)
      ⟨.plain 0, [], text⟩
  obtain ⟨read, left⟩ := total_of_turn_eq_none last
  rw [same] at read left
  exact ⟨ended, ends, read.symm, left.symm⟩

end Reading

/-! ## Passes over declarations -/

/-- One pass over a list of declarations, which puts the text without comments together. -/
def declarationPass : List Char × List Char → Option (List Char × List Char)
  | (_, []) => none
  | (body, text) =>
      let stretch := readUntil [] (.plain 0) text
      some (body ++ stretch.text, stretch.rest)

/-- A scan without stop characters goes to the end. -/
theorem rest_readUntil_nil (state : ScanState) (text : List Char) :
    (readUntil [] state text).rest = [] := by
  fun_induction readUntil [] state text <;> simp_all

theorem declarationPass_of_ne_nil
    {text : List Char}
    (nonempty : text ≠ [])
    (body : List Char) :
    declarationPass (body, text) = some (body ++ (readUntil [] (.plain 0) text).text, []) := by
  obtain ⟨c, rest, rfl⟩ := List.exists_cons_of_ne_nil nonempty
  simp [declarationPass, rest_readUntil_nil]

/-- The passes over a list of declarations put its text together. -/
theorem mem_eval_declarationPass (text : List Char) :
    ((readUntil [] (.plain 0) text).text, []) ∈ eval declarationPass ([], text) := by
  rw [mem_eval]
  refine ⟨?_, rfl⟩
  cases text with
  | nil => exact .refl
  | cons c rest => exact .single (declarationPass_of_ne_nil (List.cons_ne_nil c rest) [])

/-! ## Rounds -/

/-- What a round of the loop over items comes to. -/
inductive Round
  /-- The loop ends here. -/
  | ends (rest : List Char)
  /-- At most one item was read. -/
  | takes (item : Option Item) (rest : List Char)
  /-- The head of a grouping at-rule was read, and its block is to be read. -/
  | enters (name prelude : String) (inside : List Char)

/-- The round in which a piece is read. -/
def Round.ofPiece : Option Piece × List Char → Round
  | (some (.opening name prelude), inside) => .enters name prelude inside
  | (some (.whole item), rest) => .takes (some item) rest
  | (_, rest) => .takes none rest

/-- One round of the loop over items. A closing brace ends the loop in a block and is skipped
outside of blocks. -/
def itemRound (nested : Bool) (text : List Char) : Round :=
  match skipGaps false text with
  | [] => .ends []
  | c :: rest =>
      if c = '}' then if nested then .ends rest else .takes none rest
      else if c = '@' then .ofPiece (readAtRule rest)
      else .ofPiece (readRule (c :: rest))

theorem skipGaps_suffix (inComment : Bool) (text : List Char) : skipGaps inComment text <:+ text := by
  fun_induction skipGaps inComment text <;> simp_all [List.suffix_cons_iff]

theorem left_readUntil_suffix (stops : List Char) (state : ScanState) (text : List Char) :
    (readUntil stops state text).stop.toList ++ (readUntil stops state text).rest <:+ text := by
  fun_induction readUntil stops state text <;> simp_all [List.suffix_cons_iff]

theorem rest_readUntil_suffix (stops : List Char) (state : ScanState) (text : List Char) :
    (readUntil stops state text).rest <:+ text :=
  (List.suffix_append _ _).trans (left_readUntil_suffix stops state text)

theorem readRule_suffix (text : List Char) : (readRule text).2 <:+ text := by
  unfold readRule
  dsimp only
  split
  · split <;> exact (rest_readUntil_suffix ..).trans (rest_readUntil_suffix ..)
  · exact rest_readUntil_suffix ..

theorem readAtRule_suffix (text : List Char) : (readAtRule text).2 <:+ text := by
  have head := rest_readUntil_suffix ['{', ';', '}'] (.plain 0) (text.dropWhile isAtNameChar)
  have named := List.dropWhile_suffix (l := text) isAtNameChar
  unfold readAtRule
  dsimp only
  split
  · split
    · exact head.trans named
    · exact ((rest_readUntil_suffix ..).trans head).trans named
  · next stopped =>
      have back := left_readUntil_suffix ['{', ';', '}'] (.plain 0) (text.dropWhile isAtNameChar)
      rw [stopped] at back
      exact back.trans named
  · exact head.trans named

/-- An at-rule that a closing brace ends gives the brace back. -/
theorem readAtRule_of_stop_closing
    {text : List Char}
    (stopped : (readUntil ['{', ';', '}'] (.plain 0) (text.dropWhile isAtNameChar)).stop = some '}') :
    (readAtRule text).2 =
      '}' :: (readUntil ['{', ';', '}'] (.plain 0) (text.dropWhile isAtNameChar)).rest := by
  unfold readAtRule
  dsimp only
  rw [stopped]
  rfl

theorem readRule_ne_closing (text : List Char) : (readRule text).1 ≠ some .closing := by
  unfold readRule
  dsimp only
  split
  · split <;> nofun
  · nofun

theorem readAtRule_ne_closing (text : List Char) : (readAtRule text).1 ≠ some .closing := by
  unfold readAtRule
  dsimp only
  split
  · split <;> split <;> nofun
  · split <;> nofun
  · split <;> nofun

/-- What a round can come to, with the pieces that it accounts for. -/
inductive RoundCases (nested : Bool) (text : List Char) : Round → Prop
  /-- Nothing is left to read. -/
  | finish (cut : pieces text = []) : RoundCases nested text (.ends [])
  /-- A closing brace ends the block. -/
  | closes {rest : List Char} (inBlock : nested = true) (left : rest <:+ text)
      (cut : pieces text = .closing :: pieces rest) : RoundCases nested text (.ends rest)
  /-- A closing brace closes nothing. -/
  | stray {rest : List Char} (outermost : nested = false) (left : rest <:+ text)
      (shorter : rest.length < text.length)
      (cut : pieces text = .closing :: pieces rest) : RoundCases nested text (.takes none rest)
  /-- An item is read, or a text that yields none. -/
  | takes {item : Option Item} {rest : List Char} (left : rest <:+ text)
      (shorter : rest.length < text.length)
      (cut : pieces text = (item.map Piece.whole).toList ++ pieces rest) :
      RoundCases nested text (.takes item rest)
  /-- The head of a grouping at-rule is read. -/
  | enters {name prelude : String} {inside : List Char} (left : inside <:+ text)
      (shorter : inside.length < text.length)
      (cut : pieces text = .opening name prelude :: pieces inside) :
      RoundCases nested text (.enters name prelude inside)

theorem RoundCases.ofPiece
    {nested : Bool}
    {text rest : List Char}
    {piece : Option Piece}
    (left : rest <:+ text)
    (shorter : rest.length < text.length)
    (other : piece ≠ some .closing)
    (cut : pieces text = piece.toList ++ pieces rest) :
    RoundCases nested text (.ofPiece (piece, rest)) := by
  cases piece with
  | none => exact .takes left shorter cut
  | some piece =>
      cases piece with
      | whole item => exact .takes left shorter cut
      | opening name prelude => exact .enters left shorter cut
      | closing => exact absurd rfl other

theorem roundCases
    {nested : Bool}
    {text : List Char}
    {round : Round}
    (goes : itemRound nested text = round) :
    RoundCases nested text round := by
  have gaps := skipGaps_suffix false text
  rw [← goes]
  unfold itemRound
  cases start : skipGaps false text with
  | nil => exact .finish (pieces_of_skipGaps_eq_nil start)
  | cons c rest =>
      rw [start] at gaps
      have cut := pieces_of_skipGaps_eq_cons start
      have inside : rest <:+ text := (List.suffix_cons c rest).trans gaps
      have less : rest.length < text.length := gaps.length_le
      dsimp only
      split at cut
      · next closes =>
          rw [if_pos closes]
          cases nested with
          | true => exact .closes rfl inside cut
          | false => exact .stray rfl inside less cut
      · next notClosing =>
          rw [if_neg notClosing]
          split at cut
          · next isAt =>
              rw [if_pos isAt]
              exact .ofPiece ((readAtRule_suffix rest).trans inside)
                (Nat.lt_of_le_of_lt (length_readAtRule_le rest) less) (readAtRule_ne_closing rest) cut
          · next notAt =>
              rw [if_neg notAt]
              exact .ofPiece ((readRule_suffix (c :: rest)).trans gaps)
                (Nat.lt_of_lt_of_le (length_readRule_lt c rest) gaps.length_le)
                (readRule_ne_closing (c :: rest)) cut

section Rounds

variable {nested : Bool} {text next rest inside : List Char} {item : Option Item}
  {name prelude : String}

theorem suffix_of_ends (ends : itemRound nested text = .ends rest) : rest <:+ text := by
  cases roundCases ends with
  | finish cut => exact List.nil_suffix
  | closes inBlock left cut => exact left

theorem suffix_of_takes (takes : itemRound nested text = .takes item next) :
    next <:+ text ∧ next.length < text.length := by
  cases roundCases takes with
  | stray outermost left shorter cut => exact ⟨left, shorter⟩
  | takes left shorter cut => exact ⟨left, shorter⟩

theorem suffix_of_enters (enters : itemRound nested text = .enters name prelude inside) :
    inside <:+ text ∧ inside.length < text.length := by
  cases roundCases enters with
  | enters left shorter cut => exact ⟨left, shorter⟩

/-- Outside of blocks, the loop ends at the end of the text alone. -/
theorem eq_nil_of_ends (ends : itemRound false text = .ends rest) :
    rest = [] ∧ pieces text = [] := by
  cases roundCases ends with
  | finish cut => exact ⟨rfl, cut⟩
  | closes inBlock left cut => cases inBlock

end Rounds

/-! ## Loops -/

/-- The loop over the items of a list reads these from a text and leaves the rest. A round that
enters a block has the loop go through the block, and goes on where that ends. -/
inductive ReadsItems : Bool → List Char → List Item → List Char → Prop
  /-- The loop ends. -/
  | ends {nested : Bool} {text rest : List Char}
      (round : itemRound nested text = .ends rest) :
      ReadsItems nested text [] rest
  /-- A round takes an item, or none. -/
  | takes {nested : Bool} {text next rest : List Char} {item : Option Item} {items : List Item}
      (round : itemRound nested text = .takes item next)
      (others : ReadsItems nested next items rest) :
      ReadsItems nested text (item.toList ++ items) rest
  /-- A round takes a group. -/
  | enters {nested : Bool} {text inside next rest : List Char} {name prelude : String}
      {inner items : List Item}
      (round : itemRound nested text = .enters name prelude inside)
      (block : ReadsItems true inside inner next)
      (others : ReadsItems nested next items rest) :
      ReadsItems nested text (.group name prelude inner :: items) rest

/-- A round that does not end the loop leaves this. -/
inductive Leaves (nested : Bool) (text : List Char) : List Char → Prop
  /-- It takes an item, or none. -/
  | takes {item : Option Item} {next : List Char}
      (round : itemRound nested text = .takes item next) :
      Leaves nested text next
  /-- It takes a group. -/
  | enters {name prelude : String} {inside next : List Char} {inner : List Item}
      (round : itemRound nested text = .enters name prelude inside)
      (block : ReadsItems true inside inner next) :
      Leaves nested text next

section Loops

variable {nested : Bool} {text next rest otherRest : List Char} {items otherItems : List Item}

theorem ReadsItems.suffix (reads : ReadsItems nested text items rest) : rest <:+ text := by
  induction reads with
  | ends round => exact suffix_of_ends round
  | takes round others inductionHypothesis =>
      exact inductionHypothesis.trans (suffix_of_takes round).1
  | enters round block others blockHypothesis inductionHypothesis =>
      exact (inductionHypothesis.trans blockHypothesis).trans (suffix_of_enters round).1

/-- A round that does not end the loop takes something off the text. -/
theorem Leaves.suffix (leaves : Leaves nested text next) :
    next <:+ text ∧ next.length < text.length := by
  cases leaves with
  | takes round => exact suffix_of_takes round
  | enters round block =>
      obtain ⟨inside, shorter⟩ := suffix_of_enters round
      exact ⟨block.suffix.trans inside, Nat.lt_of_le_of_lt block.suffix.length_le shorter⟩

/-- What a loop reads and leaves is settled by the text. -/
theorem ReadsItems.unique
    (reads : ReadsItems nested text items rest)
    (other : ReadsItems nested text otherItems otherRest) :
    items = otherItems ∧ rest = otherRest := by
  induction reads generalizing otherItems otherRest with
  | ends round =>
      cases other with
      | ends otherRound =>
          cases round.symm.trans otherRound
          exact ⟨rfl, rfl⟩
      | takes otherRound => cases round.symm.trans otherRound
      | enters otherRound => cases round.symm.trans otherRound
  | takes round others inductionHypothesis =>
      cases other with
      | ends otherRound => cases round.symm.trans otherRound
      | takes otherRound otherOthers =>
          cases round.symm.trans otherRound
          obtain ⟨rfl, rfl⟩ := inductionHypothesis otherOthers
          exact ⟨rfl, rfl⟩
      | enters otherRound => cases round.symm.trans otherRound
  | enters round block others blockHypothesis inductionHypothesis =>
      cases other with
      | ends otherRound => cases round.symm.trans otherRound
      | takes otherRound => cases round.symm.trans otherRound
      | enters otherRound otherBlock otherOthers =>
          cases round.symm.trans otherRound
          obtain ⟨rfl, rfl⟩ := blockHypothesis otherBlock
          obtain ⟨rfl, rfl⟩ := inductionHypothesis otherOthers
          exact ⟨rfl, rfl⟩

/-- The loop ends on every text. -/
theorem exists_readsItems (nested : Bool) (text : List Char) :
    ∃ items rest, ReadsItems nested text items rest := by
  induction size : text.length using Nat.strong_induction_on generalizing nested text with
  | _ size inductionHypothesis =>
      subst size
      cases round : itemRound nested text with
      | ends rest => exact ⟨[], rest, .ends round⟩
      | takes item next =>
          obtain ⟨items, rest, others⟩ :=
            inductionHypothesis _ (suffix_of_takes round).2 nested next rfl
          exact ⟨item.toList ++ items, rest, .takes round others⟩
      | enters name prelude inside =>
          obtain ⟨inner, next, block⟩ :=
            inductionHypothesis _ (suffix_of_enters round).2 true inside rfl
          obtain ⟨items, rest, others⟩ :=
            inductionHypothesis _ (Leaves.enters round block).suffix.2 nested next rfl
          exact ⟨.group name prelude inner :: items, rest, .enters round block others⟩

theorem existsUnique_readsItems (nested : Bool) (text : List Char) :
    ∃! read : List Item × List Char, ReadsItems nested text read.1 read.2 := by
  obtain ⟨items, rest, reads⟩ := exists_readsItems nested text
  refine ⟨(items, rest), reads, fun other otherReads => ?_⟩
  obtain ⟨sameItems, sameRest⟩ := otherReads.unique reads
  exact Prod.ext sameItems sameRest

/-! ## Sheets -/

/-- A piece that holds an item adds it to the items before. -/
theorem nest_whole_append
    (groups : List OpenGroup)
    (before : List Item)
    (item : Option Item)
    (others : List Piece) :
    nest groups before ((item.map Piece.whole).toList ++ others) =
      nest groups (before ++ item.toList) others := by
  cases item with
  | none =>
      rw [Option.toList_none, List.append_nil]
      rfl
  | some item => rfl

/-- The pieces of a block, nested, are what the loop reads from it. -/
theorem ReadsItems.nest_pieces_block
    (reads : ReadsItems nested text items rest)
    (inBlock : nested = true)
    (group : OpenGroup)
    (groups : List OpenGroup)
    (before : List Item) :
    nest (group :: groups) before (pieces text) =
      nest groups (group.close (before ++ items)) (pieces rest) := by
  induction reads generalizing group groups before with
  | @ends nested text rest ends =>
      rw [List.append_nil]
      cases roundCases ends with
      | finish cut =>
          rw [cut, pieces_nil, nest, nest, List.foldl_cons]
      | closes _ left cut => rw [cut, nest]
  | @takes nested text next rest item items takes others inductionHypothesis =>
      cases roundCases takes with
      | stray outermost left shorter cut => simp [inBlock] at outermost
      | takes left shorter cut =>
          rw [cut, nest_whole_append, inductionHypothesis inBlock, List.append_assoc]
  | @enters nested text inside next rest name prelude inner items enters block others
      blockHypothesis inductionHypothesis =>
      cases roundCases enters with
      | enters left shorter cut =>
          rw [cut, nest, blockHypothesis rfl, inductionHypothesis inBlock]
          simp [OpenGroup.close]

/-- The pieces of a text, nested, are what the loop reads from it. -/
theorem ReadsItems.nest_pieces_sheet
    (reads : ReadsItems nested text items rest)
    (outermost : nested = false)
    (before : List Item) :
    nest [] before (pieces text) = before ++ items ∧ rest = [] := by
  induction reads generalizing before with
  | ends ends =>
      subst outermost
      obtain ⟨nothing, cut⟩ := eq_nil_of_ends ends
      rw [cut, List.append_nil]
      exact ⟨rfl, nothing⟩
  | @takes nested text next rest item items takes others inductionHypothesis =>
      cases roundCases takes with
      | stray _ left shorter cut =>
          rw [cut, nest]
          exact inductionHypothesis outermost before
      | takes left shorter cut =>
          rw [cut, nest_whole_append, ← List.append_assoc]
          exact inductionHypothesis outermost (before ++ item.toList)
  | @enters nested text inside next rest name prelude inner items enters block others
      blockHypothesis inductionHypothesis =>
      cases roundCases enters with
      | enters left shorter cut =>
          rw [cut, nest, block.nest_pieces_block rfl, List.append_cons]
          exact inductionHypothesis outermost (before ++ [.group name prelude inner])

/-- The loop reads from the source of a sheet what the sheet holds, and leaves nothing. -/
theorem readsItems_read (source : String) :
    ReadsItems false source.toList (Sheet.read source).items [] := by
  obtain ⟨items, rest, reads⟩ := exists_readsItems false source.toList
  obtain ⟨nested, rfl⟩ := reads.nest_pieces_sheet rfl []
  rwa [Sheet.read, nested, List.nil_append]

end Loops

/-! ## Everything that is read -/

/-- The places that the loop over items comes to between two rounds, at any depth of blocks. -/
inductive Comes (source : List Char) : Bool → List Char → Prop
  /-- It starts at the start of the source. -/
  | start : Comes source false source
  /-- A round goes on to here. -/
  | round {nested : Bool} {text next : List Char}
      (comes : Comes source nested text)
      (leaves : Leaves nested text next) :
      Comes source nested next
  /-- A block starts here. -/
  | block {nested : Bool} {text inside : List Char} {name prelude : String}
      (comes : Comes source nested text)
      (enters : itemRound nested text = .enters name prelude inside) :
      Comes source true inside

theorem Comes.suffix
    {source text : List Char}
    {nested : Bool}
    (comes : Comes source nested text) :
    text <:+ source := by
  induction comes with
  | start => exact List.suffix_rfl
  | round comes leaves inductionHypothesis => exact leaves.suffix.1.trans inductionHypothesis
  | block comes enters inductionHypothesis =>
      exact (suffix_of_enters enters).1.trans inductionHypothesis

/-- The loops in which a sheet is read get on with every turn, and end. -/
structure GetsOn (source : String) : Prop where
  /-- The loop over items never leaves the source, nor the boundaries of its characters. -/
  place : ∀ (nested : Bool) (text : List Char), Comes source.toList nested text →
    IsBoundary source (position source text)
  /-- A round that does not end this loop gets further. -/
  round : ∀ (nested : Bool) (text next : List Char), Comes source.toList nested text →
    Leaves nested text next → Advances source text next
  /-- A block that it enters starts further on. -/
  block : ∀ (nested : Bool) (text inside : List Char) (name prelude : String),
    Comes source.toList nested text → itemRound nested text = .enters name prelude inside →
    Advances source text inside
  /-- An at-rule that a closing brace ends gives back the byte of the brace. -/
  back : ∀ text : List Char, text <:+ source.toList →
    let head := readUntil ['{', ';', '}'] (.plain 0) (text.dropWhile isAtNameChar)
    head.stop = some '}' → position source (readAtRule text).2 + 1 = position source head.rest
  /-- The loop ends wherever it starts, in one way. -/
  ends : ∀ (nested : Bool) (text : List Char), Comes source.toList nested text →
    ∃! read : List Item × List Char, ReadsItems nested text read.1 read.2
  /-- It ends at the end of the source, with the items of the sheet. -/
  sheet : ∃ rest, ReadsItems false source.toList (Sheet.read source).items rest ∧
    position source rest = source.utf8ByteSize
  /-- The blanks and comments in front of an item are skipped turn by turn. -/
  gaps : ∀ text : List Char, text <:+ source.toList →
    (∀ here next, Reaches gapTurn (false, text) here → gapTurn here = some next →
      Advances source here.2 next.2) ∧
    ∃ ended ∈ eval gapTurn (false, text), ended.2 = skipGaps false text
  /-- A scan gets further turn by turn and ends in front of its stop character. -/
  scans : ∀ stops text : List Char, text <:+ source.toList →
    (∀ here next, Reaches (Reading.turn stops) ⟨.plain 0, [], text⟩ here →
      here.turn stops = some next → Advances source here.rest next.rest) ∧
    ∃ ended ∈ eval (Reading.turn stops) ⟨.plain 0, [], text⟩,
      ended.read = (readUntil stops (.plain 0) text).text ∧
        ended.rest =
          (readUntil stops (.plain 0) text).stop.toList ++ (readUntil stops (.plain 0) text).rest
  /-- The passes over a list of declarations end after the first. -/
  passes : ∀ text : List Char, ∃ body,
    (body, []) ∈ eval declarationPass ([], text) ∧
      (text ≠ [] → declarationPass ([], text) = some (body, [])) ∧
      readDeclarationList text = (cutAtTopLevel ';' body).filterMap readDeclaration

/-- Every loop of reading a sheet gets on, whatever the source. -/
theorem reading_getsOn (source : String) : GetsOn source where
  place nested text comes := isBoundary_position comes.suffix
  round nested text next comes leaves :=
    advances_of_shorter comes.suffix leaves.suffix.1 leaves.suffix.2
  block nested text inside name prelude comes enters :=
    advances_of_shorter comes.suffix (suffix_of_enters enters).1 (suffix_of_enters enters).2
  back text suffix := by
    intro head stopped
    have left : '}' :: head.rest <:+ text := by
      have behind := left_readUntil_suffix ['{', ';', '}'] (.plain 0) (text.dropWhile isAtNameChar)
      rw [stopped] at behind
      exact behind.trans (List.dropWhile_suffix isAtNameChar)
    rw [readAtRule_of_stop_closing stopped]
    exact position_closing (left.trans suffix)
  ends nested text comes := existsUnique_readsItems nested text
  sheet := ⟨[], readsItems_read source, by simp [position]⟩
  gaps text suffix :=
    ⟨fun _ _ => gapTurn_takesOff.advances suffix, exists_mem_eval_gapTurn text⟩
  scans stops text suffix :=
    ⟨fun _ _ => (Reading.turn_takesOff stops).advances suffix, Reading.exists_mem_eval stops text⟩
  passes text := ⟨(readUntil [] (.plain 0) text).text, mem_eval_declarationPass text,
    fun nonempty => declarationPass_of_ne_nil nonempty [], rfl⟩

end Css
end MailPress
