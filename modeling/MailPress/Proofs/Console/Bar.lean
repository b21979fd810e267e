import MailPress.Proofs.Console.Screen
import MailPress.Proofs.Text.Ascii

/-!
# The line of the progress bar

While a bar is held, the line above the cursor belongs to it. A message takes that line and leaves
a fresh one below for the bar, and the bar is drawn into its line again. So whatever comes in
between, the lines above the bar are those that were there before and the messages.
-/

namespace MailPress
namespace Console

/-! ## Messages -/

/-- The number of bytes of a text. -/
def byteCount (text : List Char) : Nat :=
  (String.ofList text).utf8ByteSize

theorem byteCount_cons (c : Char) (text : List Char) :
    byteCount (c :: text) = c.utf8Size + byteCount text := by
  simp [byteCount]

/-- The longest start of a text that has no more bytes than there is room for. -/
structure IsLongestFit (room : Nat) (text shown : List Char) : Prop where
  /-- It is a start of the text. -/
  start : shown <+: text
  /-- There is room for it. -/
  fits : byteCount shown ≤ room
  /-- Every start that there is room for is a start of it. -/
  longest : ∀ other, other <+: text → byteCount other ≤ room → other <+: shown

theorem isLongestFit_cutToBytes (room : Nat) (text : List Char) :
    IsLongestFit room text (cutToBytes room text) := by
  fun_induction cutToBytes room text with
  | case1 room => exact ⟨List.prefix_rfl, Nat.zero_le _, fun _ start _ => start⟩
  | case2 room c rest fitsHere inductionHypothesis =>
      obtain ⟨start, fits, longest⟩ := inductionHypothesis
      refine ⟨List.cons_prefix_cons.mpr ⟨rfl, start⟩, ?_, ?_⟩
      · rw [byteCount_cons]
        omega
      · intro other otherStart otherFits
        cases other with
        | nil => exact List.nil_prefix
        | cons d other =>
            obtain ⟨rfl, restStart⟩ := List.cons_prefix_cons.mp otherStart
            rw [byteCount_cons] at otherFits
            exact List.cons_prefix_cons.mpr ⟨rfl, longest other restStart (by omega)⟩
  | case3 room c rest tooLong =>
      refine ⟨List.nil_prefix, Nat.zero_le _, fun other otherStart otherFits => ?_⟩
      cases other with
      | nil => exact List.prefix_rfl
      | cons d other =>
          obtain ⟨rfl, _⟩ := List.cons_prefix_cons.mp otherStart
          rw [byteCount_cons] at otherFits
          omega

/-- The text in front of a message. -/
def titleOf (source : String) : List Char :=
  '[' :: (source.toList ++ [']'])

theorem isControl_of_mem_titleOf
    {source : String}
    (plain : ∀ c ∈ source.toList, isControl c = false) :
    ∀ c ∈ titleOf source, isControl c = false := by
  simp only [titleOf, List.forall_mem_cons, List.forall_mem_append]
  exact ⟨rfl, plain, rfl, List.forall_mem_nil _⟩

theorem newline_not_mem_titleOf
    {source : String}
    (plain : ∀ c ∈ source.toList, isControl c = false) :
    '\n' ∉ titleOf source := by
  intro member
  cases isControl_of_mem_titleOf plain _ member

/-- The lines that a message takes: the name of its module in brackets and a blank, and its text.
A text of one line is cut to what is left of the columns of the terminal. -/
structure Message.Takes (columns : Nat) (message : Message) (lines : List (List Char)) :
    Prop where
  /-- A text of several lines is shown as it is. -/
  whole : '\n' ∈ message.text.toList →
    lines = Text.splitAtEach (· == '\n') (titleOf message.source ++ ' ' :: message.text.toList)
  /-- A text of one line is cut. -/
  cut : '\n' ∉ message.text.toList →
    ∃ shown, IsLongestFit (columns - prefixLength message.source) message.text.toList shown ∧
      lines = [titleOf message.source ++ ' ' :: shown]

/-- A message of which nothing but line feeds controls the terminal. -/
structure Message.IsClean (message : Message) : Prop where
  /-- The name of the module has no control characters. -/
  source : ∀ c ∈ message.source.toList, isControl c = false
  /-- The text has none but line feeds. -/
  text : ∀ c ∈ message.text.toList, isControl c = true → c = '\n'

/-- The lines of a message. -/
def Message.lines (columns : Nat) (message : Message) : List (List Char) :=
  Text.splitAtEach (· == '\n') (titleOf message.source ++ ' ' :: shownText columns message)

/-- Nothing is shown that is not in the message. -/
theorem shownText_subset (columns : Nat) (message : Message) :
    shownText columns message ⊆ message.text.toList := by
  unfold shownText
  dsimp only
  split
  · exact List.Subset.refl _
  · exact (isLongestFit_cutToBytes ..).start.subset

theorem toList_encode (commands : List Command) :
    (encode commands).toList = commands.flatMap (·.encode.toList) := by
  rw [encode, String.toList_join, List.flatMap_map]

theorem toList_encode_append (first second : List Command) :
    (encode (first ++ second)).toList = (encode first).toList ++ (encode second).toList := by
  rw [toList_encode, toList_encode, toList_encode, List.flatMap_append]

theorem flatMap_encode_printLines (pieces : List (List Char)) :
    (printLines pieces).flatMap (·.encode.toList) = ['\n'].intercalate pieces := by
  fun_induction printLines pieces with
  | case1 => rfl
  | case2 line => simp [Command.encode]
  | case3 line pieces nonempty inductionHypothesis =>
      obtain ⟨second, others, rfl⟩ := List.exists_cons_of_ne_nil nonempty
      rw [List.intercalate_cons_cons, List.flatMap_cons, List.flatMap_cons, inductionHypothesis]
      simp [Command.encode]

/-- A message is sent as its label, a blank, its text and a line end. -/
theorem toList_encode_print (columns : Nat) (colours : Bool) (message : Message) :
    (encode (message.print columns colours)).toList =
      (label colours message.source).toList ++ (' ' :: shownText columns message ++ ['\n']) := by
  rw [toList_encode, Message.print, List.flatMap_append, List.flatMap_cons, List.flatMap_cons,
    flatMap_encode_printLines, Text.intercalate_splitAtEach]
  simp [Command.encode]

/-- The lines of a message are those that it takes. -/
theorem Message.IsClean.takes
    {message : Message}
    (clean : message.IsClean)
    (columns : Nat) :
    message.Takes columns (message.lines columns) where
  whole several := by
    rw [Message.lines, shownText, if_pos (List.contains_iff_mem.mpr several)]
  cut single := by
    refine ⟨_, isLongestFit_cutToBytes .., ?_⟩
    rw [Message.lines, shownText, if_neg (mt List.contains_iff_mem.mp single)]
    refine Text.splitAtEach_eq_singleton fun c member => beq_false_of_ne ?_
    rcases List.mem_append.mp member with title | text
    · exact ne_of_mem_of_not_mem title (newline_not_mem_titleOf clean.source)
    · rintro rfl
      rcases List.mem_cons.mp text with blank | shown
      · cases blank
      · exact single ((isLongestFit_cutToBytes ..).start.subset shown)

namespace Screen

variable {screen : Screen} {lines : List (List Char)} {current : List Char} {source : String}

/-- The colours of a label do not change the screen. -/
theorem becomes_bright (screen : Screen) (source : String) :
    screen.Becomes ("\x1b[1;" ++ colourOf source ++ "m").toList screen := by
  unfold colourOf
  split <;> rfl

theorem becomes_plain (screen : Screen) : screen.Becomes "\x1b[0m".toList screen := rfl

namespace Shows

/-- A label is put at the end of the line, in colours or not. -/
theorem exists_label
    (shows : screen.Shows lines current)
    (plain : ∀ c ∈ source.toList, isControl c = false)
    (colours : Bool) :
    ∃ after, screen.Becomes (label colours source).toList after ∧
      after.Shows lines (current ++ titleOf source) := by
  obtain ⟨after, becomes, rest⟩ := shows.exists_text (isControl_of_mem_titleOf plain)
  refine ⟨after, ?_, rest⟩
  cases colours with
  | false =>
      have title : (label false source).toList = titleOf source := by
        simp [label, titleOf]
      rwa [title]
  | true =>
      have title : (label true source).toList =
          ("\x1b[1;" ++ colourOf source ++ "m").toList ++
            (titleOf source ++ "\x1b[0m".toList) := by
        simp [label, titleOf]
      rw [title]
      exact (becomes_bright screen source).append (becomes.append (becomes_plain after))

/-- A message comes to stand on lines of its own. -/
theorem exists_print
    {message : Message}
    (shows : screen.Shows lines [])
    (clean : message.IsClean)
    (columns : Nat)
    (colours : Bool) :
    ∃ after, screen.Becomes (encode (message.print columns colours)).toList after ∧
      after.Shows (lines ++ message.lines columns) [] := by
  have cleanText : ∀ c ∈ ' ' :: shownText columns message, isControl c = true → c = '\n' :=
    List.forall_mem_cons.mpr
      ⟨nofun, fun c member => clean.text c (shownText_subset columns message member)⟩
  obtain ⟨titled, title, shows⟩ := shows.exists_label clean.source colours
  obtain ⟨after, text, shows⟩ :=
    shows.exists_lines (newline_not_mem_titleOf clean.source) cleanText
  refine ⟨after, ?_, shows⟩
  rw [toList_encode_print]
  exact title.append text

end Shows

end Screen

/-! ## The bar -/

theorem isControl_of_isAsciiDigit
    {c : Char}
    (digit : Text.isAsciiDigit c = true) :
    isControl c = false := by
  rw [Text.isAsciiDigit_eq_isDigit] at digit
  have bounds : 48 ≤ c.toNat ∧ c.toNat ≤ 57 := Char.isDigit_iff_toNat.mp digit
  simp only [isControl, Bool.or_eq_false_iff, Bool.and_eq_false_iff, decide_eq_false_iff_not]
  omega

theorem isControl_of_mem_toString
    (number : Nat) :
    ∀ c ∈ (toString number).toList, isControl c = false := by
  intro c member
  rw [Nat.toString_eq_repr, Nat.toList_repr] at member
  exact isControl_of_isAsciiDigit (Text.isAsciiDigit_of_mem_toDigits member)

/-- What stands behind the name of a bar is the same in colours and without them. -/
theorem exists_toList_line (columns : Nat) (bar : Bar) :
    ∃ gauge, (∀ c ∈ gauge, isControl c = false) ∧
      ∀ colours, (bar.line columns colours).toList =
        (label colours bar.source).toList ++ gauge := by
  let width := bar.width columns (toString bar.current ++ "/" ++ toString bar.total)
  let filled := bar.current * width / bar.total
  let cells := List.replicate filled '█' ++ List.replicate (width - filled) '░'
  have plainCells : ∀ c ∈ cells, isControl c = false :=
    List.forall_mem_append.mpr
      ⟨List.forall_mem_replicate.mpr (.inr rfl), List.forall_mem_replicate.mpr (.inr rfl)⟩
  refine ⟨[' ', '['] ++ cells ++ [']', ' '] ++
    ((toString bar.current).toList ++ '/' :: (toString bar.total).toList), ?_, fun colours => ?_⟩
  · simp only [List.forall_mem_append, List.forall_mem_cons]
    exact ⟨⟨⟨⟨rfl, rfl, List.forall_mem_nil _⟩, plainCells⟩, rfl, rfl, List.forall_mem_nil _⟩,
      isControl_of_mem_toString _, rfl, isControl_of_mem_toString _⟩
  · simp [Bar.line, cells, filled, width]

namespace Screen

variable {screen : Screen} {lines : List (List Char)}

/-- A bar is drawn on the line of the cursor. -/
theorem Shows.exists_line
    {bar : Bar}
    (shows : screen.Shows lines [])
    (plain : ∀ c ∈ bar.source.toList, isControl c = false)
    (columns : Nat)
    (colours : Bool) :
    ∃ after, screen.Becomes (bar.line columns colours).toList after ∧
      after.Shows lines (bar.line columns false).toList := by
  obtain ⟨gauge, plainGauge, written⟩ := exists_toList_line columns bar
  obtain ⟨titled, title, shows⟩ := shows.exists_label plain colours
  obtain ⟨after, rest, shows⟩ := shows.exists_text plainGauge
  have uncoloured : (bar.line columns false).toList = titleOf bar.source ++ gauge := by
    rw [written false]
    simp [label, titleOf]
  refine ⟨after, ?_, by rwa [uncoloured]⟩
  rw [written colours]
  exact title.append rest

end Screen

/-! ## Calls -/

/-- A call while a bar is held. -/
inductive Call
  /-- A message is logged. -/
  | log (message : Message)
  /-- One more item is finished. -/
  | advance
  deriving DecidableEq

/-- Make a call. -/
def State.call (state : State) : Call → State × List Command
  | .log message => (state, state.log message)
  | .advance => state.advance

/-- Make some calls, one after the other. -/
def State.run (state : State) (calls : List Call) : State × List Command :=
  calls.foldl
    (fun (current, output) call =>
      let (called, commands) := current.call call
      (called, output ++ commands))
    (state, [])

/-- The messages that are logged. -/
def messagesOf (calls : List Call) : List Message :=
  calls.filterMap fun
    | .log message => some message
    | .advance => none

/-- What stands on the line of a bar: the items that are finished by now, unless a message took the
line since it was drawn. -/
def barLine (columns : Nat) (source : String) (total : Nat) (calls : List Call) : List Char :=
  match calls.getLast? with
  | some .advance => (Bar.line columns false ⟨source, total, calls.count .advance⟩).toList
  | _ => []

/-- On so many columns a bar is held and owns the line above the cursor. -/
structure State.Holds (state : State) (columns : Nat) (bar : Bar) : Prop where
  /-- There are so many columns. -/
  columns : state.columns = columns
  /-- It is held. -/
  bar : state.bar = some bar
  /-- It owns the line. -/
  active : state.active = true

theorem State.run_concat (state : State) (calls : List Call) (call : Call) :
    state.run (calls ++ [call]) =
      (((state.run calls).1.call call).1,
        (state.run calls).2 ++ ((state.run calls).1.call call).2) := by
  simp only [State.run, List.foldl_append, List.foldl_cons, List.foldl_nil]

namespace State

variable {state : State} {columns : Nat} {bar : Bar} {screen : Screen} {lines : List (List Char)}
  {line : List Char}

/-- A message is put above the line of a bar, which is empty then. -/
theorem Holds.log
    {message : Message}
    (holds : state.Holds columns bar)
    (shows : screen.Shows (lines ++ [line]) [])
    (clean : message.IsClean) :
    ∃ after, screen.Becomes (encode (state.log message)).toList after ∧
      after.Shows (lines ++ message.lines columns ++ [[]]) [] := by
  obtain rfl := holds.columns
  obtain ⟨after, printed, rest⟩ :=
    shows.clearBelow.exists_print clean state.columns state.colours
  refine ⟨after.newline, ?_, rest.newline⟩
  have sent : (encode (state.log message)).toList =
      Command.moveUp.encode.toList ++ (Command.clearBelow.encode.toList ++
        ((encode (message.print state.columns state.colours)).toList ++ ['\n'])) := by
    rw [State.log, if_pos holds.active]
    simp [toList_encode, Command.encode]
  rw [sent]
  exact (Screen.becomes_moveUp screen).append
    ((Screen.becomes_clearBelow _).append (printed.append (Screen.becomes_newline after)))

/-- A bar counts one more item and is drawn on its line. -/
theorem Holds.advance
    (holds : state.Holds columns bar)
    (shows : screen.Shows (lines ++ [line]) [])
    (plain : ∀ c ∈ bar.source.toList, isControl c = false) :
    let counted := { bar with current := bar.current + 1 }
    state.advance.1.Holds columns counted ∧
      ∃ after, screen.Becomes (encode state.advance.2).toList after ∧
        after.Shows (lines ++ [(counted.line columns false).toList]) [] := by
  intro counted
  obtain rfl := holds.columns
  have advanced : state.advance = ({ state with bar := some counted },
      [.moveUp, .clearLine, .print (counted.line state.columns state.colours), .newline]) := by
    rw [State.advance, holds.bar]
  have plainCounted : ∀ c ∈ counted.source.toList, isControl c = false := plain
  obtain ⟨drawn, becomes, rest⟩ :=
    shows.clearLine.exists_line plainCounted state.columns state.colours
  rw [advanced]
  refine ⟨⟨rfl, rfl, holds.active⟩, drawn.newline, ?_, rest.newline⟩
  have sent : (encode
      [.moveUp, .clearLine, .print (counted.line state.columns state.colours), .newline]).toList =
      Command.moveUp.encode.toList ++ (Command.clearLine.encode.toList ++
        ((counted.line state.columns state.colours).toList ++ ['\n'])) := by
    simp [toList_encode, Command.encode]
  rw [sent]
  exact (Screen.becomes_moveUp screen).append
    ((Screen.becomes_clearLine _).append (becomes.append (Screen.becomes_newline drawn)))

/-- After some calls, what was above the line of a bar is followed by the messages. -/
theorem Holds.run
    {source : String}
    {total : Nat}
    {calls : List Call}
    (holds : state.Holds columns ⟨source, total, 0⟩)
    (shows : screen.Shows (lines ++ [[]]) [])
    (plain : ∀ c ∈ source.toList, isControl c = false)
    (clean : ∀ message ∈ messagesOf calls, message.IsClean) :
    (state.run calls).1.Holds columns ⟨source, total, calls.count .advance⟩ ∧
      ∃ after, screen.Becomes (encode (state.run calls).2).toList after ∧
        after.Shows (lines ++ (messagesOf calls).flatMap (Message.lines columns) ++
          [barLine columns source total calls]) [] := by
  -- The last call decides what stands on the line of the bar, so the calls are taken from there.
  induction calls using List.reverseRecOn with
  | nil =>
      exact ⟨holds, screen, Screen.becomes_nil screen, by simpa [messagesOf, barLine] using shows⟩
  | append_singleton calls call inductionHypothesis =>
      have cleanBefore : ∀ message ∈ messagesOf calls, message.IsClean := by
        intro message member
        refine clean message ?_
        rw [messagesOf, List.filterMap_append]
        exact List.mem_append_left _ member
      obtain ⟨holds, middle, becomes, shows⟩ := inductionHypothesis cleanBefore
      rw [run_concat]
      cases call with
      | log message =>
          have cleanHere : message.IsClean := clean message (by simp [messagesOf])
          obtain ⟨after, logged, rest⟩ := holds.log shows cleanHere
          refine ⟨?_, after, ?_, ?_⟩
          · simpa [State.call] using holds
          · rw [toList_encode_append]
            exact becomes.append logged
          · simpa [messagesOf, barLine] using rest
      | advance =>
          obtain ⟨counted, after, drawn, rest⟩ := holds.advance shows plain
          refine ⟨?_, after, ?_, ?_⟩
          · simpa [State.call] using counted
          · rw [toList_encode_append]
            exact becomes.append drawn
          · simpa [messagesOf, barLine] using rest

theorem drop_of_inactive
    (state : State)
    (inactive : state.active = false) :
    state.drop.2 = [] := by
  unfold drop
  split
  · rfl
  · simp [State.finish, inactive]

theorem active_finish (state : State) : state.finish.1.active = false := by
  unfold State.finish
  split
  · rfl
  · next inactive => exact Bool.eq_false_iff.mpr inactive

@[simp] theorem columns_drop (state : State) : state.drop.1.columns = state.columns := by
  unfold drop
  split
  · rfl
  · dsimp only
    unfold finish
    split <;> rfl

/-- A bar that is started on several items owns the line that is ended for it. -/
theorem start_of_inactive
    {total : Nat}
    (state : State)
    (source : String)
    (inactive : state.active = false)
    (several : 1 < total) :
    (state.start source total).1.Holds state.columns ⟨source, total, 0⟩ ∧
      (state.start source total).2 = [.newline] := by
  have dropped := state.drop_of_inactive inactive
  unfold start
  dsimp only
  rw [if_neg (Nat.not_le.mpr several), dropped]
  exact ⟨⟨state.columns_drop, rfl, rfl⟩, rfl⟩

/-- Giving up the line of a bar clears it. -/
theorem Holds.finish
    (holds : state.Holds columns bar)
    (shows : screen.Shows (lines ++ [line]) []) :
    ∃ after, screen.Becomes (encode state.finish.2).toList after ∧ after.Shows lines [] := by
  refine ⟨screen.moveUp.clearLine, ?_, shows.clearLine⟩
  rw [State.finish, if_pos holds.active, toList_encode]
  exact (Screen.becomes_moveUp screen).append (Screen.becomes_clearLine _)

/-- To drop a bar that was not finished sends what finishing it sends. -/
theorem Holds.drop (holds : state.Holds columns bar) : state.drop.2 = state.finish.2 := by
  rw [State.drop, holds.bar]

end State

/-- After any calls while a bar is held, the screen shows what was there before, the messages in
their order, and the line of the bar right above the cursor. Once the bar is finished or dropped,
its line is gone; to drop it after it is finished does nothing more. -/
theorem bar_spares_messages
    (state : State)
    (source : String)
    (total : Nat)
    (calls : List Call)
    (screen : Screen)
    (earlier : List (List Char))
    (inactive : state.active = false)
    (several : 1 < total)
    (plain : ∀ c ∈ source.toList, isControl c = false)
    (clean : ∀ message ∈ messagesOf calls, message.IsClean)
    (shows : screen.Shows earlier []) :
    let started := state.start source total
    let called := started.1.run calls
    let kept := earlier ++ (messagesOf calls).flatMap (Message.lines state.columns)
    (∀ message ∈ messagesOf calls,
        message.Takes state.columns (message.lines state.columns)) ∧
      ∃ during after,
        screen.Becomes (encode (started.2 ++ called.2)).toList during ∧
          during.Shows (kept ++ [barLine state.columns source total calls]) [] ∧
          during.Becomes (encode called.1.finish.2).toList after ∧
          during.Becomes (encode called.1.drop.2).toList after ∧
          after.Shows kept [] ∧
          called.1.finish.1.drop.2 = [] := by
  intro started called kept
  obtain ⟨holds, opening⟩ := state.start_of_inactive source inactive several
  obtain ⟨holding, during, output, held⟩ := holds.run shows.newline plain clean
  obtain ⟨after, closing, rest⟩ := holding.finish held
  refine ⟨fun message member => (clean message member).takes _, during, after, ?_, held, closing, ?_,
    rest, ?_⟩
  · rw [opening, toList_encode_append]
    exact (Screen.becomes_newline screen).append output
  · rwa [holding.drop]
  · exact called.1.finish.1.drop_of_inactive called.1.active_finish

/-- On thirty columns: a message of two lines, one of one line that is cut, and two finished items,
in colours. -/
theorem bar_spares_messages_build :
    let state : State := ⟨30, true, none, false⟩
    let calls : List Call :=
      [.log ⟨"image", "12 images, and as many in the cache\n3 of them remote"⟩, .advance,
        .log ⟨"warn", "the sheet ends in a block"⟩, .advance]
    let screen : Screen := ⟨["$ make messages".toList], [], 0, []⟩
    let called := (state.start "build" 2).1.run calls
    let kept := ["$ make messages".toList, "[image] 12 images, and as many in the cache".toList,
      "3 of them remote".toList, "[warn] the sheet ends in a blo".toList]
    ∃ during after,
      screen.Becomes (encode (.newline :: called.2)).toList during ∧
        during.Shows (kept ++ ["[build] [███████████████] 2/2".toList]) [] ∧
        during.Becomes (encode called.1.finish.2).toList after ∧
        after.Shows kept [] := by
  intro state calls screen called kept
  have plain : ∀ c ∈ "build".toList, isControl c = false := by simp [isControl]
  have clean : ∀ message ∈ messagesOf calls, message.IsClean :=
    List.forall_mem_cons.mpr ⟨⟨by simp [isControl], by simp [isControl]⟩,
      List.forall_mem_singleton.mpr ⟨by simp [isControl], by simp [isControl]⟩⟩
  have lines : ["$ make messages".toList] ++
      (messagesOf calls).flatMap (Message.lines state.columns) = kept := by
    decide
  have drawn : barLine state.columns "build" 2 calls =
      "[build] [███████████████] 2/2".toList := by
    decide
  obtain ⟨-, during, after, output, held, closing, -, rest, -⟩ :=
    bar_spares_messages state "build" 2 calls screen ["$ make messages".toList] rfl (by decide)
      plain clean ⟨rfl, rfl, rfl, List.forall_mem_nil _⟩
  rw [lines, drawn] at held
  rw [lines] at rest
  exact ⟨during, after, output, held, closing, rest⟩

end Console
end MailPress
