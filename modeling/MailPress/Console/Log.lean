import MailPress.Markup.Reference
import MailPress.Text.Blank

/-!
# Log lines and the progress bar

A log line is a module name in brackets and a message. A message of one line is
cut to the width of the terminal, its number of columns; one of several lines is
printed whole.

A progress bar owns the line above the cursor. A log line that is written
meanwhile takes that line and leaves a fresh one below for the bar.

Output to the terminal is a list of commands: texts without line ends, line
ends, and the few movements that a progress bar needs. Keeping commands apart
from the characters that encode them lets the effect of output on a screen be
described without reading escape sequences.
-/

namespace MailPress
namespace Console

/-! ## Terminal commands -/

/-- A command to the terminal. -/
inductive Command
  /-- Write a text that holds no line feed. -/
  | print (text : String)
  /-- End the line. -/
  | newline
  /-- Move to the line above. -/
  | moveUp
  /-- Clear the line that the cursor is on. -/
  | clearLine
  /-- Clear everything from the cursor on. -/
  | clearBelow
  deriving DecidableEq, Repr, Inhabited

/-- The characters that a command is sent as. -/
def Command.encode : Command → String
  | .print text => text
  | .newline => "\n"
  | .moveUp => "\x1b[1A"
  | .clearLine => "\x1b[2K"
  | .clearBelow => "\x1b[J"

/-- The characters that some commands are sent as. -/
def encode (commands : List Command) : String :=
  String.join (commands.map Command.encode)

/-- Print a text of several lines; its last line is not ended. -/
def printLines : List (List Char) → List Command
  | [] => []
  | [line] => [.print (String.ofList line)]
  | line :: lines => .print (String.ofList line) :: .newline :: printLines lines

/-! ## Messages and bars -/

/-- A message with the name of the module that it comes from. -/
structure Message where
  /-- The module that speaks. -/
  source : String
  /-- What it says. -/
  text : String
  deriving DecidableEq, Repr, Inhabited

/-- The columns of a terminal that does not tell how many it has. -/
def fallbackColumns : Nat := 120

/-- The bytes that a module name takes in front of a message, brackets and space included. -/
def prefixLength (source : String) : Nat :=
  source.utf8ByteSize + 3

/-- The colour of a module name. -/
def colourOf (source : String) : String :=
  match Text.lower source with
  | "build" | "write" => "92"
  | "style" | "image" => "94"
  | "warn" => "95"
  | "error" => "91"
  | _ => "93"

/-- The module name in brackets, bold and bright when colours are on. -/
def label (colours : Bool) (source : String) : String :=
  if colours then "\x1b[1;" ++ colourOf source ++ "m[" ++ source ++ "]\x1b[0m"
  else "[" ++ source ++ "]"

/-- The longest start of a text that fits so many bytes. -/
def cutToBytes : Nat → List Char → List Char
  | _, [] => []
  | bytes, c :: rest =>
      if c.utf8Size ≤ bytes then c :: cutToBytes (bytes - c.utf8Size) rest else []

/-- The text of a message as it is printed on so many columns. -/
def shownText (columns : Nat) (message : Message) : List Char :=
  let text := message.text.toList
  if text.contains '\n' then text
  else cutToBytes (columns - prefixLength message.source) text

/-- Print a message on a line of its own. -/
def Message.print (columns : Nat) (colours : Bool) (message : Message) : List Command :=
  .print (label colours message.source) :: .print " " ::
    printLines (Text.splitAtEach (· == '\n') (shownText columns message)) ++ [.newline]

/-- A progress bar. -/
structure Bar where
  /-- The module that it belongs to. -/
  source : String
  /-- The number of items to finish. -/
  total : Nat
  /-- The number of items finished. -/
  current : Nat
  deriving DecidableEq, Repr, Inhabited

/-- What the console remembers between outputs. -/
structure State where
  /-- The columns of the terminal, which are counted once. -/
  columns : Nat
  /-- Whether colours are on. -/
  colours : Bool
  /-- The bar that is held. -/
  bar : Option Bar
  /-- Whether a bar owns the line above the cursor. -/
  active : Bool
  deriving DecidableEq, Repr, Inhabited

/-- The narrowest bar. -/
def leastBarWidth : Nat := 10

/-- The widest bar. -/
def greatestBarWidth : Nat := 40

/-- The number of cells of a bar on so many columns. -/
def Bar.width (columns : Nat) (bar : Bar) (count : String) : Nat :=
  let available := columns - (prefixLength bar.source + 4 + count.utf8ByteSize)
  max leastBarWidth (min available greatestBarWidth)

/-- The line of a bar. -/
def Bar.line (columns : Nat) (colours : Bool) (bar : Bar) : String :=
  let count := toString bar.current ++ "/" ++ toString bar.total
  let width := bar.width columns count
  let filled := bar.current * width / bar.total
  let cells := List.replicate filled '█' ++ List.replicate (width - filled) '░'
  label colours bar.source ++ " [" ++ String.ofList cells ++ "] " ++ count

/-- Log a message; above the line of an active bar. -/
def State.log (state : State) (message : Message) : List Command :=
  if state.active then
    .moveUp :: .clearBelow :: message.print state.columns state.colours ++ [.newline]
  else message.print state.columns state.colours

/-- Give up the line of an active bar. -/
def State.finish (state : State) : State × List Command :=
  if state.active then ({ state with active := false }, [.moveUp, .clearLine])
  else (state, [])

/-- Stop holding the bar, finished or not. -/
def State.drop (state : State) : State × List Command :=
  match state.bar with
  | none => (state, [])
  | some _ =>
      let (finished, commands) := state.finish
      ({ finished with bar := none }, commands)

/-- Hold a new bar. At most one item needs none, so then no bar is held. -/
def State.start (state : State) (source : String) (total : Nat) : State × List Command :=
  let (dropped, commands) := state.drop
  if total ≤ 1 then (dropped, commands)
  else ({ dropped with bar := some ⟨source, total, 0⟩, active := true }, commands ++ [.newline])

/-- Count one more finished item and draw the bar. -/
def State.advance (state : State) : State × List Command :=
  match state.bar with
  | none => (state, [])
  | some bar =>
      let bar := { bar with current := bar.current + 1 }
      ({ state with bar := some bar },
        [.moveUp, .clearLine, .print (bar.line state.columns state.colours), .newline])

end Console
end MailPress
