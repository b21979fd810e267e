import MailPress.Console.Log
import MailPress.Proofs.Text.Search

/-!
# Screens

A terminal takes the characters that it is sent one by one. Most of them are put on the screen
over what is there; a line feed and the sequences behind an escape character move the cursor or
clear a part of the screen.

What is printed comes to stand on lines of its own when the cursor is at the start of an empty line
with nothing below. Every piece of output that this library sends begins and ends there, so that
what the screen shows between two pieces is a list of lines and nothing else.
-/

namespace MailPress
namespace Console

/-! ## Terminals -/

/-- A screen whose lines are as many and as long as needed, with a cursor. -/
structure Screen where
  /-- The lines above the cursor, from the top. -/
  above : List (List Char)
  /-- The line that the cursor is on. -/
  line : List Char
  /-- The number of characters in front of the cursor. -/
  column : Nat
  /-- The lines below the cursor, nearest first. -/
  below : List (List Char)
  deriving DecidableEq

namespace Screen

/-- Put a character at the cursor, over what is there. -/
def put (screen : Screen) (c : Char) : Screen :=
  { screen with
    line := screen.line.takeD screen.column ' ' ++ c :: screen.line.drop (screen.column + 1)
    column := screen.column + 1 }

/-- Go to the start of the line below. -/
def newline (screen : Screen) : Screen :=
  ⟨screen.above ++ [screen.line], screen.below.headD [], 0, screen.below.tail⟩

/-- Go to the line above, if there is one. -/
def moveUp (screen : Screen) : Screen :=
  match screen.above.getLast? with
  | some upper => ⟨screen.above.dropLast, upper, screen.column, screen.line :: screen.below⟩
  | none => screen

/-- Clear the line that the cursor is on. -/
def clearLine (screen : Screen) : Screen :=
  { screen with line := [] }

/-- Clear everything from the cursor on. -/
def clearBelow (screen : Screen) : Screen :=
  { screen with line := screen.line.take screen.column, below := [] }

/-- Obey a control sequence. Those that are not about the cursor or about clearing, such as the
colours, leave the screen as it is. -/
def obey (screen : Screen) : List Char → Char → Screen
  | ['1'], 'A' => screen.moveUp
  | ['2'], 'K' => screen.clearLine
  | [], 'J' => screen.clearBelow
  | _, _ => screen

end Screen

/-- What a terminal makes of the next character. -/
inductive Mode
  /-- It is text or a line end, or starts an escape sequence. -/
  | text
  /-- It is the second character of an escape sequence. -/
  | escape
  /-- It belongs to a control sequence with these parameters so far. -/
  | control (parameters : List Char)
  deriving DecidableEq

/-- A terminal. -/
structure Terminal where
  /-- What it shows. -/
  screen : Screen
  /-- What it makes of the next character. -/
  mode : Mode
  deriving DecidableEq

/-- Take one character. -/
def Terminal.take (terminal : Terminal) (c : Char) : Terminal :=
  let screen := terminal.screen
  match terminal.mode with
  | .text =>
      if c = '\n' then ⟨screen.newline, .text⟩
      else if c = '\x1b' then ⟨screen, .escape⟩
      else ⟨screen.put c, .text⟩
  | .escape => if c = '[' then ⟨screen, .control []⟩ else ⟨screen, .text⟩
  | .control parameters =>
      if Text.isAsciiDigit c || c == ';' then ⟨screen, .control (parameters ++ [c])⟩
      else ⟨screen.obey parameters c, .text⟩

/-- The output turns one screen into the other, and ends outside escape sequences. -/
def Screen.Becomes (output : List Char) (before after : Screen) : Prop :=
  output.foldl Terminal.take ⟨before, .text⟩ = ⟨after, .text⟩

instance (output : List Char) (before after : Screen) : Decidable (before.Becomes output after) :=
  inferInstanceAs (Decidable (_ = _))

namespace Screen

variable {output first second : List Char} {before middle after : Screen}

theorem becomes_nil (screen : Screen) : screen.Becomes [] screen := rfl

theorem Becomes.append
    (start : before.Becomes first middle)
    (rest : middle.Becomes second after) :
    before.Becomes (first ++ second) after := by
  unfold Becomes at *
  rw [List.foldl_append, start, rest]

theorem becomes_newline (screen : Screen) : screen.Becomes ['\n'] screen.newline := rfl

theorem becomes_moveUp (screen : Screen) :
    screen.Becomes Command.moveUp.encode.toList screen.moveUp := rfl

theorem becomes_clearLine (screen : Screen) :
    screen.Becomes Command.clearLine.encode.toList screen.clearLine := rfl

theorem becomes_clearBelow (screen : Screen) :
    screen.Becomes Command.clearBelow.encode.toList screen.clearBelow := rfl

/-! ## Lines -/

/-- The screen shows these lines and nothing below the line of the cursor, which is at the end of
what stands on that line. -/
structure Shows (screen : Screen) (lines : List (List Char)) (current : List Char) : Prop where
  /-- The lines are above the cursor. -/
  above : screen.above = lines
  /-- What stands on the line of the cursor. -/
  line : screen.line = current
  /-- The cursor is at its end. -/
  column : screen.column = current.length
  /-- Nothing stands below. -/
  below : ∀ line ∈ screen.below, line = []

namespace Shows

variable {screen : Screen} {lines : List (List Char)} {line current text : List Char}

/-- The line of the cursor is ended. -/
theorem newline (shows : screen.Shows lines current) :
    screen.newline.Shows (lines ++ [current]) [] where
  above := by rw [Screen.newline, shows.above, shows.line]
  line := by
    rw [Screen.newline, List.headD_eq_head?_getD]
    cases first : screen.below.head? with
    | none => rfl
    | some line => exact shows.below line (List.mem_of_head? first)
  column := rfl
  below := fun line member => shows.below line (List.mem_of_mem_tail member)

theorem moveUp (shows : screen.Shows (lines ++ [line]) []) :
    screen.moveUp = ⟨lines, line, 0, [] :: screen.below⟩ := by
  unfold Screen.moveUp
  rw [shows.above, shows.line, shows.column, List.getLast?_concat, List.dropLast_concat]
  rfl

/-- The last line is cleared, and the cursor stands there. -/
theorem clearLine (shows : screen.Shows (lines ++ [line]) []) :
    screen.moveUp.clearLine.Shows lines [] := by
  rw [shows.moveUp]
  exact ⟨rfl, rfl, rfl, List.forall_mem_cons.mpr ⟨rfl, shows.below⟩⟩

/-- The last line is cleared with all that is below. -/
theorem clearBelow (shows : screen.Shows (lines ++ [line]) []) :
    screen.moveUp.clearBelow.Shows lines [] := by
  rw [shows.moveUp]
  exact ⟨rfl, rfl, rfl, List.forall_mem_nil _⟩

/-- A character is put at the end of the line. -/
theorem put (shows : screen.Shows lines current) (c : Char) :
    (screen.put c).Shows lines (current ++ [c]) where
  above := shows.above
  line := by
    rw [Screen.put, shows.line, shows.column]
    simp [List.takeD_eq_take]
  column := by
    rw [Screen.put, shows.column, List.length_append]
    rfl
  below := shows.below

end Shows

end Screen

/-! ## Text -/

/-- A control character. -/
def isControl (c : Char) : Bool :=
  c.toNat < 32 || (127 ≤ c.toNat && c.toNat < 160)

namespace Screen

variable {screen : Screen} {lines : List (List Char)} {current text : List Char}

theorem take_of_not_isControl {c : Char} (plain : isControl c = false) (screen : Screen) :
    Terminal.take ⟨screen, .text⟩ c = ⟨screen.put c, .text⟩ := by
  have notNewline : c ≠ '\n' := by
    rintro rfl
    cases plain
  have notEscape : c ≠ '\x1b' := by
    rintro rfl
    cases plain
  simp [Terminal.take, notNewline, notEscape]

namespace Shows

/-- Text of one line is put at the end of the line. -/
theorem exists_text
    (shows : screen.Shows lines current)
    (plain : ∀ c ∈ text, isControl c = false) :
    ∃ after, screen.Becomes text after ∧ after.Shows lines (current ++ text) := by
  induction text generalizing screen current with
  | nil => exact ⟨screen, becomes_nil screen, by rwa [List.append_nil]⟩
  | cons c text inductionHypothesis =>
      obtain ⟨here, others⟩ := List.forall_mem_cons.mp plain
      obtain ⟨after, becomes, rest⟩ := inductionHypothesis (shows.put c) others
      refine ⟨after, ?_, by rwa [List.append_assoc] at rest⟩
      rw [Becomes, List.foldl_cons, take_of_not_isControl here]
      exact becomes

/-- Text of several lines, its last line ended, comes to stand line by line. -/
theorem exists_lines
    (shows : screen.Shows lines current)
    (fresh : '\n' ∉ current)
    (clean : ∀ c ∈ text, isControl c = true → c = '\n') :
    ∃ after, screen.Becomes (text ++ ['\n']) after ∧
      after.Shows (lines ++ Text.splitAtEach (· == '\n') (current ++ text)) [] := by
  induction text generalizing screen lines current with
  | nil =>
      refine ⟨screen.newline, becomes_newline screen, ?_⟩
      rw [List.append_nil, Text.splitAtEach_eq_singleton]
      · exact shows.newline
      · exact fun c member => beq_false_of_ne (ne_of_mem_of_not_mem member fresh)
  | cons c text inductionHypothesis =>
      obtain ⟨here, others⟩ := List.forall_mem_cons.mp clean
      by_cases ends : c = '\n'
      · subst ends
        obtain ⟨after, becomes, rest⟩ :=
          inductionHypothesis shows.newline List.not_mem_nil others
        refine ⟨after, becomes, ?_⟩
        have whole : Text.splitAtEach (· == '\n') current = [current] :=
          Text.splitAtEach_eq_singleton fun c member =>
            beq_false_of_ne (ne_of_mem_of_not_mem member fresh)
        rw [Text.splitAtEach_append_cons rfl, whole]
        rwa [List.append_assoc] at rest
      · have plain : isControl c = false := Bool.eq_false_iff.mpr fun control => ends (here control)
        have freshNow : '\n' ∉ current ++ [c] := by
          simpa [fresh] using Ne.symm ends
        obtain ⟨after, becomes, rest⟩ := inductionHypothesis (shows.put c) freshNow others
        refine ⟨after, ?_, by rwa [List.append_assoc] at rest⟩
        rw [Becomes, List.cons_append, List.foldl_cons, take_of_not_isControl plain]
        exact becomes

end Shows

end Screen

end Console
end MailPress
