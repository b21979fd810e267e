import MailPress.Css.Sheet
import MailPress.Text.Search

/-!
# Reading style sheets

Reading never fails: what is not understood is skipped. The text is first cut
into pieces, each a whole rule, a statement, a block of declarations, or the
opening or the closing brace of a grouping at-rule; the pieces are then nested.

Every step takes at least one character off the text, which is why the cutting
ends, and nesting goes once through the pieces.
-/

namespace MailPress
namespace Css

/-- Where a scan stands: at a depth of brackets, inside a string, or inside a comment. -/
inductive ScanState
  /-- Outside strings and comments. -/
  | plain (depth : Nat)
  /-- Inside a string that ends with `quote`. -/
  | quoted (quote : Char) (depth : Nat)
  /-- Inside a comment. -/
  | comment (depth : Nat)
  deriving DecidableEq, Repr

/-- A stretch of text that was read, what ended it, and what is left. -/
structure Stretch where
  /-- The characters read, comments left out. -/
  text : List Char
  /-- The character that ended the stretch, if the source did not. -/
  stop : Option Char
  /-- The source after the stop. -/
  rest : List Char
  deriving DecidableEq, Repr

namespace Stretch

/-- The stretch with one more character at its front. -/
def push (c : Char) (stretch : Stretch) : Stretch :=
  { stretch with text := c :: stretch.text }

@[simp] theorem text_push (c : Char) (stretch : Stretch) :
    (stretch.push c).text = c :: stretch.text := rfl

@[simp] theorem stop_push (c : Char) (stretch : Stretch) :
    (stretch.push c).stop = stretch.stop := rfl

@[simp] theorem rest_push (c : Char) (stretch : Stretch) :
    (stretch.push c).rest = stretch.rest := rfl

end Stretch

/-- Whether the character opens a string. -/
def isQuote (c : Char) : Bool :=
  c == '"' || c == '\''

/-- The state after a character that is neither part of a string nor of a comment. -/
def stateAfter (depth : Nat) (c : Char) : ScanState :=
  if isQuote c then .quoted c depth
  else if c == '(' || c == '[' then .plain (depth + 1)
  else if c == ')' || c == ']' then .plain (depth - 1)
  else .plain depth

/-- Read until a stop character outside strings, comments and brackets.
The stop is consumed. -/
def readUntil (stops : List Char) : ScanState → List Char → Stretch
  | _, [] => ⟨[], none, []⟩
  | .comment depth, '*' :: '/' :: rest => readUntil stops (.plain depth) rest
  | .comment depth, _ :: rest => readUntil stops (.comment depth) rest
  | .quoted quote depth, '\\' :: c :: rest =>
      ((readUntil stops (.quoted quote depth) rest).push c).push '\\'
  | .quoted quote depth, c :: rest =>
      if c = quote then (readUntil stops (.plain depth) rest).push c
      else (readUntil stops (.quoted quote depth) rest).push c
  | .plain depth, '/' :: '*' :: rest => readUntil stops (.comment depth) rest
  | .plain depth, c :: rest =>
      if depth = 0 ∧ c ∈ stops then ⟨[], some c, rest⟩
      else (readUntil stops (stateAfter depth c) rest).push c

/-- Drop blanks and comments; the flag tells whether the text starts inside a comment. -/
def skipGaps : Bool → List Char → List Char
  | _, [] => []
  | true, '*' :: '/' :: rest => skipGaps false rest
  | true, _ :: rest => skipGaps true rest
  | false, '/' :: '*' :: rest => skipGaps true rest
  | false, c :: rest => if Text.isBlank c then skipGaps false rest else c :: rest

/-- Where a cut stands: at a depth of brackets or inside a string. -/
structure CutState where
  /-- Brackets opened and not yet closed. -/
  depth : Nat
  /-- The quote that ends the string the cut is in. -/
  quote : Option Char
  deriving DecidableEq, Repr

/-- The state after an unescaped character. -/
def CutState.after (state : CutState) (c : Char) : CutState :=
  match state.quote with
  | some quote => if c = quote then { state with quote := none } else state
  | none =>
      if isQuote c then { state with quote := some c }
      else if c == '(' || c == '[' then { state with depth := state.depth + 1 }
      else if c == ')' || c == ']' then { state with depth := state.depth - 1 }
      else state

/-- Put a character at the front of the first part. -/
def consFirst (c : Char) : List (List Char) → List (List Char)
  | [] => [[c]]
  | part :: parts => (c :: part) :: parts

/-- Cut at separators outside strings and brackets; a backslash hides the next character. -/
def cutFrom (separator : Char) : CutState → List Char → List (List Char)
  | _, [] => [[]]
  | state, '\\' :: c :: rest => consFirst '\\' (consFirst c (cutFrom separator state rest))
  | _, ['\\'] => [['\\']]
  | state, c :: rest =>
      if c = separator ∧ state = ⟨0, none⟩ then [] :: cutFrom separator state rest
      else consFirst c (cutFrom separator (state.after c) rest)

/-- The parts of a text between its top-level separators. -/
def cutAtTopLevel (separator : Char) (text : List Char) : List (List Char) :=
  cutFrom separator ⟨0, none⟩ text

/-- Take the importance mark off a trimmed value. -/
def takeImportance (value : List Char) : List Char × Bool :=
  match Text.splitLast ['!'] value with
  | some (before, mark) =>
      if Text.sameIgnoringCase (String.ofList (Text.trim mark)) "important" then
        (Text.trimEnd before, true)
      else
        (value, false)
  | none => (value, false)

/-- One part of a declaration list; a part without a property or a value says nothing. -/
def readDeclaration (part : List Char) : Option Declaration :=
  match Text.splitOnce [':'] part with
  | none => none
  | some (name, text) =>
      let property := Text.lower (String.ofList (Text.trim name))
      let (value, important) := takeImportance (Text.trim text)
      if property.isEmpty || value.isEmpty then none
      else some ⟨property, String.ofList value, important⟩

/-- The declarations of a block body or of a `style` attribute. -/
def readDeclarationList (text : List Char) : List Declaration :=
  let body := (readUntil [] (.plain 0) text).text
  (cutAtTopLevel ';' body).filterMap readDeclaration

/-- The declarations of a block body or of a `style` attribute. -/
def readDeclarations (text : String) : List Declaration :=
  readDeclarationList text.toList

/-- A piece of a style sheet, before nesting. -/
inductive Piece
  /-- A rule or an at-rule that holds no items. -/
  | whole (item : Item)
  /-- The head of a grouping at-rule, up to its opening brace. -/
  | opening (name prelude : String)
  /-- A closing brace between items. -/
  | closing
  deriving Repr

/-- The selectors of a selector list, trimmed; empty ones are dropped. -/
def readSelectorList (text : List Char) : List String :=
  ((cutAtTopLevel ',' text).map Text.trim).filterMap fun selector =>
    if selector.isEmpty then none else some (String.ofList selector)

/-- Read a rule. One that ends before its block, or has no selector, yields nothing. -/
def readRule (text : List Char) : Option Piece × List Char :=
  let head := readUntil ['{', ';', '}'] (.plain 0) text
  if head.stop = some '{' then
    let body := readUntil ['}'] (.plain 0) head.rest
    let selectors := readSelectorList head.text
    if selectors.isEmpty then (none, body.rest)
    else (some (.whole (.rule ⟨selectors, readDeclarationList body.text⟩)), body.rest)
  else
    (none, head.rest)

/-- A character of the name of an at-rule. -/
def isAtNameChar (c : Char) : Bool :=
  Text.isAsciiAlphanumeric c || c == '-' || c == '_'

/-- Read an at-rule after its `@`. A closing brace that ends it is left to be read again,
and one without a name yields nothing. -/
def readAtRule (text : List Char) : Option Piece × List Char :=
  let name := Text.lower (String.ofList (text.takeWhile isAtNameChar))
  let head := readUntil ['{', ';', '}'] (.plain 0) (text.dropWhile isAtNameChar)
  let prelude := String.ofList (Text.trim head.text)
  let named (piece : Piece) : Option Piece := if name.isEmpty then none else some piece
  match head.stop with
  | some '{' =>
      if isGrouping name then
        (named (.opening name prelude), head.rest)
      else
        let body := readUntil ['}'] (.plain 0) head.rest
        (named (.whole (.descriptors name prelude (readDeclarationList body.text))), body.rest)
  | some '}' => (named (.whole (.statement name prelude)), '}' :: head.rest)
  | _ => (named (.whole (.statement name prelude)), head.rest)

theorem length_skipGaps_le (inComment : Bool) (text : List Char) :
    (skipGaps inComment text).length ≤ text.length := by
  fun_induction skipGaps inComment text <;> simp <;> omega

theorem length_rest_readUntil_le
    (stops : List Char)
    (state : ScanState)
    (text : List Char) :
    (readUntil stops state text).rest.length ≤ text.length := by
  fun_induction readUntil stops state text <;> simp <;> omega

theorem length_rest_readUntil_lt
    {stops : List Char}
    {state : ScanState}
    {text : List Char}
    {stop : Char}
    (stopped : (readUntil stops state text).stop = some stop) :
    (readUntil stops state text).rest.length < text.length := by
  fun_induction readUntil stops state text <;> simp_all <;> omega

/-- A scan of a non-empty text takes off at least one character. -/
theorem length_rest_readUntil_of_ne_nil
    (stops : List Char)
    (state : ScanState)
    {text : List Char}
    (nonempty : text ≠ []) :
    (readUntil stops state text).rest.length < text.length := by
  have bound := length_rest_readUntil_le stops
  fun_cases readUntil stops state text <;> grind [Stretch.push]

theorem length_readRule_lt (c : Char) (text : List Char) :
    (readRule (c :: text)).2.length < (c :: text).length := by
  have headBound := length_rest_readUntil_of_ne_nil ['{', ';', '}'] (.plain 0)
    (List.cons_ne_nil c text)
  have bodyBound := length_rest_readUntil_le ['}'] (.plain 0)
    (readUntil ['{', ';', '}'] (.plain 0) (c :: text)).rest
  unfold readRule
  dsimp only
  split
  · split <;> exact Nat.lt_of_le_of_lt bodyBound headBound
  · exact headBound

theorem length_readAtRule_le (text : List Char) :
    (readAtRule text).2.length ≤ text.length := by
  have nameBound := Text.length_dropWhile_le isAtNameChar text
  have headBound := length_rest_readUntil_le ['{', ';', '}'] (.plain 0)
    (text.dropWhile isAtNameChar)
  have bodyBound := length_rest_readUntil_le ['}'] (.plain 0)
    (readUntil ['{', ';', '}'] (.plain 0) (text.dropWhile isAtNameChar)).rest
  unfold readAtRule
  dsimp only
  split
  · split <;> simp <;> omega
  · next stopped =>
      have strict := length_rest_readUntil_lt stopped
      simp only [List.length_cons]
      omega
  · exact Nat.le_trans headBound nameBound

/-- Cut a style sheet into pieces. -/
def pieces (text : List Char) : List Piece :=
  match h : skipGaps false text with
  | [] => []
  | c :: rest =>
      have shorter : rest.length < text.length := by
        have bound := length_skipGaps_le false text
        rw [h] at bound
        exact bound
      if c = '}' then
        .closing :: pieces rest
      else if c = '@' then
        have := length_readAtRule_le rest
        (readAtRule rest).1.toList ++ pieces (readAtRule rest).2
      else
        have := length_readRule_lt c rest
        have : (readRule (c :: rest)).2.length < text.length := by
          simp only [List.length_cons] at this
          omega
        (readRule (c :: rest)).1.toList ++ pieces (readRule (c :: rest)).2
termination_by text.length

/-- A grouping at-rule still open, with the items that stand before it. -/
structure OpenGroup where
  /-- Name of the at-rule. -/
  name : String
  /-- Its prelude. -/
  prelude : String
  /-- The earlier items of the list that the at-rule belongs to. -/
  before : List Item

/-- The list of items that results when the at-rule ends with these items inside. -/
def OpenGroup.close (group : OpenGroup) (items : List Item) : List Item :=
  group.before ++ [.group group.name group.prelude items]

/-- Nest the pieces below the open at-rules, innermost first.
A closing brace that closes nothing is ignored, and the end closes everything. -/
def nest : List OpenGroup → List Item → List Piece → List Item
  | groups, items, [] => groups.foldl (fun inner group => group.close inner) items
  | groups, items, .whole item :: rest => nest groups (items ++ [item]) rest
  | groups, items, .opening name prelude :: rest => nest (⟨name, prelude, items⟩ :: groups) [] rest
  | [], items, .closing :: rest => nest [] items rest
  | group :: groups, items, .closing :: rest => nest groups (group.close items) rest

/-- Read a style sheet. -/
def Sheet.read (text : String) : Sheet :=
  ⟨nest [] [] (pieces text.toList)⟩

end Css
end MailPress
