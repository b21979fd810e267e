import MailPress.Scss.Media
import MailPress.Scss.Selector

/-!
# The output of a style sheet

What a style sheet comes to: rules without nesting, at-rules, declarations and
comments. It is written with two blanks for every level, and a blank line after
the last rule of each nest at top level.

A rule without declarations and an at-rule without rules are not written.
-/

namespace MailPress
namespace Scss

/-- A part of the output. -/
inductive Node
  /-- A declaration. -/
  | declaration (name value : String)
  /-- A comment, with the column it started in. -/
  | comment (text : String) (column : Nat)
  /-- A rule. The mark tells whether it ends a nest of rules at top level. -/
  | rule (selectors : List NestedSelector) (body : List Node) (ends : Bool)
  /-- A step of an animation. -/
  | frame (moments : String) (body : List Node)
  /-- A media rule; the first mark as for a rule, the second tells whether it leaves a media rule
  around it. -/
  | media (query : String) (body : List Node) (ends leaves : Bool)
  /-- An at-rule. -/
  | atRule (name prelude : String) (body : Option (List Node)) (ends : Bool)
  deriving Repr, Inhabited

namespace Node

/-- Whether a part belongs to the block of the rule around it. -/
def isOwn : Node → Bool
  | .declaration _ _ | .comment _ _ => true
  | _ => false

/-- The part, marked as the end of a nest of rules. -/
def ending : Node → Node
  | .rule selectors body _ => .rule selectors body true
  | .media query body _ leaves => .media query body true leaves
  | .atRule name prelude body _ => .atRule name prelude body true
  | node => node

/-- Whether the part ends a nest of rules. -/
def ends : Node → Bool
  | .rule _ _ ends => ends
  | .media _ _ ends _ => ends
  | .atRule _ _ _ ends => ends
  | _ => false

/-- Whether a media rule leaves the media rule around it. -/
def leavesMedia : Node → Bool
  | .media _ _ _ leaves => leaves
  | _ => false

/-- Whether the part is an import, which stands before all rules. -/
def isImport : Node → Bool
  | .atRule "import" _ none _ => true
  | _ => false

end Node

/-- Mark the last part as the end of a nest of rules. -/
def markEnd (nodes : List Node) : List Node :=
  match nodes.getLast? with
  | some last => nodes.dropLast ++ [last.ending]
  | none => []

mutual

/-- Apply a change to the selectors of a part; rules left without selectors are dropped. -/
def Node.mapSelectors (change : List NestedSelector → List NestedSelector) : Node → List Node
  | .rule selectors body ends =>
      let changed := change selectors
      if changed.isEmpty then [] else [.rule changed body ends]
  | .media query body ends leaves => [.media query (mapAll change body) ends leaves]
  | .atRule name prelude (some body) ends => [.atRule name prelude (some (mapAll change body)) ends]
  | node => [node]

/-- Apply a change to the selectors of some parts. -/
def mapAll (change : List NestedSelector → List NestedSelector) : List Node → List Node
  | [] => []
  | node :: nodes => node.mapSelectors change ++ mapAll change nodes

end

mutual

/-- The selectors of the rules in a part. -/
def Node.selectors : Node → List NestedSelector
  | .rule selectors _ _ => selectors
  | .media _ body _ _ => selectorsOf body
  | .atRule _ _ (some body) _ => selectorsOf body
  | _ => []

/-- The selectors of the rules in some parts. -/
def selectorsOf : List Node → List NestedSelector
  | [] => []
  | node :: nodes => node.selectors ++ selectorsOf nodes

end

mutual

/-- Whether a part is written at all. -/
def Node.isVisible : Node → Bool
  | .declaration _ _ | .comment _ _ => true
  | .rule _ body _ => anyVisible body
  | .frame _ body => anyVisible body
  | .media _ body _ _ => anyVisible body
  | .atRule _ _ _ _ => true

/-- Whether one of some parts is written. -/
def anyVisible : List Node → Bool
  | [] => false
  | node :: nodes => node.isVisible || anyVisible nodes

end

/-- The blanks at the start of a line. -/
def margin (depth : Nat) : String :=
  String.ofList (List.replicate (2 * depth) ' ')

/-- The text of a list of selectors. -/
def writeSelectors (depth : Nat) : List NestedSelector → String
  | [] => ""
  | [selector] => selector.write
  | selector :: next :: rest =>
      selector.write ++ (if next.onNewLine then ",\n" ++ margin depth else ", ") ++
        writeSelectors depth (next :: rest)

/-- The lines of a comment after the first one: what they are indented beyond the column that
the comment started in is kept. -/
def alignLines (column : Nat) (lines : List (List Char)) : List (List Char) :=
  lines.map fun line =>
    let text := line.dropWhile Text.isBlank
    List.replicate (line.length - text.length - column) ' ' ++ text

/-- The text of a comment. -/
def writeComment (text : String) (column : Nat) : String :=
  match Text.splitAtEach (· == '\n') text.toList with
  | first :: rest => String.ofList (['\n'].intercalate (first :: alignLines column rest))
  | [] => ""

mutual

/-- The text of a part, without the line feed after it. -/
def Node.write (depth : Nat) : Node → String
  | .declaration name value => margin depth ++ name ++ ": " ++ value ++ ";"
  | .comment text column => margin depth ++ writeComment text column
  | .rule selectors body _ =>
      margin depth ++ writeSelectors depth selectors ++ writeBlock depth body
  | .frame moments body => margin depth ++ moments ++ writeBlock depth body
  | .media query body _ _ => margin depth ++ "@media " ++ query ++ writeBlock depth body
  | .atRule name prelude body _ =>
      let head := margin depth ++ "@" ++ name ++ (if prelude.isEmpty then "" else " " ++ prelude)
      match body with
      | none => head ++ ";"
      | some nodes =>
          if anyVisible nodes then head ++ writeBlock depth nodes else head ++ " \x7b\x7d"

/-- The text of a block with its braces. -/
def writeBlock (depth : Nat) (body : List Node) : String :=
  " \x7b\n" ++ writeLines (depth + 1) body ++ margin depth ++ "\x7d"

/-- The texts of the visible parts of a block, a line feed after each. -/
def writeLines (depth : Nat) : List Node → String
  | [] => ""
  | node :: nodes =>
      (if node.isVisible then node.write depth ++ "\n" else "") ++ writeLines depth nodes

end

/-- The texts of the parts at top level. -/
def writeTopLevel : (afterEnd : Bool) → List Node → String
  | _, [] => ""
  | afterEnd, node :: nodes =>
      if node.isVisible then
        (if afterEnd then "\n" else "") ++ node.write 0 ++ "\n" ++ writeTopLevel node.ends nodes
      else writeTopLevel afterEnd nodes

/-- The text of a style sheet. One with characters outside ASCII names its encoding. -/
def writeSheet (nodes : List Node) : String :=
  let imports := nodes.filter Node.isImport
  let others := nodes.filter fun node => !node.isImport
  let text := writeTopLevel false (imports ++ others)
  if text.toList.all Text.isAscii then text else "@charset \"UTF-8\";\n" ++ text

end Scss
end MailPress
