import MailPress.Markdown.Line

/-!
# Blocks of a Markdown text

Headings, paragraphs, code, quotes and lists. The text of a paragraph or a heading
is kept as it stands, for it can be read only when all labels of the text are known.

Labels are defined at the start of paragraphs.
-/

namespace MailPress
namespace Markdown

/-- A block. -/
inductive Block
  /-- A paragraph. -/
  | paragraph (text : List Char)
  /-- A heading. -/
  | heading (level : Nat) (text : List Char)
  /-- A rule. -/
  | rule
  /-- Code in a language. -/
  | code (language content : List Char)
  /-- Markup that is kept as it is. -/
  | markup (content : List Char)
  /-- A quote. -/
  | quote (children : List Block)
  /-- A list, with the number of its first item if it is ordered. The paragraphs of a tight list
  are not set apart. -/
  | list (start : Option Nat) (isTight : Bool) (items : List (List Block))
  deriving Repr, Inhabited

/-- What follows a line break, if nothing but blanks stands before it. -/
def dropLineEnd? (text : List Char) : Option (List Char) :=
  match text.dropWhile isLineBlank with
  | [] => some []
  | c :: rest => if c = '\n' then some rest else none

/-- The label and target at the start of a text, and what follows them. -/
def takeDefinition? (text : List Char) : Option ((List Char × Target) × List Char) :=
  match text with
  | '[' :: rest =>
      match takeLabel rest with
      | some (label, ':' :: after) =>
          if label.all isGap then none
          else
            match takeDestination? (skipGaps after) with
            | none => none
            | some (destination, next) =>
                let entry := fun title =>
                  (normalLabel label, (⟨unescape destination, title⟩ : Target))
                let isMissing := destination.isEmpty && (skipGaps after).head? != some '<'
                let titled : Option (List Char × List Char) :=
                  if next.head?.any isGap then
                    match takeTitle? (skipGaps next) with
                    | some (title, left) => (dropLineEnd? left).map fun left => (title, left)
                    | none => none
                  else none
                if isMissing then none
                else
                  match titled with
                  | some (title, left) => some (entry (unescape title), left)
                  | none => (dropLineEnd? next).map fun left => (entry [], left)
      | _ => none
  | _ => none

/-- Take the definitions at the start of a paragraph; `limit` bounds their number. The first
definition of a label counts. -/
def takeDefinitions : (limit : Nat) → Definitions → List Char → Definitions × List Char
  | 0, known, text => (known, text)
  | limit + 1, known, text =>
      match takeDefinition? text with
      | some (entry, rest) =>
          let known := if (known.lookup entry.1).isSome then known else known ++ [entry]
          takeDefinitions limit known (Text.trimStartOf isGap rest)
      | none => (known, text)

end Markdown
end MailPress
