import MailPress.Scss.Expression

/-!
# Statements of style sheets

What a style sheet says, one statement after another: rules and declarations,
at-rules, and the statements that compute.
-/

namespace MailPress
namespace Scss

/-- A statement. -/
inductive Statement
  /-- A comment that is kept, with the column it starts in. -/
  | comment (text : List Piece) (column : Nat)
  /-- A variable is set; perhaps only if it has no value, and perhaps the outermost one. -/
  | assign (name : String) (value : Expression) (ifUnset outermost : Bool)
  /-- A declaration, perhaps with further ones whose names start with its own. -/
  | declare (name : List Piece) (value : Option Expression) (body : List Statement)
  /-- A declaration whose value is not an expression. -/
  | custom (name value : List Piece)
  /-- A style rule. -/
  | rule (selectors : List Piece) (body : List Statement)
  /-- A media rule. -/
  | media (query : List Piece) (body : List Statement)
  /-- Another at-rule. -/
  | atRule (name prelude : List Piece) (body : Option (List Statement))
  /-- Statements outside the rules around them. -/
  | atRoot (selectors : Option (List Piece)) (body : List Statement)
  /-- A mixin is defined. -/
  | mixin (name : String) (parameters : Parameters) (body : List Statement)
  /-- A function is defined. -/
  | function (name : String) (parameters : Parameters) (body : List Statement)
  /-- A mixin is put here, perhaps with content for it. -/
  | include (name : String) (arguments : List Argument)
      (content : Option (Parameters × List Statement))
  /-- The content of a mixin is put here. -/
  | content (arguments : List Argument)
  /-- A function has this value. -/
  | return (value : Expression)
  /-- The first statements whose condition holds; the last condition may be missing. -/
  | branch (arms : List (Option Expression × List Statement))
  /-- The statements once for each element of a list. -/
  | each (names : List String) (list : Expression) (body : List Statement)
  /-- The statements once for each number of a range. -/
  | count (name : String) (first last : Expression) (withLast : Bool) (body : List Statement)
  /-- The statements as long as a condition holds. -/
  | while (condition : Expression) (body : List Statement)
  /-- Other style sheets are put here. -/
  | import (names : List String)
  /-- An import that stays in the output. -/
  | plainImport (text : List Piece)
  /-- The rules around the place also get the selectors that extend this one. -/
  | extend (target : List Piece) (mayBeAbsent : Bool)
  /-- A module is used. -/
  | use (address : String) (space : Option String)
  /-- A message that is not part of the output. -/
  | message (value : Expression)
  /-- The style sheet is refused. -/
  | refuse (value : Expression)

instance : Inhabited Statement := ⟨.import []⟩

end Scss
end MailPress
