import MailPress.Scss.Value

/-!
# Expressions of style sheets

The right side of a declaration, an argument, a condition, or a hole in some
text is an expression. Texts may have holes, so texts and expressions are
defined together.
-/

namespace MailPress
namespace Scss

/-- Operators in front of an operand. -/
inductive UnaryOperator
  /-- The operand as it is. -/
  | plus
  /-- The opposite number. -/
  | minus
  /-- A slash in front. -/
  | divide
  /-- The opposite truth value. -/
  | negation
  deriving DecidableEq, Repr, Inhabited

/-- Operators between two operands. -/
inductive BinaryOperator
  /-- An equals sign that is printed. -/
  | assign
  /-- The first operand that is true. -/
  | either
  /-- The first operand that is false. -/
  | both
  /-- Equality. -/
  | equal
  /-- Inequality. -/
  | unequal
  /-- Less. -/
  | less
  /-- Less or equal. -/
  | lessEqual
  /-- Greater. -/
  | greater
  /-- Greater or equal. -/
  | greaterEqual
  /-- A sum, or two texts joined. -/
  | plus
  /-- A difference. -/
  | minus
  /-- A product. -/
  | times
  /-- A quotient, or a slash that is printed. -/
  | divide
  /-- A remainder. -/
  | modulo
  deriving DecidableEq, Repr, Inhabited

/-- How an operator is written. -/
def BinaryOperator.sign : BinaryOperator → String
  | .assign => "="
  | .either => "or"
  | .both => "and"
  | .equal => "=="
  | .unequal => "!="
  | .less => "<"
  | .lessEqual => "<="
  | .greater => ">"
  | .greaterEqual => ">="
  | .plus => "+"
  | .minus => "-"
  | .times => "*"
  | .divide => "/"
  | .modulo => "%"

/-- How tightly an operator binds. -/
def BinaryOperator.level : BinaryOperator → Nat
  | .assign => 0
  | .either => 1
  | .both => 2
  | .equal | .unequal => 3
  | .less | .lessEqual | .greater | .greaterEqual => 4
  | .plus | .minus => 5
  | .times | .divide | .modulo => 6

/-- All operators between two operands. -/
def BinaryOperator.all : List BinaryOperator :=
  [.assign, .either, .both, .equal, .unequal, .less, .lessEqual, .greater, .greaterEqual,
    .plus, .minus, .times, .divide, .modulo]

/-- The operator that is written so. -/
def BinaryOperator.ofSign? (sign : String) : Option BinaryOperator :=
  BinaryOperator.all.find? fun operator => operator.sign = sign

mutual

/-- An expression. -/
inductive Expression
  /-- A value that was written out. -/
  | literal (value : Value)
  /-- A text, with or without quotes. -/
  | text (pieces : List Piece) (quoted : Bool)
  /-- A variable. -/
  | variable (name : String)
  /-- The selectors around the place. -/
  | parent
  /-- A list. -/
  | list (elements : List Expression) (separator : Separator) (bracketed : Bool)
  /-- A map. -/
  | map (entries : List (Expression × Expression))
  /-- An expression in parentheses. -/
  | group (inner : Expression)
  /-- An operator in front of an operand. -/
  | unary (operator : UnaryOperator) (operand : Expression)
  /-- An operator between two operands. -/
  | binary (operator : BinaryOperator) (left right : Expression)
  /-- A function applied to arguments. -/
  | call (name : List Piece) (arguments : List Argument)

/-- A piece of a text: fixed, or a hole that is filled by an expression. -/
inductive Piece
  /-- Fixed text. -/
  | fixed (content : String)
  /-- A hole. -/
  | hole (inner : Expression)

/-- An argument, by position or by name; or a list of arguments. -/
inductive Argument
  /-- An argument. -/
  | one (name : Option String) (value : Expression)
  /-- All elements of a list. -/
  | spread (value : Expression)

end

instance : Inhabited Expression := ⟨.parent⟩

instance : Inhabited Piece := ⟨.fixed ""⟩

/-- A parameter of a mixin or a function. -/
structure Parameter where
  /-- Its name. -/
  name : String
  /-- What it stands for without an argument. -/
  fallback : Option Expression

/-- The parameters of a mixin or a function. -/
structure Parameters where
  /-- The parameters, in order. -/
  single : List Parameter
  /-- The parameter that takes all further arguments. -/
  rest : Option String

/-- Parameters of something that takes no arguments. -/
def Parameters.none : Parameters :=
  ⟨[], .none⟩

/-- A name in the one spelling that is looked up: underscores count as hyphens. -/
def plainName (name : String) : String :=
  String.ofList (name.toList.map fun c => if c = '_' then '-' else c)

end Scss
end MailPress
