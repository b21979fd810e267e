/-!
# Trees of templates

A template is a list of nodes: text, values to print, and statements around other
nodes. Values are described by expressions.
-/

namespace MailPress
namespace Jinja

/-- A value that is written out in a template. -/
inductive Constant
  /-- No value. -/
  | none
  /-- A truth value. -/
  | truth (holds : Bool)
  /-- An integer. -/
  | integer (value : Int)
  /-- A number with a fraction. -/
  | real (value : Float)
  /-- A text. -/
  | text (content : String)
  deriving Repr, Inhabited

/-- Operators between two operands. -/
inductive Operator
  /-- The first operand that counts as true. -/
  | either
  /-- The first operand that counts as false. -/
  | both
  /-- Equality. -/
  | equal
  /-- Inequality. -/
  | unequal
  /-- Less. -/
  | less
  /-- Less or equal. -/
  | lessEqual
  /-- Greater. -/
  | greater
  /-- Greater or equal. -/
  | greaterEqual
  /-- Whether the second operand holds the first. -/
  | within
  /-- A sum. -/
  | plus
  /-- A difference. -/
  | minus
  /-- Two texts joined. -/
  | join
  /-- A product. -/
  | times
  /-- A quotient with a fraction. -/
  | divide
  /-- A quotient without a fraction. -/
  | divideWhole
  /-- A remainder. -/
  | modulo
  /-- A power. -/
  | power
  deriving DecidableEq, Repr, Inhabited

mutual

/-- An expression. -/
inductive Expression
  /-- A value that is written out. -/
  | constant (value : Constant)
  /-- A variable. -/
  | name (name : String)
  /-- A list. -/
  | list (elements : List Expression)
  /-- A map. -/
  | map (entries : List (Expression × Expression))
  /-- The opposite number. -/
  | negative (operand : Expression)
  /-- The opposite truth value. -/
  | negation (operand : Expression)
  /-- An operator between two operands. -/
  | binary (operator : Operator) (left right : Expression)
  /-- One of two values. -/
  | choice (condition ifTrue : Expression) (otherwise : Option Expression)
  /-- A member of a value. -/
  | member (owner : Expression) (name : String)
  /-- An element of a value. -/
  | item (owner key : Expression)
  /-- A stretch of a value. -/
  | slice (owner : Expression) (start stop step : Option Expression)
  /-- A filter applied to a value; without one, to the text of the block around it. -/
  | filter (operand : Option Expression) (name : String) (arguments : List Argument)
  /-- A test of a value. -/
  | test (operand : Expression) (name : String) (arguments : List Argument)
  /-- A call. -/
  | call (callee : Expression) (arguments : List Argument)

/-- An argument. -/
inductive Argument
  /-- An argument by position. -/
  | single (value : Expression)
  /-- An argument by name. -/
  | named (name : String) (value : Expression)
  /-- All elements of a list. -/
  | spread (value : Expression)
  /-- All entries of a map. -/
  | spreadNamed (value : Expression)

end

instance : Inhabited Expression := ⟨.name ""⟩

/-- What is assigned to. -/
inductive Target
  /-- A variable. -/
  | name (name : String)
  /-- A member of a namespace. -/
  | member (owner name : String)
  /-- Several targets, for the elements of a list. -/
  | all (targets : List Target)
  deriving Repr, Inhabited

/-- A parameter of a macro. -/
structure Parameter where
  /-- Its name. -/
  name : String
  /-- Its value where no argument is given. -/
  fallback : Option Expression

/-- A node of a template. -/
inductive Node
  /-- Text. -/
  | text (content : String)
  /-- A value that is printed. -/
  | print (value : Expression)
  /-- The first nodes whose condition holds; the last condition may be missing. -/
  | branch (arms : List (Option Expression × List Node))
  /-- The nodes once for each element, or others when there is none. -/
  | loop (target : Target) (source : Expression) (condition : Option Expression)
      (isRecursive : Bool) (body otherwise : List Node)
  /-- The nodes with some variables. -/
  | scope (assignments : List (Target × Expression)) (body : List Node)
  /-- An assignment. -/
  | assign (target : Target) (value : Expression)
  /-- An assignment of what some nodes come to. -/
  | capture (target : Target) (filter : Option Expression) (body : List Node)
  /-- A filter on what some nodes come to. -/
  | filtered (filter : Expression) (body : List Node)
  /-- A part that other templates may replace. -/
  | block (name : String) (body : List Node)
  /-- The template that this one fills. -/
  | extends (template : Expression)
  /-- Another template. -/
  | include (template : Expression) (mayBeMissing : Bool)
  /-- The macros of another template under one name. -/
  | import (template : Expression) (target : Target)
  /-- Some macros of another template. -/
  | importNames (template : Expression) (names : List (String × String))
  /-- A macro. -/
  | routine (name : String) (parameters : List Parameter) (body : List Node)
  /-- A call of a macro with a body for it. -/
  | callWith (call : Expression) (parameters : List Parameter) (body : List Node)
  /-- An expression without a result. -/
  | run (value : Expression)
  /-- Nodes whose values are escaped, or not. -/
  | escaping (mode : Expression) (body : List Node)

instance : Inhabited Node := ⟨.text ""⟩

end Jinja
end MailPress
