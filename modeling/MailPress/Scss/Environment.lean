import MailPress.Scss.Function
import MailPress.Scss.Output
import MailPress.Scss.Statement

/-!
# The environment of a style sheet

What a statement finds when its turn comes: variables in scopes, mixins and
functions, and the content that was handed to the mixin around it. Inner scopes
hide outer ones, and an assignment changes the innermost scope that has the
variable.

A block that only steers the flow at top level has a scope of its own, but sets
outermost variables that exist.
-/

namespace MailPress
namespace Scss

/-- The variables of a block. -/
structure Scope where
  /-- Whether the block only steers the flow. -/
  steers : Bool
  /-- The variables with their values. -/
  bindings : List (String × Value)

/-- A mixin or a function. -/
structure Definition where
  /-- Its parameters. -/
  parameters : Parameters
  /-- Its statements. -/
  body : List Statement

/-- The content for a mixin, with the scopes it was written in. -/
inductive Content
  /-- The content: its parameters, its statements, its scopes, and the content around it. -/
  | block (parameters : Parameters) (body : List Statement) (scopes : List Scope)
      (outer : Option Content)

/-- What a statement finds. -/
structure Environment where
  /-- The outermost variables. -/
  outermost : List (String × Value) := []
  /-- The scopes inside, innermost first. -/
  scopes : List Scope := []
  /-- The mixins. -/
  mixins : List (String × Definition) := []
  /-- The functions. -/
  functions : List (String × Definition) := []
  /-- The content for the mixin around the statement. -/
  content : Option Content := none
  /-- The extensions so far. -/
  extensions : List Extension := []
  /-- The names that stand for modules; a module that is a style sheet has none. -/
  modules : List (String × Option String) := []

namespace Environment

/-- A name without the module in front of it, and the module when it is not a style sheet. -/
def resolveName (environment : Environment) (name : String) : Option String × String :=
  match Text.splitOnce ['.'] name.toList with
  | some (space, member) =>
      match environment.modules.lookup (String.ofList space) with
      | some module => (module, String.ofList member)
      | none => (some (String.ofList space), String.ofList member)
  | none => (none, name)

/-- The value of a variable of a module that is no style sheet. -/
def moduleVariable? (module name : String) : Option Value :=
  let number := fun (value : Rat) => Value.number ⟨value, [], [], none⟩
  match module, name with
  | "math", "pi" => some (number (3141592653589793 / 1000000000000000))
  | "math", "e" => some (number (2718281828459045 / 1000000000000000))
  | _, _ => none

/-- The value of a variable. -/
def lookup? (environment : Environment) (name : String) : Option Value :=
  match environment.resolveName name with
  | (some module, name) => moduleVariable? module name
  | (none, name) =>
      match environment.scopes.findSome? fun scope => scope.bindings.lookup name with
      | some value => some value
      | none => environment.outermost.lookup name

/-- Set a variable in a list of variables. -/
def setIn (name : String) (value : Value) : List (String × Value) → List (String × Value)
  | [] => [(name, value)]
  | entry :: rest =>
      if entry.1 = name then (name, value) :: rest else entry :: setIn name value rest

/-- Set a variable in the innermost scope that has it; none when no scope has. -/
def setInScopes? (name : String) (value : Value) : List Scope → Option (List Scope)
  | [] => none
  | scope :: scopes =>
      if (scope.bindings.lookup name).isSome then
        some ({ scope with bindings := setIn name value scope.bindings } :: scopes)
      else (setInScopes? name value scopes).map (scope :: ·)

/-- Set an outermost variable. -/
def setOutermost (environment : Environment) (name : String) (value : Value) : Environment :=
  { environment with outermost := setIn name value environment.outermost }

/-- Set a variable of the innermost scope, whatever the others have. -/
def define (environment : Environment) (name : String) (value : Value) : Environment :=
  match environment.scopes with
  | [] => environment.setOutermost name value
  | scope :: scopes =>
      { environment with
        scopes := { scope with bindings := setIn name value scope.bindings } :: scopes }

/-- Set a variable. -/
def assign (environment : Environment) (name : String) (value : Value) : Environment :=
  match setInScopes? name value environment.scopes with
  | some scopes => { environment with scopes := scopes }
  | none =>
      if (environment.scopes.all Scope.steers) && (environment.outermost.lookup name).isSome then
        environment.setOutermost name value
      else environment.define name value

/-- The environment with a new innermost scope. -/
def enter (environment : Environment) (steers : Bool) : Environment :=
  { environment with scopes := ⟨steers, []⟩ :: environment.scopes }

/-- The environment without its innermost scope. -/
def leave (environment : Environment) : Environment :=
  { environment with scopes := environment.scopes.drop 1 }

end Environment

/-- Where a statement stands. -/
structure Position where
  /-- The selectors around it. -/
  parents : Option (List NestedSelector) := none
  /-- The media queries around it. -/
  media : Option (List MediaQuery) := none
  /-- Whether it is among the steps of an animation. -/
  inAnimation : Bool := false
  /-- Whether declarations can stand here. -/
  holdsDeclarations : Bool := false
  /-- What the names of declarations start with. -/
  stem : String := ""
  /-- The files being read, innermost first. -/
  files : List String := []

/-- The style sheets that can be imported: from the path of the importing one and an address to
the path and the source. -/
abbrev Library :=
  (importer address : String) → Option (String × String)

/-- A computation that uses and changes the environment, or fails. -/
abbrev Evaluation :=
  StateT Environment Option

/-- What statements come to: parts of the output, and the value of the function they belong to. -/
structure Outcome where
  /-- The parts of the output. -/
  nodes : List Node := []
  /-- The value that is returned. -/
  returned : Option Value := none

end Scss
end MailPress
