import MailPress.Markup.Reader

/-!
# Errors of a build

An error stops one template and leaves the others alone. It names what it is
about: a file that is missing or cannot be written, a context that is not data,
a template that cannot be rendered, a style sheet that does not compile, or
markup that cannot be read.

The wording of every error is given by one function.
-/

namespace MailPress

/-- Why a template cannot be rendered. -/
inductive RenderFault
  /-- Partials include one another too deeply. -/
  | nestedTooDeep
  /-- The template is not understood, or asks for something that does not exist. -/
  | template (detail : String)
  deriving DecidableEq, Repr

/-- The greatest depth of partials inside one another. -/
def partialDepth : Nat := 16

/-- The wording of a rendering fault. -/
def RenderFault.message : RenderFault → String
  | .nestedTooDeep => "partials nested deeper than " ++ toString partialDepth ++ " levels"
  | .template detail => detail

/-- An error that stops a template. -/
inductive BuildError
  /-- Markup or a required style sheet is absent or unreadable. -/
  | sourceMissing (path : String)
  /-- A context file does not hold data. -/
  | malformedContent (path : String)
  /-- A template cannot be rendered. -/
  | render (name : String) (fault : RenderFault)
  /-- A style sheet does not compile. -/
  | styleCompile (path : String)
  /-- Markup cannot be read. -/
  | markup (error : Markup.ReadError)
  /-- A file cannot be written. -/
  | write (path : String)
  deriving DecidableEq, Repr

/-- The wording of an error. -/
def BuildError.message : BuildError → String
  | .sourceMissing path => "missing source `" ++ path ++ "`"
  | .malformedContent path => "malformed content in `" ++ path ++ "`"
  | .render name fault => "render error in `" ++ name ++ "`: " ++ fault.message
  | .styleCompile path => "style compile error in `" ++ path ++ "`"
  | .markup error => error.message
  | .write path => "failed to write `" ++ path ++ "`"

end MailPress
