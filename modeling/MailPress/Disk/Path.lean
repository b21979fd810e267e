import MailPress.Text.Blank
import MailPress.Text.Search

/-!
# Paths

A path is a text whose components are separated by slashes. It is kept as it was
written, because messages show it so, and taken apart when it is used.

Single dots and empty components do not count, so two paths with the same
components name the same place.
-/

namespace MailPress
namespace Path

/-- Whether a path starts at the top of the disk. -/
def isAbsolute (path : String) : Bool :=
  Text.hasStart "/" path

/-- The parts of a path between slashes, as written. -/
def parts (path : String) : List String :=
  (Text.splitAtEach (· == '/') path.toList).map String.ofList

/-- The components of a path. -/
def components (path : String) : List String :=
  (parts path).filter fun part => !part.isEmpty && part != "."

/-- A path below a base; an absolute path stays as it is. -/
def join (base path : String) : String :=
  if isAbsolute path then path
  else if base.isEmpty || Text.hasEnd "/" base then base ++ path
  else base ++ "/" ++ path

/-- The last component, when it names something. -/
def fileName? (path : String) : Option String :=
  (components path).getLast?.filter (· != "..")

/-- A path without the slashes and single dots at its end. -/
def trimEnd (path : List Char) : List Char :=
  match (Text.splitAtEach (· == '/') path).reverse with
  | last :: before :: more =>
      if last.isEmpty || last == ['.'] then
        let dropped :=
          ((before :: more).dropWhile fun part => part.isEmpty || part == ['.']).reverse
        if dropped.isEmpty && path.head? == some '/' then ['/']
        else ['/'].intercalate dropped
      else path
  | _ => path

/-- The path without its last component; the top and the empty path have no parent. -/
def parent? (path : String) : Option String :=
  if (components path).isEmpty then none
  else
    let trimmed := trimEnd path.toList
    let front := (trimmed.reverse.dropWhile (· != '/')).reverse
    let parent := trimEnd front
    some (String.ofList (if parent.isEmpty && isAbsolute path then ['/'] else parent))

/-- The parts of a file name around its last dot. A name that starts with its only dot has no
such parts. -/
def splitName (name : String) : Option (String × String) :=
  match Text.splitLast ['.'] name.toList with
  | some (stem, ending) =>
      if stem.isEmpty then none else some (String.ofList stem, String.ofList ending)
  | none => none

/-- What follows the last dot of a file name. -/
def ending? (name : String) : Option String :=
  (splitName name).map Prod.snd

/-- A file name without its ending. -/
def stem (name : String) : String :=
  ((splitName name).map Prod.fst).getD name

/-- A path of these components below the current place. -/
def ofComponents (names : List String) : String :=
  String.intercalate "/" names

end Path
end MailPress
