import MailPress.Disk.Basic
import MailPress.Scss.Evaluate

/-!
# Compiling style sheet files

A style sheet is compiled from its file by some compiler. An import is looked for
beside the importing file and then in further directories, with or without the
ending of the file and with or without a leading underscore.
-/

namespace MailPress
namespace Scss

/-- The endings that an import may leave out. -/
def importEndings : List String :=
  ["scss", "css"]

/-- A path with an underscore before its last component. -/
def withUnderscore (path : String) : String :=
  match Path.parent? path, Path.fileName? path with
  | some parent, some name => Path.join parent ("_" ++ name)
  | _, _ => path

/-- The paths that an address may stand for, before it is put below a directory. -/
def importCandidates (address : String) : List String :=
  let named := (Path.fileName? address).bind Path.ending?
  if named.any importEndings.contains then [address, withUnderscore address]
  else
    let forms := fun base => importEndings.flatMap fun ending =>
      [base ++ "." ++ ending, withUnderscore (base ++ "." ++ ending)]
    forms address ++ forms (Path.join address "index")

/-- The file that an import below some directories leads to, with its path. -/
def findImport (disk : Disk) (directories : List String) : Library :=
  fun importer address =>
    let places := (Path.parent? importer).toList ++ directories
    places.findSome? fun place =>
      (importCandidates address).findSome? fun candidate =>
        let path := Path.join place candidate
        if disk.isFile path then (disk.readText? path).map fun source => (path, source) else none

/-- A compiler of style sheets: what a text at a path comes to, given what imports lead to. -/
abbrev Compiler :=
  Library → String → String → Option String

/-- Compile the file at a path; imports are also looked for in some directories. None when there
is no such text or it is at fault. -/
def compileFile?
    (compiler : Compiler)
    (disk : Disk)
    (directories : List String)
    (path : String) :
    Option String :=
  (disk.readText? path).bind fun source => compiler (findImport disk directories) path source

end Scss
end MailPress
