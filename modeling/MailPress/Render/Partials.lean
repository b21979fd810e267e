import MailPress.Disk.Basic

/-!
# Partials

A partial is a piece of a template that other templates include by name. Partials
are found below search roots and named by their place there, without the ending
of the file.

Of two partials with one name, the one found first counts: an earlier root
before a later one, and within a root in the order of file names.
-/

namespace MailPress
namespace Render

/-- A registry of partials, sorted by name. -/
structure Partials where
  /-- The names with their sources. -/
  entries : List (String × String)
  deriving DecidableEq, Repr, Inhabited

namespace Partials

/-- A registry without partials. -/
def empty : Partials :=
  ⟨[]⟩

/-- The source of a partial. -/
def get? (partials : Partials) (name : String) : Option String :=
  partials.entries.lookup name

/-- Insert an entry into sorted entries, where none has its name. -/
def insertEntry (name source : String) : List (String × String) → List (String × String)
  | [] => [(name, source)]
  | entry :: entries =>
      if name < entry.1 then (name, source) :: entry :: entries
      else entry :: insertEntry name source entries

/-- Register a partial, unless its name is taken. -/
def register (partials : Partials) (name source : String) : Partials :=
  if (partials.get? name).isSome then partials else ⟨insertEntry name source partials.entries⟩

end Partials

/-- The name of a partial, given its file names below a root. -/
def partialName (names : List String) : String :=
  Path.ofComponents (names.dropLast ++ (names.getLast?.map Path.stem).toList)

/-- Whether a file is a partial by its ending. -/
def isPartialFile (endings : List String) (names : List String) : Bool :=
  (names.getLast?.bind Path.ending?).any fun ending => ending == "html" || endings.contains ending

/-- Register one file of a root; the failure names a file that is not text. -/
def registerFile
    (endings : List String)
    (root : String)
    (partials : Partials)
    (file : List String × ByteArray) :
    Except String Partials :=
  let name := partialName file.1
  if !isPartialFile endings file.1 || (partials.get? name).isSome then .ok partials
  else
    match String.fromUTF8? file.2 with
    | some source => .ok (partials.register name source)
    | none => .error (Path.join root (Path.ofComponents file.1))

/-- Register the partials below a root, if there is such a directory. -/
def registerRoot
    (disk : Disk)
    (endings : List String)
    (partials : Partials)
    (root : String) :
    Except String Partials :=
  match (disk.resolve? root).filter disk.hasDirectory with
  | none => .ok partials
  | some location => (disk.filesBelow location).foldlM (registerFile endings root) partials

/-- Find the partials below some roots; the failure names a file that is not text. -/
def Partials.load (disk : Disk) (roots endings : List String) : Except String Partials :=
  roots.foldlM (registerRoot disk endings) Partials.empty

/-- The wording of a failure to load partials. -/
def unreadablePartial (path : String) : String :=
  "failed to read partial `" ++ path ++ "`"

end Render
end MailPress
