import MailPress.Disk.Basic
import MailPress.Error

/-!
# Writing output

A writer puts files below one directory and leaves alone those that already hold
what they should. For each path it remembers what it wrote last, and for a path
that it has not seen it looks at the file on the disk. When it cannot look, it writes.

Paths with the same components share one memory.
-/

namespace MailPress

/-- What became of a file that was to be written. -/
inductive Outcome
  /-- The file was written. -/
  | written
  /-- The file was found to hold the content already. -/
  | unchanged
  deriving DecidableEq, Repr

/-- The memory of what was written below an output directory. -/
structure Writer where
  /-- The output directory. -/
  root : String
  /-- The paths written so far, by their components, with their contents. -/
  known : List (List String × ByteArray)
  deriving Inhabited

namespace Writer

/-- A writer that has written nothing. -/
def new (root : String) : Writer :=
  ⟨root, []⟩

/-- What the writer remembers of a path. -/
def remembered? (writer : Writer) (path : String) : Option ByteArray :=
  writer.known.lookup (Path.components path)

/-- Remember the content of a path. -/
def remember (writer : Writer) (path : String) (content : ByteArray) : Writer :=
  let names := Path.components path
  { writer with known := (names, content) :: writer.known.filter fun entry => entry.1 != names }

end Writer

/-- The disk together with the memory of what was written to it. -/
structure Workspace where
  /-- The disk. -/
  disk : Disk
  /-- The memory of the writer. -/
  writer : Writer
  deriving Inhabited

namespace Workspace

/-- Put content at a path, making its parent directories, and remember it. -/
def store (space : Workspace) (path : String) (content : ByteArray) :
    Except BuildError Outcome × Workspace :=
  let parent := Path.parent? path
  match parent.elim (some space.disk) space.disk.makeDirectory? with
  | none => (.error (.write (parent.getD "")), space)
  | some ready =>
      match ready.write? path content with
      | none => (.error (.write path), { space with disk := ready })
      | some done => (.ok .written, ⟨done, space.writer.remember path content⟩)

/-- Write content to a place below the output directory, unless it is known to be there. -/
def write (space : Workspace) (place : String) (content : ByteArray) :
    Except BuildError Outcome × Workspace :=
  let path := Path.join space.writer.root place
  match space.writer.remembered? path with
  | some old => if old == content then (.ok .unchanged, space) else space.store path content
  | none =>
      if space.disk.look? path == some content then
        (.ok .unchanged, { space with writer := space.writer.remember path content })
      else space.store path content

/-- Copy a file to a place below the output directory. -/
def copy (space : Workspace) (source place : String) : Except BuildError Outcome × Workspace :=
  match space.disk.read? source with
  | none => (.error (.sourceMissing source), space)
  | some content => space.write place content

end Workspace
end MailPress
