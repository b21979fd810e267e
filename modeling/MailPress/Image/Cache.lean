import MailPress.Disk.Basic
import MailPress.Image.Header
import MailPress.Json.Reader

/-!
# The cache of image sizes

Sizes that were found once are kept in a file, by the source of the image. The
file holds one object of sizes; a file that holds anything else counts as empty.

A new size goes into the memory and into the file at once, so both hold the same.
-/

namespace MailPress
namespace Image

/-- Set the size of a source, the sources sorted. -/
def putSize (source : String) (size : Size) : List (String × Size) → List (String × Size)
  | [] => [(source, size)]
  | entry :: entries =>
      if source < entry.1 then (source, size) :: entry :: entries
      else if source = entry.1 then (source, size) :: entries
      else entry :: putSize source size entries

/-- The length that a value denotes: an integer of at most 32 bits. -/
def readLength : Json → Option Nat
  | .int value => if 0 ≤ value ∧ value < 0x100000000 then some value.toNat else none
  | _ => none

/-- The only value with a key. -/
def onlyMember? (key : String) (members : List (String × Json)) : Option Json :=
  match members.filter fun member => member.1 == key with
  | [member] => some member.2
  | _ => none

/-- The size that a value denotes: an object with both lengths, or a list of the two. -/
def readSize : Json → Option Size
  | .obj members => do
      let width ← (onlyMember? "width" members).bind readLength
      let height ← (onlyMember? "height" members).bind readLength
      some ⟨width, height⟩
  | .arr [width, height] => do
      let width ← readLength width
      let height ← readLength height
      some ⟨width, height⟩
  | _ => none

/-- The sizes in a cache file. -/
def readSizes? (text : String) : Option (List (String × Size)) :=
  match Json.readAsWritten? text with
  | some (.obj members) =>
      members.foldlM (fun sizes member =>
        (readSize member.2).map fun size => putSize member.1 size sizes) []
  | _ => none

/-- The sizes in the cache file at a path; none in a file that cannot be read. -/
def sizesAt (disk : Disk) (path : String) : List (String × Size) :=
  ((disk.readText? path).bind readSizes?).getD []

/-- The text of a cache file. -/
def writeSizes (sizes : List (String × Size)) : String :=
  Json.writeLines 0 (.obj (sizes.map fun entry =>
    (entry.1, .obj [("width", .int entry.2.width), ("height", .int entry.2.height)])))

/-- The sizes that are known, with the file that keeps them. -/
structure Cache where
  /-- The path of the cache file. -/
  path : String
  /-- The sizes by source, sorted. -/
  sizes : List (String × Size)
  deriving DecidableEq, Repr, Inhabited

namespace Cache

/-- The cache in a file. -/
def load (disk : Disk) (path : String) : Cache :=
  ⟨path, sizesAt disk path⟩

/-- The size of a source. -/
def get? (cache : Cache) (source : String) : Option Size :=
  cache.sizes.lookup source

/-- Add a size to the file; the disk stays as it is when the file cannot be written. -/
def save (cache : Cache) (disk : Disk) (source : String) (size : Size) : Disk :=
  let text := writeSizes (putSize source size (sizesAt disk cache.path))
  let ready := ((Path.parent? cache.path).bind disk.makeDirectory?).getD disk
  (ready.write? cache.path text.toUTF8).getD ready

/-- Remember a size, in memory and in the file. -/
def record (cache : Cache) (disk : Disk) (source : String) (size : Size) : Cache × Disk :=
  ({ cache with sizes := putSize source size cache.sizes }, cache.save disk source size)

end Cache
end Image
end MailPress
