import MailPress.Disk.Path

/-!
# The disk

A disk holds files and directories, each at a location: the list of names that
lead to it from the top. Reading and writing take paths, which are resolved to
locations first.

A path may step up only out of a directory that exists.

A file may be closed to its writer: it can be written, and looking into it before it is
written fails.
-/

namespace MailPress

/-- The files and directories that a program sees. -/
structure Disk where
  /-- The files with their contents. -/
  files : List (List String × ByteArray)
  /-- The directories, the top excepted. -/
  directories : List (List String)
  /-- The location that paths start from which are not absolute. -/
  workingDirectory : List String
  /-- The locations of files that cannot be looked into before they are written. -/
  closed : List (List String) := []

namespace Disk

/-- A disk without files. -/
def empty : Disk where
  files := []
  directories := []
  workingDirectory := []

instance : Inhabited Disk := ⟨empty⟩

/-- Whether there is a directory at a location. -/
def hasDirectory (disk : Disk) (location : List String) : Bool :=
  location.isEmpty || disk.directories.contains location

/-- The content of the file at a location. -/
def content? (disk : Disk) (location : List String) : Option ByteArray :=
  disk.files.lookup location

/-- Whether there is a file at a location. -/
def hasFile (disk : Disk) (location : List String) : Bool :=
  (disk.content? location).isSome

/-- Take one part of a path; `location` is where the parts before it lead. -/
def step (disk : Disk) (location : List String) (part : String) : Option (List String) :=
  if part.isEmpty || part = "." then
    if disk.hasDirectory location then some location else none
  else if part = ".." then
    if disk.hasDirectory location then some location.dropLast else none
  else some (location ++ [part])

/-- The location that a path leads to. -/
def resolve? (disk : Disk) (path : String) : Option (List String) :=
  let start := if Path.isAbsolute path then [] else disk.workingDirectory
  if path.isEmpty then none else (Path.parts path).foldlM disk.step start

/-- Whether a path leads to a file. -/
def isFile (disk : Disk) (path : String) : Bool :=
  (disk.resolve? path).any disk.hasFile

/-- Whether a path leads to a directory. -/
def isDirectory (disk : Disk) (path : String) : Bool :=
  (disk.resolve? path).any disk.hasDirectory

/-- The content of the file that a path leads to. -/
def read? (disk : Disk) (path : String) : Option ByteArray :=
  (disk.resolve? path).bind disk.content?

/-- What a look into the file that a path leads to shows, before the file is written. -/
def look? (disk : Disk) (path : String) : Option ByteArray :=
  (disk.resolve? path).bind fun location =>
    if disk.closed.contains location then none else disk.content? location

/-- The text of the file that a path leads to, when it is UTF-8. -/
def readText? (disk : Disk) (path : String) : Option String :=
  (disk.read? path).bind String.fromUTF8?

/-- Whether one list of names comes before another, or is the same. -/
def namesLe : List String → List String → Bool
  | [], _ => true
  | _ :: _, [] => false
  | first :: firsts, second :: seconds =>
      if first = second then namesLe firsts seconds else first < second

/-- What is left of a location below a directory. -/
def below? : (directory location : List String) → Option (List String)
  | [], [] => none
  | [], rest => some rest
  | _ :: _, [] => none
  | name :: names, other :: others => if name = other then below? names others else none

/-- The files below a location, each with its names from there, in the order of a walk
that takes names in order. -/
def filesBelow (disk : Disk) (location : List String) : List (List String × ByteArray) :=
  (disk.files.filterMap fun file =>
    (below? location file.1).map fun names => (names, file.2)).mergeSort
      fun first second => namesLe first.1 second.1

/-- The names of the directories directly below a location, in order. -/
def directoriesIn (disk : Disk) (location : List String) : List String :=
  (disk.directories.filterMap fun directory =>
    match below? location directory with
    | some [name] => some name
    | _ => none).mergeSort fun first second => first ≤ second

/-- Replace or add the content at a location. -/
def putContent
    (location : List String)
    (content : ByteArray) :
    List (List String × ByteArray) → List (List String × ByteArray)
  | [] => [(location, content)]
  | file :: files =>
      if file.1 = location then (location, content) :: files
      else file :: putContent location content files

/-- Make a directory at a location whose parent exists. -/
def addDirectory (disk : Disk) (location : List String) : Disk :=
  if disk.hasDirectory location then disk
  else { disk with directories := disk.directories ++ [location] }

/-- Follow path parts, making the directories that are missing. -/
def makeParts (disk : Disk) (location : List String) : List String → Option (Disk × List String)
  | [] => some (disk, location)
  | part :: parts =>
      if part.isEmpty || part = "." then makeParts disk location parts
      else if part = ".." then makeParts disk location.dropLast parts
      else
        let next := location ++ [part]
        if disk.hasFile next then none else makeParts (disk.addDirectory next) next parts

/-- Make the directory that a path names, with its parents; none where a file is in the way. -/
def makeDirectory? (disk : Disk) (path : String) : Option Disk :=
  let start := if Path.isAbsolute path then [] else disk.workingDirectory
  (disk.makeParts start (Path.parts path)).map Prod.fst

/-- Write a file whose directory exists; none where that is not so or a directory is there. -/
def write? (disk : Disk) (path : String) (content : ByteArray) : Option Disk :=
  match disk.resolve? path with
  | none => none
  | some location =>
      if disk.hasDirectory location || !disk.hasDirectory location.dropLast then none
      else some { disk with files := putContent location content disk.files }

/-- Put a file on the disk, its directories made. -/
def put (disk : Disk) (path : String) (content : ByteArray) : Disk :=
  let made := (disk.makeDirectory? ((Path.parent? path).getD "/")).getD disk
  (made.write? path content).getD made

end Disk
end MailPress
