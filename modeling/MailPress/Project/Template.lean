import MailPress.Disk.Basic

/-!
# Templates

A template is a directory with the sources of one message: its markup, its plain
text, the content that fills both, and its style sheets. Its name is that of the
directory and names what is built from it.

A directory that has markup is one template itself; any other holds one template
in each of its visible subdirectories.
-/

namespace MailPress

/-- A directory with the sources of one message. -/
structure Template where
  /-- The last component of the directory. -/
  name : String
  /-- The path of the directory. -/
  directory : String
  deriving DecidableEq, Repr, Inhabited

/-- The two sources of a message. -/
inductive Variant
  /-- The markup. -/
  | html
  /-- The plain text. -/
  | text
  deriving DecidableEq, Repr

/-- The stem of the file names of a source. -/
def Variant.stem : Variant → String
  | .html => "html"
  | .text => "text"

/-- The file names of content, in the order they are looked for. -/
def contentNames : List String :=
  ["content.json", "context.json"]

/-- The ending of a source that is expected when no endings are configured. -/
def fallbackEnding : String :=
  "tpl"

namespace Template

/-- The template in a directory. -/
def ofDirectory (directory : String) : Template :=
  ⟨(Path.fileName? directory).getD "", directory⟩

/-- The path of a source with some ending. -/
def sourcePath (template : Template) (variant : Variant) (ending : String) : String :=
  Path.join template.directory (variant.stem ++ "." ++ ending)

/-- The source that exists, the endings taken in order. -/
def source?
    (template : Template)
    (disk : Disk)
    (endings : List String)
    (variant : Variant) :
    Option String :=
  (endings.map (template.sourcePath variant)).find? disk.isFile

/-- Where a source is expected when there is none. -/
def expectedSource (template : Template) (endings : List String) (variant : Variant) : String :=
  template.sourcePath variant (endings.head?.getD fallbackEnding)

/-- The content file that exists. -/
def content? (template : Template) (disk : Disk) : Option String :=
  (contentNames.map (Path.join template.directory)).find? disk.isFile

/-- Where a built file goes, below the output directory. -/
def artifact (template : Template) (suffix : String) : String :=
  Path.join template.name (template.name ++ "." ++ suffix)

/-- The templates of a directory, by name; none when there is no such directory. -/
def discover (disk : Disk) (root : String) (endings : List String) : Option (List Template) :=
  let single := ofDirectory root
  if (single.source? disk endings .html).isSome then some [single]
  else
    ((disk.resolve? root).filter disk.hasDirectory).map fun location =>
      ((disk.directoriesIn location).filter fun name => !Text.hasStart "." name).map fun name =>
        ofDirectory (Path.join root name)

/-- The wording of a failure to find templates. -/
def unreadableDirectory (root : String) : String :=
  "failed to read templates directory `" ++ root ++ "`"

end Template
end MailPress
