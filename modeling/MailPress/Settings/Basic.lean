import MailPress.Disk.Basic

/-!
# Settings

What a project may choose: where its files are, how templates are rendered, the
names of its style sheets, what is done to the finished markup, and how image
sizes are found. Every choice has a default.

Directories are paths below the project root until they are resolved against it.
-/

namespace MailPress

/-- The two ways to render a template. -/
inductive Engine
  /-- A template language with expressions and control flow. -/
  | jinja
  /-- Plain substitution of values and partials. -/
  | substitution
  deriving DecidableEq, Repr, Inhabited

/-- The name of an engine in settings. -/
def Engine.name : Engine → String
  | .jinja => "jinja"
  | .substitution => "substitution"

/-- The engine with a name. -/
def Engine.ofName? (name : String) : Option Engine :=
  [Engine.jinja, Engine.substitution].find? fun engine => engine.name = name

namespace Settings

/-- The places of a project. -/
structure Places where
  /-- The project root, where one is given. -/
  root : Option String := none
  /-- Where the templates are. -/
  templates : String := "templates"
  /-- Where built files go. -/
  output : String := "build"
  /-- Where the shared style sheets are. -/
  common : String := "common"
  /-- Where caches are kept. -/
  cache : String := "cache"
  /-- The document type of every built page. -/
  doctype : String :=
    "<!DOCTYPE html PUBLIC \"-//W3C//DTD HTML 4.01 Transitional//EN\" " ++
      "\"http://www.w3.org/TR/html4/loose.dtd\">"
  deriving DecidableEq, Repr, Inhabited

/-- How templates are rendered. -/
structure Rendering where
  /-- The engine that renders sources. -/
  engine : Engine := .jinja
  /-- The endings of sources and partials, in the order they are looked for. -/
  endings : List String := ["tpl", "njk", "jinja", "hbs"]
  /-- The directories of partials. -/
  components : List String := ["components"]
  /-- Whether content is formatted as Markdown for the markup. -/
  markdown : Bool := true
  /-- Whether the plain text is derived from the markup where it has no source. -/
  textFromHtml : Bool := false
  deriving DecidableEq, Repr, Inhabited

/-- The names of the style sheets. -/
structure Sheets where
  /-- The style sheet that every template has. -/
  main : String := "style.scss"
  /-- The reset for the head. -/
  resetHead : String := "reset-head.scss"
  /-- The reset that is inlined. -/
  resetInline : String := "reset-inline.scss"
  /-- Whether compiled style sheets are written out. -/
  writeCss : Bool := true
  deriving DecidableEq, Repr, Inhabited

/-- What is done to the finished markup. -/
structure Finish where
  /-- Whether markup is minified. -/
  minify : Bool := true
  /-- Whether meta tags are added to the head. -/
  metaTags : Bool := true
  /-- The target of links that have none. -/
  linkTarget : Option String := some "_blank"
  /-- Whether empty cells are filled. -/
  emptyCell : Bool := true
  /-- The elements whose sizes become attributes. -/
  sizeAttributes : List String := ["table", "td", "th", "img"]
  /-- Whether selectors that match nothing are removed. -/
  removeUnusedCss : Bool := false
  /-- The parts of selectors that are never removed. -/
  whitelist : List String :=
    [".ExternalClass", ".ReadMsgBody", ".yshortcuts", ".apple-link", "#outlook",
      "#MessageViewBody", "u + .body", "[x-apple-data-detectors]", "[data-ogsc]"]
  deriving DecidableEq, Repr, Inhabited

/-- How the sizes of images are found. -/
structure Images where
  /-- Whether sizes are looked for. -/
  enable : Bool := true
  /-- The name of the cache file. -/
  cacheFile : String := "images.json"
  /-- The time limit of a request, in seconds. -/
  timeoutSecs : Nat := 10
  /-- How many sizes are looked for at once. -/
  maxConcurrent : Nat := 8
  /-- Whether local images are copied to the output. -/
  copyLocal : Bool := true
  deriving DecidableEq, Repr, Inhabited

end Settings

/-- The settings of a project. -/
structure Settings where
  /-- The path of the settings file, once resolved. -/
  path : String := ""
  /-- The places of the project. -/
  places : Settings.Places := {}
  /-- How templates are rendered. -/
  rendering : Settings.Rendering := {}
  /-- The names of the style sheets. -/
  sheets : Settings.Sheets := {}
  /-- What is done to the finished markup. -/
  finish : Settings.Finish := {}
  /-- How the sizes of images are found. -/
  images : Settings.Images := {}
  deriving DecidableEq, Repr, Inhabited

namespace Settings

/-- The name of the settings file. -/
def fileName : String :=
  "mailkiln.toml"

/-- The root of a project that names none. -/
def defaultRoot : String :=
  "./"

/-- The root of the project. -/
def root (settings : Settings) : String :=
  settings.places.root.getD defaultRoot

/-- The path of the image cache. -/
def imageCache (settings : Settings) : String :=
  Path.join settings.places.cache settings.images.cacheFile

/-- The absolute form of a path: where it leads when something is there, else the path below the
working directory. -/
def absolute (disk : Disk) (path : String) : String :=
  match (disk.resolve? path).filter fun location =>
      disk.hasDirectory location || disk.hasFile location with
  | some location => "/" ++ Path.ofComponents location
  | none => Path.join ("/" ++ Path.ofComponents disk.workingDirectory) path

/-- Resolve every directory against a root. -/
def resolve (settings : Settings) (disk : Disk) (root fileName : String) : Settings :=
  let root := absolute disk root
  let below := fun path => absolute disk (Path.join root path)
  let places := settings.places
  { settings with
    path := below fileName
    places := { places with
      root := some root
      templates := below places.templates
      output := below places.output
      common := below places.common
      cache := below places.cache }
    rendering := { settings.rendering with
      components := settings.rendering.components.map below } }

end Settings
end MailPress
