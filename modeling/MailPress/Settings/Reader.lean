import MailPress.Settings.Basic
import MailPress.Toml.Reader

/-!
# Reading settings

Settings are read from a TOML document with one table for each group. A name
that is not a setting, or a value of the wrong kind, makes the whole document
unusable, so a slip of the pen is never ignored.

A group may also be written as an array of its first values, in their order.
-/

namespace MailPress
namespace Settings

/-- Read a group: its values by name, or the first of them in order. -/
def readGroup
    (names : List String)
    (set : α → String → Toml.Value → Option α)
    (start : α) :
    Toml.Value → Option α
  | .table _ entries => entries.foldlM (fun group entry => set group entry.1 entry.2) start
  | .array elements =>
      (names.zip elements).foldlM (fun group entry => set group entry.1 entry.2) start
  | _ => none

/-- Set one of the places. -/
def Places.set (places : Places) (name : String) (value : Toml.Value) : Option Places :=
  match name with
  | "root" => value.text?.map fun path => { places with root := some path }
  | "templates" => value.text?.map fun path => { places with templates := path }
  | "output" => value.text?.map fun path => { places with output := path }
  | "common" => value.text?.map fun path => { places with common := path }
  | "cache" => value.text?.map fun path => { places with cache := path }
  | "doctype" => value.text?.map fun doctype => { places with doctype := doctype }
  | _ => none

/-- Set one of the choices about rendering. -/
def Rendering.set
    (rendering : Rendering)
    (name : String)
    (value : Toml.Value) :
    Option Rendering :=
  match name with
  | "engine" =>
      (value.text?.bind Engine.ofName?).map fun engine => { rendering with engine := engine }
  | "extensions" => value.texts?.map fun endings => { rendering with endings := endings }
  | "components" => value.texts?.map fun roots => { rendering with components := roots }
  | "markdown" => value.boolean?.map fun flag => { rendering with markdown := flag }
  | "text_from_html" => value.boolean?.map fun flag => { rendering with textFromHtml := flag }
  | _ => none

/-- Set one of the names of style sheets. -/
def Sheets.set (sheets : Sheets) (name : String) (value : Toml.Value) : Option Sheets :=
  match name with
  | "main" => value.text?.map fun file => { sheets with main := file }
  | "reset_head" => value.text?.map fun file => { sheets with resetHead := file }
  | "reset_inline" => value.text?.map fun file => { sheets with resetInline := file }
  | "write_css" => value.boolean?.map fun flag => { sheets with writeCss := flag }
  | _ => none

/-- Set one of the choices about finished markup. -/
def Finish.set (finish : Finish) (name : String) (value : Toml.Value) : Option Finish :=
  match name with
  | "minify" => value.boolean?.map fun flag => { finish with minify := flag }
  | "meta_tags" => value.boolean?.map fun flag => { finish with metaTags := flag }
  | "link_target" => value.text?.map fun target => { finish with linkTarget := some target }
  | "empty_cell" => value.boolean?.map fun flag => { finish with emptyCell := flag }
  | "size_attributes" => value.texts?.map fun names => { finish with sizeAttributes := names }
  | "remove_unused_css" => value.boolean?.map fun flag => { finish with removeUnusedCss := flag }
  | "whitelist" => value.texts?.map fun parts => { finish with whitelist := parts }
  | _ => none

/-- Set one of the choices about images. -/
def Images.set (images : Images) (name : String) (value : Toml.Value) : Option Images :=
  match name with
  | "enable" => value.boolean?.map fun flag => { images with enable := flag }
  | "cache_file" => value.text?.map fun file => { images with cacheFile := file }
  | "timeout_secs" => value.natural?.map fun seconds => { images with timeoutSecs := seconds }
  | "max_concurrent" => value.natural?.map fun count => { images with maxConcurrent := count }
  | "copy_local" => value.boolean?.map fun flag => { images with copyLocal := flag }
  | _ => none

/-- Read one group of settings. -/
def set (settings : Settings) (name : String) (value : Toml.Value) : Option Settings :=
  match name with
  | "build" =>
      (readGroup ["root", "templates", "output", "common", "cache", "doctype"]
        Places.set {} value).map fun places => { settings with places := places }
  | "render" =>
      (readGroup ["engine", "extensions", "components", "markdown", "text_from_html"]
        Rendering.set {} value).map fun rendering => { settings with rendering := rendering }
  | "styles" =>
      (readGroup ["main", "reset_head", "reset_inline", "write_css"]
        Sheets.set {} value).map fun sheets => { settings with sheets := sheets }
  | "html" =>
      (readGroup ["minify", "meta_tags", "link_target", "empty_cell", "size_attributes",
        "remove_unused_css", "whitelist"]
        Finish.set {} value).map fun finish => { settings with finish := finish }
  | "images" =>
      (readGroup ["enable", "cache_file", "timeout_secs", "max_concurrent", "copy_local"]
        Images.set {} value).map fun images => { settings with images := images }
  | _ => none

/-- Read settings; none where the document is not well formed or names what is no setting. -/
def read? (text : String) : Option Settings :=
  (Toml.read? text).bind fun entries =>
    entries.foldlM (fun settings entry => set settings entry.1 entry.2) {}

/-- Why there are no usable settings. -/
inductive Fault
  /-- The file cannot be read as text. -/
  | unreadable (path : String)
  /-- The file does not hold settings. -/
  | malformed
  /-- A setting has a value that cannot be used. -/
  | unusable (name reason : String)
  /-- A setting should name a directory. -/
  | noDirectory (name path : String)
  deriving DecidableEq, Repr

/-- The wording of a fault. -/
def Fault.message : Fault → String
  | .unreadable path => "cannot read config `" ++ path ++ "`"
  | .malformed => "config syntax error"
  | .unusable name reason => "[" ++ name ++ "] " ++ reason
  | .noDirectory name path => "[" ++ name ++ "] `" ++ path ++ "` is not a directory"

/-- Read settings from a text. -/
def ofText (text : String) : Except Fault Settings :=
  match read? text with
  | some settings => .ok settings
  | none => .error .malformed

/-- Read settings from a file. -/
def ofFile (disk : Disk) (path : String) : Except Fault Settings :=
  match disk.readText? path with
  | some text => ofText text
  | none => .error (.unreadable path)

/-- Whether a text is a document type declaration. -/
def isDoctype (text : String) : Bool :=
  Text.hasStart "<!doctype" (Text.lower (String.ofList (Text.trimStart text.toList)))

/-- The first fault of some settings, if any. -/
def fault? (settings : Settings) (disk : Disk) : Option Fault :=
  if !isDoctype settings.places.doctype then
    some (.unusable "build.doctype" "must be a `<!DOCTYPE ...>` declaration")
  else if settings.rendering.endings.isEmpty then
    some (.unusable "render.extensions" "must have at least one element")
  else if settings.images.timeoutSecs = 0 then
    some (.unusable "images.timeout_secs" "must be greater than zero")
  else if settings.images.maxConcurrent = 0 then
    some (.unusable "images.max_concurrent" "must be greater than zero")
  else if !disk.isDirectory settings.places.templates then
    some (.noDirectory "build.templates" settings.places.templates)
  else none

end Settings
end MailPress
