import MailPress.Console.Log
import MailPress.Disk.Writer
import MailPress.Project.Template
import MailPress.Scss.Compile
import MailPress.Settings.Basic
import MailPress.Style.Partition

/-!
# Compiling the styles of a template

Every template has a style sheet of its own and two resets, one for the head and
one that is inlined. A reset is taken from the template where it has one, and
else from the directory that all templates share.

A shared reset is compiled at most once; what it came to is remembered. Compiled
style sheets are written out for the page for development.
-/

namespace MailPress
namespace Style

/-- The two resets. -/
inductive Reset
  /-- The reset for the head. -/
  | head
  /-- The reset that is inlined. -/
  | inline
  deriving DecidableEq, Repr

/-- The file name of a reset. -/
def Reset.fileName (sheets : Settings.Sheets) : Reset → String
  | .head => sheets.resetHead
  | .inline => sheets.resetInline

/-- What the shared resets came to. -/
structure SharedResets where
  /-- The reset for the head. -/
  head : Option String
  /-- The reset that is inlined. -/
  inline : Option String
  /-- How many were compiled. -/
  compilations : Nat
  deriving DecidableEq, Repr, Inhabited

namespace SharedResets

/-- Nothing is compiled yet. -/
def none : SharedResets :=
  ⟨.none, .none, 0⟩

/-- What a shared reset came to. -/
def get? (shared : SharedResets) : Reset → Option String
  | .head => shared.head
  | .inline => shared.inline

/-- Remember what a shared reset came to. -/
def keep (shared : SharedResets) (reset : Reset) (css : String) : SharedResets :=
  match reset with
  | .head => { shared with head := some css }
  | .inline => { shared with inline := some css }

end SharedResets

/-- A compiled style sheet. -/
structure Compiled where
  /-- What it came to. -/
  css : String
  /-- Whether it is the template's own. -/
  isOwn : Bool
  /-- The name of the file that it is written to. -/
  fileName : String
  deriving DecidableEq, Repr

/-- The state of a compilation: the files, the shared resets, and what was said so far. -/
structure Workshop where
  /-- The files. -/
  space : Workspace
  /-- The shared resets. -/
  shared : SharedResets
  /-- What was said so far. -/
  messages : List Console.Message

/-- The directory below the output that holds the compiled shared resets. -/
def sharedDirectory : String :=
  ".common"

/-- The name of the file that a style sheet is written to. -/
def cssFileName (name : String) : String :=
  if Text.hasEnd ".scss" name then String.ofList (name.toList.take (name.length - 5)) ++ ".css"
  else name ++ ".css"

/-- Where the page for development finds a compiled style sheet. -/
def Compiled.link (compiled : Compiled) : String :=
  if compiled.isOwn then "css/" ++ compiled.fileName
  else "../" ++ sharedDirectory ++ "/" ++ compiled.fileName

/-- Whether there is anything at a path. -/
def isPresent (disk : Disk) (path : String) : Bool :=
  disk.isFile path || disk.isDirectory path

namespace Workshop

/-- Say something. -/
def say (shop : Workshop) (source text : String) : Workshop :=
  { shop with messages := shop.messages ++ [⟨source, text⟩] }

/-- Write a compiled style sheet out, if that is wanted. -/
def emit (shop : Workshop) (sheets : Settings.Sheets) (place css : String) : Workshop :=
  if !sheets.writeCss then shop
  else
    let (outcome, space) := shop.space.write place css.toUTF8
    let shop := { shop with space := space }
    match outcome with
    | .ok .written => shop.say "write" place
    | .ok .unchanged => shop
    | .error error => shop.say "error" error.message

/-- Compile a file of a template. -/
def compileOwn
    (shop : Workshop)
    (compiler : Scss.Compiler)
    (settings : Settings)
    (template : Template)
    (name : String) :
    Except BuildError Compiled × Workshop :=
  let path := Path.join template.directory name
  let fileName := cssFileName name
  match
    Scss.compileFile? compiler shop.space.disk [template.directory, settings.places.common] path
  with
  | none => (.error (.styleCompile path), shop)
  | some css =>
      (.ok ⟨css, true, fileName⟩,
        shop.emit settings.sheets (Path.join (Path.join template.name "css") fileName) css)

/-- Compile the style sheet of a template. -/
def compileMain
    (shop : Workshop)
    (compiler : Scss.Compiler)
    (settings : Settings)
    (template : Template) :
    Except BuildError Compiled × Workshop :=
  let path := Path.join template.directory settings.sheets.main
  if isPresent shop.space.disk path then
    shop.compileOwn compiler settings template settings.sheets.main
  else (.error (.sourceMissing path), shop)

/-- Compile a shared reset, unless that was done. A missing one is empty. -/
def compileShared
    (shop : Workshop)
    (compiler : Scss.Compiler)
    (settings : Settings)
    (reset : Reset) :
    Except BuildError Compiled × Workshop :=
  let name := reset.fileName settings.sheets
  let fileName := cssFileName name
  match shop.shared.get? reset with
  | some css => (.ok ⟨css, false, fileName⟩, shop)
  | none =>
      let path := Path.join settings.places.common name
      if isPresent shop.space.disk path then
        let shop := { shop with
          shared := { shop.shared with compilations := shop.shared.compilations + 1 } }
        let shop := shop.say "style" ("compiling shared " ++ name)
        match Scss.compileFile? compiler shop.space.disk [settings.places.common] path with
        | none => (.error (.styleCompile path), shop)
        | some css =>
            let shop := shop.emit settings.sheets (Path.join sharedDirectory fileName) css
            (.ok ⟨css, false, fileName⟩, { shop with shared := shop.shared.keep reset css })
      else
        let shop := shop.say "warn" ("shared reset `" ++ path ++ "` not found, using empty styles")
        (.ok ⟨"", false, fileName⟩, { shop with shared := shop.shared.keep reset "" })

/-- Compile a reset of a template. -/
def compileReset
    (shop : Workshop)
    (compiler : Scss.Compiler)
    (settings : Settings)
    (template : Template)
    (reset : Reset) :
    Except BuildError Compiled × Workshop :=
  let name := reset.fileName settings.sheets
  if isPresent shop.space.disk (Path.join template.directory name) then
    shop.compileOwn compiler settings template name
  else shop.compileShared compiler settings reset

end Workshop

/-- The styles that three compiled style sheets make up. -/
def assemble (resetHead resetInline main : Compiled) : Styles :=
  let inlined := Partition.split (Css.Sheet.read resetInline.css)
  let own := Partition.split (Css.Sheet.read main.css)
  { head := Css.minify resetHead.css ++ inlined.head.write ++ own.headCss
    inline := inlined.inlineCss ++ own.inlineCss
    links := [resetHead, resetInline, main].map Compiled.link }

/-- Compile the styles of a template. -/
def compile
    (shop : Workshop)
    (compiler : Scss.Compiler)
    (settings : Settings)
    (template : Template) :
    Except BuildError Styles × Workshop :=
  let path := Path.join template.directory settings.sheets.main
  if !isPresent shop.space.disk path then (.error (.sourceMissing path), shop)
  else
    match shop.compileReset compiler settings template .head with
    | (.error error, shop) => (.error error, shop)
    | (.ok resetHead, shop) =>
        match shop.compileReset compiler settings template .inline with
        | (.error error, shop) => (.error error, shop)
        | (.ok resetInline, shop) =>
            match shop.compileMain compiler settings template with
            | (.error error, shop) => (.error error, shop)
            | (.ok main, shop) =>
                let warnings := Partition.warnings (Css.Sheet.read main.css)
                (.ok (assemble resetHead resetInline main),
                  { shop with messages := shop.messages ++ warnings })

end Style
end MailPress
