import MailPress.Image.Sizer
import MailPress.Markdown.Writer
import MailPress.Page.Assembly
import MailPress.Render.Message
import MailPress.Style.Compilation

/-!
# Building templates

A build renders each template, compiles its styles, finds the sizes of its images
and writes three files: the page for production, the page for development, and the
plain text. A template that fails is counted, and the others are built all the same.

What templates share is kept in a session: the files, the compiled shared resets,
and what is known about images.

Style sheets, templates with expressions, Markdown and the markup that is made small
are left to engines. A selector that has no answer at some element ends the program,
and with it the builds of all templates.
-/

namespace MailPress

/-- What a build leaves to others. -/
structure Engines where
  /-- The compiler of style sheets. -/
  scss : Scss.Compiler
  /-- The engine of templates with expressions. -/
  jinja : Render.SourceEngine
  /-- The writer of Markdown. -/
  markdown : String → String
  /-- What makes markup small. -/
  compact : String → String

/-- The engines of this library. -/
def Engines.own : Engines where
  scss := Scss.compile?
  jinja := Render.jinja
  markdown := Markdown.write
  compact := Compact.compactPage

/-- What the templates of a build share. -/
structure Session where
  /-- The engines. -/
  engines : Engines
  /-- The settings. -/
  settings : Settings
  /-- The renderer with its partials. -/
  renderer : Render.Renderer
  /-- The files, and what was written. -/
  space : Workspace
  /-- The compiled shared resets. -/
  shared : Style.SharedResets
  /-- What is known about images. -/
  sizer : Image.Sizer
  /-- What was said so far. -/
  messages : List Console.Message

/-- Why a build cannot begin. -/
inductive StartFault
  /-- A partial is not text. -/
  | unreadablePartial (path : String)
  /-- A partial is not understood. -/
  | partialError (error : BuildError)
  deriving DecidableEq, Repr

/-- The wording of a fault at the beginning. -/
def StartFault.message : StartFault → String
  | .unreadablePartial path => Render.unreadablePartial path
  | .partialError error => error.message

/-- What the pages of a template are made of. -/
structure Parts where
  /-- The rendered message. -/
  message : Render.Message
  /-- The markup of the message. -/
  document : Markup.Document
  /-- The styles. -/
  styles : Styles
  /-- What was found about images. -/
  resolved : Image.Resolved

/-- What is built of a template. -/
structure Artifacts where
  /-- The page for production. -/
  production : String
  /-- The page for development. -/
  development : String
  /-- The plain text. -/
  text : String
  /-- The warnings about images. -/
  warnings : List String
  deriving DecidableEq, Repr, Inhabited

/-- What became of a template: what was built, and how many of its files were written. -/
structure Built where
  /-- What was built. -/
  artifacts : Artifacts
  /-- How many files were written, the others being as they should be already. -/
  written : Nat
  deriving DecidableEq, Repr, Inhabited

/-- How many templates were built, and how many failed. -/
structure Summary where
  /-- How many were built. -/
  built : Nat
  /-- How many failed. -/
  failed : Nat
  deriving DecidableEq, Repr, Inhabited

namespace Parts

/-- The pages and the text. -/
def artifacts (parts : Parts) (compact : String → String) (settings : Settings) : Artifacts where
  production := Page.productionWith compact settings parts.document parts.styles parts.resolved
  development := Page.development settings parts.document parts.styles parts.resolved
  text := Text.normalize parts.message.text
  warnings := parts.resolved.warnings

/-- What is said when the pages are made. -/
def messages (parts : Parts) : List Console.Message :=
  Style.inlineWarnings parts.styles.inline

/-- Whether making the pages ends the program. -/
def stops (parts : Parts) (settings : Settings) : Bool :=
  Page.productionStops settings.finish parts.document parts.styles parts.resolved

end Parts

namespace Session

/-- Begin a build: load the partials and the image cache. -/
def start (engines : Engines) (disk : Disk) (settings : Settings) : Except StartFault Session :=
  let rendering := settings.rendering
  match Render.Partials.load disk rendering.components rendering.endings with
  | .error path => .error (.unreadablePartial path)
  | .ok partials =>
      match Render.Renderer.create engines.jinja rendering.engine partials with
      | .error error => .error (.partialError error)
      | .ok renderer =>
          let count := partials.entries.length
          .ok
            { engines := engines
              settings := settings
              renderer := renderer
              space := ⟨disk, Writer.new settings.places.output⟩
              shared := .none
              sizer := .start disk settings.imageCache settings.images.copyLocal
              messages :=
                if count = 0 then []
                else [⟨"build", "loaded " ++ toString count ++ " partials"⟩] }

/-- Say something. -/
def say (session : Session) (messages : List Console.Message) : Session :=
  { session with messages := session.messages ++ messages }

/-- Compile the styles of a template. -/
def compileStyles (session : Session) (template : Template) :
    Except BuildError Styles × Session :=
  let (styles, shop) :=
    Style.compile ⟨session.space, session.shared, []⟩ session.engines.scss session.settings template
  (styles, { session with space := shop.space, shared := shop.shared }.say shop.messages)

/-- Find the sizes of the images of a document, if that is wanted. -/
def resolveImages
    (session : Session)
    (network : Image.Network)
    (template : Template)
    (document : Markup.Document) :
    Image.Resolved × Session :=
  if !session.settings.images.enable then (.none, session)
  else
    let (resolved, sizer, space) :=
      Image.resolve network session.sizer session.space document template
    let warnings := resolved.warnings.map fun warning =>
      (⟨"warn", template.name ++ ": " ++ warning⟩ : Console.Message)
    (resolved, { session with sizer := sizer, space := space }.say warnings)

/-- Render a template, compile its styles and find the sizes of its images. Of two errors the one
about rendering counts. -/
def gather (session : Session) (network : Image.Network) (template : Template) :
    Except BuildError Parts × Session :=
  let rendered :=
    Render.renderMessage session.engines.markdown session.renderer session.space.disk
      session.settings.rendering template
  let (compiled, session) := session.compileStyles template
  match rendered, compiled with
  | .error error, _ => (.error error, session)
  | _, .error error => (.error error, session)
  | .ok message, .ok styles =>
      match Markup.Document.read message.html with
      | .error error => (.error (.markup error), session)
      | .ok document =>
          let (resolved, session) := session.resolveImages network template document
          (.ok ⟨message, document, styles, resolved⟩, session)

/-- Make the pages of a template, without writing them. -/
def assemble (session : Session) (network : Image.Network) (template : Template) :
    Except BuildError Artifacts × Session :=
  match session.gather network template with
  | (.error error, session) => (.error error, session)
  | (.ok parts, session) =>
      (.ok (parts.artifacts session.engines.compact session.settings),
        session.say parts.messages)

/-- Write files of a template, given by their endings; the count of the written ones is added to
the given one. The first failure ends the writing. -/
def writeFiles (template : Template) :
    (written : Nat) → List (String × String) → Session → Except BuildError Nat × Session
  | written, [], session => (.ok written, session)
  | written, (ending, content) :: rest, session =>
      let place := template.artifact ending
      let (outcome, space) := session.space.write place content.toUTF8
      let session := { session with space := space }
      match outcome with
      | .error error => (.error error, session)
      | .ok .unchanged => writeFiles template written rest session
      | .ok .written =>
          writeFiles template (written + 1) rest (session.say [⟨"write", place⟩])

/-- Build a template and write its files. -/
def build (session : Session) (network : Image.Network) (template : Template) :
    Except BuildError Built × Session :=
  match session.assemble network template with
  | (.error error, session) => (.error error, session)
  | (.ok artifacts, session) =>
      let files :=
        [("html", artifacts.production), ("dev.html", artifacts.development),
          ("txt", artifacts.text)]
      match writeFiles template 0 files session with
      | (.error error, session) => (.error error, session)
      | (.ok written, session) => (.ok ⟨artifacts, written⟩, session)

/-- Whether building a template ends the program. -/
def stops (session : Session) (network : Image.Network) (template : Template) : Bool :=
  match session.gather network template with
  | (.error _, _) => false
  | (.ok parts, session) => parts.stops session.settings

/-- What comes of building a template; none when that ends the program. -/
def build? (session : Session) (network : Image.Network) (template : Template) :
    Option (Except BuildError Built × Session) :=
  if session.stops network template then none else some (session.build network template)

/-- Count one more template. -/
def tally (summary : Summary) (template : Template) :
    Except BuildError Built × Session → Summary × Session
  | (.ok _, session) => ({ summary with built := summary.built + 1 }, session)
  | (.error error, session) =>
      ({ summary with failed := summary.failed + 1 },
        session.say [⟨"error", template.name ++ ": " ++ error.message⟩])

/-- Build one more template. -/
def step? (network : Image.Network) (state : Summary × Session) (template : Template) :
    Option (Summary × Session) :=
  (state.2.build? network template).map (tally state.1 template)

/-- Build templates one after another; none when one of them ends the program. -/
def buildAll? (session : Session) (network : Image.Network) (templates : List Template) :
    Option (Summary × Session) :=
  let announced :=
    session.say [⟨"build", "building " ++ toString templates.length ++ " templates"⟩]
  templates.foldlM (step? network) (⟨0, 0⟩, announced)

end Session
end MailPress
