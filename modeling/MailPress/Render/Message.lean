import MailPress.Json.Reader
import MailPress.Markdown.Format
import MailPress.Page.PlainText
import MailPress.Project.Template
import MailPress.Render.Renderer

/-!
# Rendered messages

A template rendered with its content: the markup, which sees content formatted by some
writer of Markdown, and the plain text, which sees the content as it stands. Where there
is no source for the plain text it may be taken from the markup.
-/

namespace MailPress
namespace Render

/-- The two parts of a message. -/
structure Message where
  /-- The markup. -/
  html : String
  /-- The plain text. -/
  text : String
  deriving DecidableEq, Repr, Inhabited

/-- The content of a template; where there is none, or a blank file, it is empty. -/
def loadContent (disk : Disk) (template : Template) : Except BuildError Json :=
  match template.content? disk with
  | none => .ok (.obj [])
  | some path =>
      match disk.readText? path with
      | none => .error (.sourceMissing path)
      | some content =>
          if content.toList.all Text.isBlank then .ok (.obj [])
          else
            match Json.read? content with
            | some value => .ok value
            | none => .error (.malformedContent path)

/-- The name of a source in errors. -/
def sourceName (template : Template) (path : String) : String :=
  template.name ++ "/" ++ (Path.fileName? path).getD ""

/-- Render the source of a template at a path. -/
def renderSource
    (renderer : Renderer)
    (disk : Disk)
    (template : Template)
    (path : String)
    (content : Json) :
    Except BuildError String :=
  match disk.readText? path with
  | none => .error (.sourceMissing path)
  | some source => renderer.render (sourceName template path) source content

/-- Render a template with some content. -/
def renderContent
    (markdown : String → String)
    (renderer : Renderer)
    (disk : Disk)
    (rendering : Settings.Rendering)
    (template : Template)
    (content : Json) :
    Except BuildError Message := do
  let missing := fun variant =>
    BuildError.sourceMissing (template.expectedSource rendering.endings variant)
  match template.source? disk rendering.endings .html with
  | none => .error (missing .html)
  | some path =>
      let formatted := if rendering.markdown then Markdown.format markdown content else content
      let html ← renderSource renderer disk template path formatted
      match template.source? disk rendering.endings .text with
      | some path =>
          let text ← renderSource renderer disk template path content
          .ok ⟨html, text⟩
      | none =>
          if rendering.textFromHtml then
            match Page.plainText html with
            | .ok text => .ok ⟨html, text⟩
            | .error error => .error (.markup error)
          else .error (missing .text)

/-- Render a template with its content. -/
def renderMessage
    (markdown : String → String)
    (renderer : Renderer)
    (disk : Disk)
    (rendering : Settings.Rendering)
    (template : Template) :
    Except BuildError Message := do
  let content ← loadContent disk template
  renderContent markdown renderer disk rendering template content

end Render
end MailPress
