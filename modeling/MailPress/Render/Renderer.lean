import MailPress.Jinja.Evaluate
import MailPress.Render.Substitution
import MailPress.Settings.Basic

/-!
# Renderers

A renderer turns a source and data into text. There is one for each engine, and
each is made from the partials that sources may include.

The engine with expressions is given. It reads its partials at once, so one that it
does not understand is a fault even if nothing includes it.
-/

namespace MailPress
namespace Render

/-- What renders a source with some content; the name stands for the source in errors. -/
abbrev Rendering :=
  String → String → Json → Except BuildError String

/-- An engine: what renders sources that include some partials. -/
abbrev SourceEngine :=
  Partials → Except BuildError Rendering

/-- A renderer with its partials. -/
inductive Renderer
  /-- The renderer that substitutes values. -/
  | substitution (partials : Partials)
  /-- The renderer with expressions and control flow, which has read its partials. -/
  | jinja (rendering : Rendering)

/-- What is wrong with a source that is not understood. -/
def unreadableSource : RenderFault :=
  .template "the source is not a template"

/-- What is wrong with a source whose rendering fails. -/
def failedRendering : RenderFault :=
  .template "the template asks for something that has no result"

/-- Read a partial. -/
def readPartial (entry : String × String) : Except BuildError (String × List Jinja.Node) :=
  match Jinja.readTemplate? entry.2 with
  | some nodes => .ok (entry.1, nodes)
  | none => .error (.render entry.1 unreadableSource)

/-- Render a source whose partials have been read. -/
def renderJinja (templates : List (String × List Jinja.Node)) : Rendering :=
  fun name source content =>
    match Jinja.readTemplate? source with
    | none => .error (.render name unreadableSource)
    | some nodes =>
        match Jinja.renderTemplate? templates content nodes with
        | some text => .ok text
        | none => .error (.render name failedRendering)

/-- The engine with expressions and control flow. -/
def jinja : SourceEngine :=
  fun partials => (partials.entries.mapM readPartial).map renderJinja

/-- The renderer of an engine, the one with expressions given. -/
def Renderer.create
    (jinja : SourceEngine)
    (engine : Engine)
    (partials : Partials) :
    Except BuildError Renderer :=
  match engine with
  | .substitution => .ok (.substitution partials)
  | .jinja => (jinja partials).map Renderer.jinja

/-- Render a source; `name` stands for it in errors. -/
def Renderer.render
    (renderer : Renderer)
    (name source : String)
    (context : Json) :
    Except BuildError String :=
  match renderer with
  | .substitution partials => substitute partials name source context
  | .jinja rendering => rendering name source context

end Render
end MailPress
