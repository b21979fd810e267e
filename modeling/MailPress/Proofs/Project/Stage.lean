import Mathlib.Logic.Relation
import MailPress.Project.Build

/-!
# A build step by step

Templates are built at the same time and share a session. A build goes through stages: the message
is rendered, the two resets and the style sheet are compiled one after the other, the images are
sized one by one, the pages are made, and the three files are written one by one. Between two steps
of a build the others may change the session.

The steps of one build, with nothing in between, are the build. The only step that may end the
program is that which makes the pages.
-/

namespace MailPress

/-- How far the build of a template is. -/
inductive Stage
  /-- Nothing was done. -/
  | waiting
  /-- The message was rendered, well or not. -/
  | rendered (message : Except BuildError Render.Message)
  /-- The reset for the head was compiled too. -/
  | withHead (message : Except BuildError Render.Message) (resetHead : Style.Compiled)
  /-- Both resets were compiled. -/
  | withResets
      (message : Except BuildError Render.Message)
      (resetHead resetInline : Style.Compiled)
  /-- The styles are complete. Some sizes were found, and sources are left. -/
  | sizing
      (message : Render.Message)
      (document : Markup.Document)
      (styles : Styles)
      (left : List String)
      (sizes : List (String × Image.Size))
      (warnings : List String)
  /-- All sizes are found. -/
  | gathered (parts : Parts)
  /-- The pages are complete. Some files were written, and others are left. -/
  | writing (artifacts : Artifacts) (written : Nat) (left : List (String × String))
  /-- The build has ended. -/
  | done (result : Except BuildError Built)

/-- Nothing was written yet. -/
def Stage.IsEarly : Stage → Prop
  | .writing _ _ _ => False
  | .done _ => False
  | _ => True

/-- Whether the next step ends the program. -/
def Stage.stops (settings : Settings) : Stage → Bool
  | .gathered parts => parts.stops settings
  | _ => false

/-- The error that counts when styles fail: that of the message, if there is one. -/
def foremostError (message : Except BuildError Render.Message) (error : BuildError) : BuildError :=
  match message with
  | .error first => first
  | .ok _ => error

/-- The files of a template, by their endings. -/
def Artifacts.files (artifacts : Artifacts) : List (String × String) :=
  [("html", artifacts.production), ("dev.html", artifacts.development), ("txt", artifacts.text)]

namespace Session

/-- The workshop that compiles style sheets for a session. -/
def workshop (session : Session) : Style.Workshop :=
  ⟨session.space, session.shared, []⟩

/-- The session after something was compiled. -/
def withWorkshop (session : Session) (shop : Style.Workshop) : Session :=
  { session with space := shop.space, shared := shop.shared }.say shop.messages

/-- The session after sizes were searched for. -/
def withSearch (session : Session) (search : Image.Search) : Session :=
  { session with sizer := search.sizer, space := search.space }

/-- The sources of a document whose sizes are searched for. -/
def unsizedSources (session : Session) (document : Markup.Document) : List String :=
  if session.settings.images.enable then Image.unsizedSources document else []

/-- What follows when all styles are compiled: sizes are searched for, unless the message or its
markup is at fault. -/
def afterStyles
    (session : Session)
    (message : Except BuildError Render.Message)
    (styles : Styles) :
    Stage :=
  match message with
  | .error error => .done (.error error)
  | .ok message =>
      match Markup.Document.read message.html with
      | .error error => .done (.error (.markup error))
      | .ok document =>
          .sizing message document styles (session.unsizedSources document) [] []

/-- What follows when a style sheet was compiled: an error of the message or of the sheet ends the
build. -/
def afterSheet
    (session : Session)
    (message : Except BuildError Render.Message)
    (next : Style.Compiled → Stage) :
    Except BuildError Style.Compiled × Style.Workshop → Stage × Session
  | (.error error, shop) =>
      (.done (.error (foremostError message error)), session.withWorkshop shop)
  | (.ok compiled, shop) => (next compiled, session.withWorkshop shop)

/-- What follows when the style sheet was compiled after both resets. -/
def afterMain
    (session : Session)
    (message : Except BuildError Render.Message)
    (resetHead resetInline : Style.Compiled) :
    Except BuildError Style.Compiled × Style.Workshop → Stage × Session
  | (.error error, shop) =>
      (.done (.error (foremostError message error)), session.withWorkshop shop)
  | (.ok main, shop) =>
      (session.afterStyles message (Style.assemble resetHead resetInline main),
        (session.withWorkshop shop).say (Style.Partition.warnings (Css.Sheet.read main.css)))

/-- What follows when all sizes were searched for. -/
def afterSizes
    (session : Session)
    (template : Template)
    (message : Render.Message)
    (document : Markup.Document)
    (styles : Styles)
    (sizes : List (String × Image.Size))
    (warnings : List String) :
    Stage × Session :=
  let warnings := warnings.mergeSort fun first second => first ≤ second
  (.gathered ⟨message, document, styles, ⟨sizes, warnings⟩⟩, session.say
    (warnings.map fun warning => ⟨"warn", template.name ++ ": " ++ warning⟩))

/-- What follows when all sizes are found: the pages are made, and nothing of them is written. -/
def afterParts (session : Session) (parts : Parts) : Stage :=
  let artifacts := parts.artifacts session.engines.compact session.settings
  .writing artifacts 0 artifacts.files

/-- What follows when a file was written. -/
def afterWrite
    (session : Session)
    (artifacts : Artifacts)
    (written : Nat)
    (left : List (String × String))
    (place : String) :
    Except BuildError Outcome × Workspace → Stage × Session
  | (.error error, space) => (.done (.error error), { session with space := space })
  | (.ok .unchanged, space) => (.writing artifacts written left, { session with space := space })
  | (.ok .written, space) =>
      (.writing artifacts (written + 1) left,
        { session with space := space }.say [⟨"write", place⟩])

/-- Take the next step of a build. -/
def advance
    (session : Session)
    (network : Image.Network)
    (template : Template) :
    Stage → Stage × Session
  | .waiting =>
      let message := Render.renderMessage session.engines.markdown session.renderer
        session.space.disk session.settings.rendering template
      let path := Path.join template.directory session.settings.sheets.main
      if Style.isPresent session.space.disk path then (.rendered message, session)
      else (.done (.error (foremostError message (.sourceMissing path))), session)
  | .rendered message =>
      session.afterSheet message (.withHead message)
        (session.workshop.compileReset session.engines.scss session.settings template .head)
  | .withHead message resetHead =>
      session.afterSheet message (.withResets message resetHead)
        (session.workshop.compileReset session.engines.scss session.settings template .inline)
  | .withResets message resetHead resetInline =>
      session.afterMain message resetHead resetInline
        (session.workshop.compileMain session.engines.scss session.settings template)
  | .sizing message document styles [] sizes warnings =>
      session.afterSizes template message document styles sizes warnings
  | .sizing message document styles (source :: left) sizes warnings =>
      let (size, search) :=
        Image.Search.find ⟨session.sizer, session.space, warnings⟩ network template source
      let found := (size.map fun size => (source, size)).toList
      (.sizing message document styles left (found ++ sizes) search.warnings,
        session.withSearch search)
  | .gathered parts => (session.afterParts parts, session.say parts.messages)
  | .writing artifacts written [] => (.done (.ok ⟨artifacts, written⟩), session)
  | .writing artifacts written ((ending, content) :: left) =>
      let place := template.artifact ending
      session.afterWrite artifacts written left place (session.space.write place content.toUTF8)
  | .done result => (.done result, session)

variable {network : Image.Network} {template : Template}

/-- A step of a build that has written nothing leads to another such stage, to an error, or to the
pages, of which nothing is written yet. -/
theorem advance_of_isEarly {stage : Stage} (early : stage.IsEarly) (session : Session) :
    (session.advance network template stage).1.IsEarly ∨
      (∃ error, (session.advance network template stage).1 = .done (.error error)) ∨
        ∃ artifacts, (session.advance network template stage).1 =
          .writing artifacts 0 artifacts.files := by
  have afterSheet (next : Style.Compiled → Stage) (isEarly : ∀ compiled, (next compiled).IsEarly)
      (message : Except BuildError Render.Message)
      (compiled : Except BuildError Style.Compiled × Style.Workshop) :
      (session.afterSheet message next compiled).1.IsEarly ∨
        ∃ error, (session.afterSheet message next compiled).1 = .done (.error error) := by
    obtain ⟨error | compiled, shop⟩ := compiled
    · exact .inr ⟨_, rfl⟩
    · exact .inl (isEarly compiled)
  cases stage with
  | waiting =>
      rw [advance]
      split
      · exact .inl trivial
      · exact .inr (.inl ⟨_, rfl⟩)
  | rendered message =>
      exact (afterSheet (.withHead message) (fun _ => trivial) _ _).imp_right .inl
  | withHead message resetHead =>
      exact (afterSheet (.withResets message resetHead) (fun _ => trivial) _ _).imp_right .inl
  | withResets message resetHead resetInline =>
      rw [advance]
      generalize session.workshop.compileMain session.engines.scss session.settings template =
        compiled
      obtain ⟨error | main, shop⟩ := compiled
      · exact .inr (.inl ⟨_, rfl⟩)
      · unfold afterMain afterStyles
        cases message with
        | error error => exact .inr (.inl ⟨_, rfl⟩)
        | ok message =>
            dsimp only
            cases Markup.Document.read message.html with
            | error error => exact .inr (.inl ⟨_, rfl⟩)
            | ok document => exact .inl trivial
  | sizing message document styles left sizes warnings =>
      cases left with
      | nil => exact .inl trivial
      | cons source left => exact .inl trivial
  | gathered parts => exact .inr (.inr ⟨_, rfl⟩)
  | writing artifacts written left => exact early.elim
  | done result => exact early.elim

/-- One state of a build comes after another when only this build takes steps, all of them at
stages of some kind. -/
def Runs (kind : Stage → Prop) (network : Image.Network) (template : Template) :
    Stage × Session → Stage × Session → Prop :=
  Relation.ReflTransGen fun state next =>
    kind state.1 ∧ next = state.2.advance network template state.1

namespace Runs

variable {kind : Stage → Prop} {stage last : Stage} {session after : Session}

theorem step
    {state : Stage × Session}
    (runs : Runs kind network template (session.advance network template stage) state)
    (here : kind stage) :
    Runs kind network template (stage, session) state :=
  .head ⟨here, rfl⟩ runs

theorem refl (state : Stage × Session) : Runs kind network template state state :=
  Relation.ReflTransGen.refl

theorem anyKind
    {state next : Stage × Session}
    (runs : Runs kind network template state next) :
    Runs (fun _ => True) network template state next :=
  Relation.ReflTransGen.mono (fun _ _ step => ⟨trivial, step.2⟩) _ _ runs

/-- What is true at first and kept by every step is true at last. -/
theorem induction
    {holds : Stage → Session → Prop}
    (runs : Runs kind network template (stage, session) (last, after))
    (first : holds stage session)
    (step : ∀ stage session, kind stage → holds stage session →
      holds (session.advance network template stage).1 (session.advance network template stage).2) :
    holds last after := by
  suffices general : ∀ state : Stage × Session,
      Runs kind network template (stage, session) state → holds state.1 state.2 from general _ runs
  intro state runs
  induction runs with
  | refl => exact first
  | tail _ next inductionHypothesis => exact next.2 ▸ step _ _ next.1 inductionHypothesis

end Runs

/-! ## The steps make up the build -/

/-- Searching for the sizes of sources one after the other. -/
def sizeAll
    (network : Image.Network)
    (template : Template)
    (sources : List String)
    (state : List (String × Image.Size) × Image.Search) :
    List (String × Image.Size) × Image.Search :=
  sources.foldl (fun state source =>
    let (size, search) := state.2.find network template source
    ((size.map fun size => (source, size)).toList ++ state.1, search)) state

theorem resolve_eq
    (network : Image.Network)
    (sizer : Image.Sizer)
    (space : Workspace)
    (document : Markup.Document)
    (template : Template) :
    let found := sizeAll network template (Image.unsizedSources document) ([], ⟨sizer, space, []⟩)
    Image.resolve network sizer space document template =
      (⟨found.1, found.2.warnings.mergeSort fun first second => first ≤ second⟩,
        found.2.sizer, found.2.space) := rfl

theorem runs_sizing
    (session : Session)
    (message : Render.Message)
    (document : Markup.Document)
    (styles : Styles)
    (left : List String)
    (sizes : List (String × Image.Size))
    (search : Image.Search) :
    let found := sizeAll network template left (sizes, search)
    Runs Stage.IsEarly network template
      (.sizing message document styles left sizes search.warnings, session.withSearch search)
      (.sizing message document styles [] found.1 found.2.warnings, session.withSearch found.2) := by
  induction left generalizing sizes search with
  | nil => exact .refl _
  | cons source left inductionHypothesis => exact .step (inductionHypothesis _ _) trivial

theorem runs_writing
    (session : Session)
    (artifacts : Artifacts)
    (written : Nat)
    (left : List (String × String)) :
    Runs (fun _ => True) network template (.writing artifacts written left, session)
      (match writeFiles template written left session with
        | (.error error, session) => (.done (.error error), session)
        | (.ok written, session) => (.done (.ok ⟨artifacts, written⟩), session)) := by
  induction left generalizing session written with
  | nil => exact .step (.refl _) trivial
  | cons file left inductionHypothesis =>
      obtain ⟨ending, content⟩ := file
      refine .step ?_ trivial
      unfold writeFiles advance
      dsimp only
      generalize session.space.write (template.artifact ending) content.toUTF8 = done
      obtain ⟨error | outcome, space⟩ := done
      · exact .refl _
      · cases outcome with
        | written => exact inductionHypothesis _ _
        | unchanged => exact inductionHypothesis _ _

theorem resolveImages_eq (session : Session) (document : Markup.Document) :
    let found := sizeAll network template (session.unsizedSources document)
      ([], ⟨session.sizer, session.space, []⟩)
    let warnings := found.2.warnings.mergeSort fun first second => first ≤ second
    session.resolveImages network template document =
      (⟨found.1, warnings⟩, (session.withSearch found.2).say
        (warnings.map fun warning => ⟨"warn", template.name ++ ": " ++ warning⟩)) := by
  dsimp only
  unfold resolveImages unsizedSources
  cases session.settings.images.enable with
  | true => rfl
  | false => simp [sizeAll, say, withSearch, Image.Resolved.none]

/-- What is gathered when all styles are compiled. -/
def gatherStyled
    (network : Image.Network)
    (template : Template)
    (message : Except BuildError Render.Message)
    (styles : Styles)
    (session : Session) :
    Except BuildError Parts × Session :=
  match message with
  | .error error => (.error error, session)
  | .ok message =>
      match Markup.Document.read message.html with
      | .error error => (.error (.markup error), session)
      | .ok document =>
          let (resolved, session) := session.resolveImages network template document
          (.ok ⟨message, document, styles, resolved⟩, session)

/-- Where the build is when everything is gathered, or something is at fault. -/
def gathered : Except BuildError Parts × Session → Stage × Session
  | (.error error, session) => (.done (.error error), session)
  | (.ok parts, session) => (.gathered parts, session)

/-- Where the build is when the pages and the text are there, or something is at fault. -/
def assembled : Except BuildError Artifacts × Session → Stage × Session
  | (.error error, session) => (.done (.error error), session)
  | (.ok artifacts, session) => (.writing artifacts 0 artifacts.files, session)

/-- Sizes are searched for as in a build. -/
theorem runs_afterStyles
    (session : Session)
    (message : Except BuildError Render.Message)
    (styles : Styles) :
    Runs Stage.IsEarly network template (session.afterStyles message styles, session)
      (gathered (session.gatherStyled network template message styles)) := by
  unfold afterStyles gatherStyled
  cases message with
  | error error => exact .refl _
  | ok message =>
      dsimp only
      cases Markup.Document.read message.html with
      | error error => exact .refl _
      | ok document =>
          simp only [resolveImages_eq]
          exact (runs_sizing session message document styles (session.unsizedSources document) []
            ⟨session.sizer, session.space, []⟩).trans (Runs.step (.refl _) trivial)

end Session

namespace Style
namespace Workshop

variable {compiler : Scss.Compiler} {settings : Settings} {template : Template}

/-- The workshop with something said before everything else. -/
def after (messages : List Console.Message) (shop : Workshop) : Workshop :=
  { shop with messages := messages ++ shop.messages }

@[simp] theorem space_after (messages : List Console.Message) (shop : Workshop) :
    (shop.after messages).space = shop.space := rfl

@[simp] theorem shared_after (messages : List Console.Message) (shop : Workshop) :
    (shop.after messages).shared = shop.shared := rfl

theorem say_after
    (messages : List Console.Message)
    (shop : Workshop)
    (source text : String) :
    (shop.after messages).say source text = (shop.say source text).after messages := by
  simp [after, say]

theorem emit_after
    (messages : List Console.Message)
    (shop : Workshop)
    (sheets : Settings.Sheets)
    (place css : String) :
    (shop.after messages).emit sheets place css = (shop.emit sheets place css).after messages := by
  unfold emit
  split
  · rfl
  · dsimp only [after]
    generalize shop.space.write place css.toUTF8 = done
    obtain ⟨error | outcome, space⟩ := done
    · simp [say]
    · cases outcome <;> simp [say]

/-- What was said before does not matter for compiling. -/
theorem compileOwn_after (messages : List Console.Message) (shop : Workshop) (name : String) :
    (shop.after messages).compileOwn compiler settings template name =
      (shop.compileOwn compiler settings template name).map id (after messages) := by
  unfold compileOwn
  dsimp only [after]
  split
  · rfl
  · exact congrArg (Prod.mk _) (emit_after messages shop _ _ _)

/-- The workshop when the compilation of a shared reset begins. -/
def begun (shop : Workshop) (name : String) : Workshop :=
  { shop with
    shared := { shop.shared with compilations := shop.shared.compilations + 1 } }.say
      "style" ("compiling shared " ++ name)

/-- The workshop with a shared reset remembered. -/
def keep (shop : Workshop) (reset : Reset) (css : String) : Workshop :=
  { shop with shared := shop.shared.keep reset css }

/-- Compiling a shared reset, in terms of its steps. -/
theorem compileShared_eq (shop : Workshop) (reset : Reset) :
    shop.compileShared compiler settings reset =
      let name := reset.fileName settings.sheets
      let path := Path.join settings.places.common name
      match shop.shared.get? reset with
      | some css => (.ok ⟨css, false, cssFileName name⟩, shop)
      | none =>
          if isPresent shop.space.disk path then
            match Scss.compileFile? compiler shop.space.disk [settings.places.common] path with
            | none => (.error (.styleCompile path), shop.begun name)
            | some css =>
                (.ok ⟨css, false, cssFileName name⟩,
                  ((shop.begun name).emit settings.sheets
                    (Path.join sharedDirectory (cssFileName name)) css).keep reset css)
          else
            (.ok ⟨"", false, cssFileName name⟩,
              (shop.say "warn" ("shared reset `" ++ path ++ "` not found, using empty styles")).keep
                reset "") := by
  unfold compileShared
  rfl

section Shared

variable {shop : Workshop} {reset : Reset}

/-- A shared reset that is absent is empty. -/
theorem compileShared_of_absent
    (compiler : Scss.Compiler)
    (unknown : shop.shared.get? reset = none)
    (absent : isPresent shop.space.disk
      (Path.join settings.places.common (reset.fileName settings.sheets)) = false) :
    shop.compileShared compiler settings reset =
      (.ok ⟨"", false, cssFileName (reset.fileName settings.sheets)⟩,
        (shop.say "warn" ("shared reset `" ++
          Path.join settings.places.common (reset.fileName settings.sheets) ++
            "` not found, using empty styles")).keep reset "") := by
  simp only [compileShared_eq, unknown, absent, Bool.false_eq_true, if_false]

/-- A shared reset at fault is not remembered. -/
theorem compileShared_of_error
    (unknown : shop.shared.get? reset = none)
    (present : isPresent shop.space.disk
      (Path.join settings.places.common (reset.fileName settings.sheets)) = true)
    (fails : Scss.compileFile? compiler shop.space.disk [settings.places.common]
      (Path.join settings.places.common (reset.fileName settings.sheets)) = none) :
    shop.compileShared compiler settings reset =
      (.error (.styleCompile (Path.join settings.places.common (reset.fileName settings.sheets))),
        shop.begun (reset.fileName settings.sheets)) := by
  simp only [compileShared_eq, unknown, present, if_true, fails]

/-- A shared reset that compiles is written and remembered. -/
theorem compileShared_of_ok
    {css : String}
    (unknown : shop.shared.get? reset = none)
    (present : isPresent shop.space.disk
      (Path.join settings.places.common (reset.fileName settings.sheets)) = true)
    (compiles : Scss.compileFile? compiler shop.space.disk [settings.places.common]
      (Path.join settings.places.common (reset.fileName settings.sheets)) = some css) :
    shop.compileShared compiler settings reset =
      (.ok ⟨css, false, cssFileName (reset.fileName settings.sheets)⟩,
        ((shop.begun (reset.fileName settings.sheets)).emit settings.sheets
          (Path.join sharedDirectory (cssFileName (reset.fileName settings.sheets))) css).keep
            reset css) := by
  simp only [compileShared_eq, unknown, present, if_true, compiles]

end Shared

theorem begun_after (messages : List Console.Message) (shop : Workshop) (name : String) :
    (shop.after messages).begun name = (shop.begun name).after messages :=
  say_after messages { shop with shared := _ } _ _

theorem compileShared_after (messages : List Console.Message) (shop : Workshop) (reset : Reset) :
    (shop.after messages).compileShared compiler settings reset =
      (shop.compileShared compiler settings reset).map id (after messages) := by
  rw [compileShared_eq, compileShared_eq]
  simp only [space_after, shared_after, begun_after, emit_after, say_after]
  split
  · rfl
  · split
    · split <;> rfl
    · rfl

theorem compileReset_after (messages : List Console.Message) (shop : Workshop) (reset : Reset) :
    (shop.after messages).compileReset compiler settings template reset =
      (shop.compileReset compiler settings template reset).map id (after messages) := by
  unfold compileReset
  dsimp only
  rw [compileOwn_after, compileShared_after, ← apply_ite (Prod.map id (after messages))]
  rfl

theorem compileMain_after (messages : List Console.Message) (shop : Workshop) :
    (shop.after messages).compileMain compiler settings template =
      (shop.compileMain compiler settings template).map id (after messages) := by
  unfold compileMain
  dsimp only
  rw [compileOwn_after, apply_ite (Prod.map id (after messages))]
  rfl

end Workshop
end Style

namespace Session

variable {network : Image.Network} {template : Template}

theorem withWorkshop_withWorkshop
    (session : Session)
    (first second : Style.Workshop) :
    (session.withWorkshop first).withWorkshop second =
      session.withWorkshop (second.after first.messages) := by
  simp [withWorkshop, say, Style.Workshop.after]

/-- A workshop goes on where another one stopped. -/
theorem workshop_withWorkshop (session : Session) (shop : Style.Workshop) :
    (session.withWorkshop shop).workshop.after shop.messages = shop := by
  simp [withWorkshop, workshop, say, Style.Workshop.after]

@[simp] theorem withWorkshop_workshop (session : Session) :
    session.withWorkshop session.workshop = session := by
  simp [withWorkshop, workshop, say]

/-- Compiling a reset after something else was compiled. -/
theorem compileReset_withWorkshop
    (session : Session)
    (shop : Style.Workshop)
    (reset : Style.Reset) :
    shop.compileReset session.engines.scss session.settings template reset =
      ((session.withWorkshop shop).workshop.compileReset session.engines.scss session.settings
        template reset).map id (Style.Workshop.after shop.messages) := by
  rw [← Style.Workshop.compileReset_after, workshop_withWorkshop]

theorem compileMain_withWorkshop (session : Session) (shop : Style.Workshop) :
    shop.compileMain session.engines.scss session.settings template =
      ((session.withWorkshop shop).workshop.compileMain session.engines.scss session.settings
        template).map id (Style.Workshop.after shop.messages) := by
  rw [← Style.Workshop.compileMain_after, workshop_withWorkshop]

theorem afterSheet_withWorkshop
    (session : Session)
    (shop : Style.Workshop)
    (message : Except BuildError Render.Message)
    (next : Style.Compiled → Stage)
    (compiled : Except BuildError Style.Compiled × Style.Workshop) :
    (session.withWorkshop shop).afterSheet message next compiled =
      session.afterSheet message next (compiled.map id (Style.Workshop.after shop.messages)) := by
  obtain ⟨error | compiled, after⟩ := compiled <;>
    simp only [afterSheet, Prod.map_apply, id_eq, withWorkshop_withWorkshop]

theorem afterMain_withWorkshop
    (session : Session)
    (shop : Style.Workshop)
    (message : Except BuildError Render.Message)
    (resetHead resetInline : Style.Compiled)
    (compiled : Except BuildError Style.Compiled × Style.Workshop) :
    (session.withWorkshop shop).afterMain message resetHead resetInline compiled =
      session.afterMain message resetHead resetInline
        (compiled.map id (Style.Workshop.after shop.messages)) := by
  obtain ⟨error | compiled, after⟩ := compiled <;>
    simp only [afterMain, Prod.map_apply, id_eq, withWorkshop_withWorkshop]
  rfl

/-- What is gathered when the styles were compiled or one of them is at fault. -/
def finish
    (network : Image.Network)
    (template : Template)
    (message : Except BuildError Render.Message) :
    Except BuildError Styles × Session → Except BuildError Parts × Session
  | (.error error, session) => (.error (foremostError message error), session)
  | (.ok styles, session) => session.gatherStyled network template message styles

theorem gather_eq (session : Session) :
    session.gather network template =
      finish network template (Render.renderMessage session.engines.markdown session.renderer
        session.space.disk session.settings.rendering template)
        (session.compileStyles template) := by
  unfold gather finish gatherStyled
  dsimp only
  generalize Render.renderMessage _ _ _ _ _ = message
  generalize session.compileStyles template = compiled
  obtain ⟨error | styles, session⟩ := compiled
  · cases message <;> rfl
  · cases message with
    | error error => rfl
    | ok message => cases Markup.Document.read message.html <;> rfl

/-- The styles of a template, compiled by a workshop and put together. -/
theorem compileStyles_eq (session : Session) :
    session.compileStyles template =
      (Style.compile session.workshop session.engines.scss session.settings template).map id
        session.withWorkshop := by
  unfold compileStyles workshop
  generalize Style.compile _ session.engines.scss session.settings template = compiled
  rfl

/-- The three compilations, one after the other, and what follows them. -/
theorem runs_rendered
    (session : Session)
    (message : Except BuildError Render.Message)
    (present : Style.isPresent session.space.disk
      (Path.join template.directory session.settings.sheets.main) = true) :
    Runs Stage.IsEarly network template (.rendered message, session)
      (gathered (finish network template message (session.compileStyles template))) := by
  rw [compileStyles_eq]
  unfold Style.compile
  rw [if_neg (by simpa [workshop] using present)]
  refine .step ?_ trivial
  rw [advance]
  generalize session.workshop.compileReset session.engines.scss session.settings template .head =
    first
  obtain ⟨error | resetHead, shop⟩ := first
  · exact .refl _
  refine .step ?_ trivial
  dsimp only
  rw [advance, afterSheet_withWorkshop]
  change Runs Stage.IsEarly network template (session.afterSheet message _
    (((session.withWorkshop shop).workshop.compileReset session.engines.scss session.settings
      template .inline).map id _)) _
  rw [← compileReset_withWorkshop]
  generalize shop.compileReset session.engines.scss session.settings template .inline = second
  obtain ⟨error | resetInline, shop⟩ := second
  · exact .refl _
  refine .step ?_ trivial
  dsimp only
  rw [advance, afterMain_withWorkshop]
  change Runs Stage.IsEarly network template (session.afterMain message resetHead resetInline
    (((session.withWorkshop shop).workshop.compileMain session.engines.scss session.settings
      template).map id _)) _
  rw [← compileMain_withWorkshop]
  generalize shop.compileMain session.engines.scss session.settings template = third
  obtain ⟨error | main, shop⟩ := third
  · exact .refl _
  have said : (session.withWorkshop shop).say
      (Style.Partition.warnings (Css.Sheet.read main.css)) = session.withWorkshop { shop with
        messages := shop.messages ++ Style.Partition.warnings (Css.Sheet.read main.css) } := by
    simp [withWorkshop, say]
  rw [afterMain, said]
  exact runs_afterStyles (session.withWorkshop _) message _

/-- The steps of a build, one after the other until all sizes are found, gather what the pages are
made of. -/
theorem runs_gather (session : Session) :
    Runs Stage.IsEarly network template (.waiting, session)
      (gathered (session.gather network template)) := by
  rw [gather_eq]
  refine .step ?_ trivial
  unfold advance
  dsimp only
  split
  · next present => exact runs_rendered session _ present
  · next absent =>
      have none : session.compileStyles template =
          (.error (.sourceMissing (Path.join template.directory session.settings.sheets.main)),
            session) := by
        rw [compileStyles_eq, Style.compile]
        simp [absent, withWorkshop, workshop, say]
      rw [none]
      exact .refl _

/-- The steps of a build, one after the other until something is written, assemble it. -/
theorem runs_assemble (session : Session) :
    Runs Stage.IsEarly network template (.waiting, session)
      (assembled (session.assemble network template)) := by
  have gathers : Runs _ network template (.waiting, session) _ := runs_gather session
  unfold assemble
  generalize session.gather network template = done at gathers
  obtain ⟨error | parts, session⟩ := done
  · exact gathers
  · exact gathers.trans (Runs.step (.refl _) trivial)

/-- The steps of a build, one after the other, are the build. -/
theorem runs_build (session : Session) :
    Runs (fun _ => True) network template (.waiting, session)
      (.done (session.build network template).1, (session.build network template).2) := by
  have assembles : Runs _ network template (.waiting, session) _ := (runs_assemble session).anyKind
  unfold build
  generalize session.assemble network template = done at assembles
  obtain ⟨error | artifacts, session⟩ := done
  · exact assembles
  · refine assembles.trans ?_
    have writes : Runs _ network template (.writing artifacts 0 artifacts.files, session) _ :=
      runs_writing session artifacts 0 artifacts.files
    dsimp only [Artifacts.files] at writes ⊢
    generalize writeFiles template 0 _ session = written at writes
    obtain ⟨error | written, session⟩ := written <;> exact writes

end Session
end MailPress
