import MailPress.Proofs.Image.Errand
import MailPress.Proofs.Project.Places
import MailPress.Proofs.Project.Stage

/-!
# What a build reads and where it writes

The build of a template reads its sources, its content, its style sheets and its images, and
writes three files, compiled style sheets and copies of images. The files are well placed when
nothing that is read lies where something is written.

A session begins with nothing remembered but the sizes in the cache file.
-/

namespace MailPress

/-- A style sheet that a build compiles. -/
structure Sheet where
  /-- Where it is read. -/
  path : String
  /-- Where its imports are looked for. -/
  directories : List String
  /-- Where it is written when it is compiled, below the output directory. -/
  place : String

/-- The style sheet of a template with some name. -/
def Settings.ownSheet (settings : Settings) (template : Template) (name : String) : Sheet where
  path := Path.join template.directory name
  directories := [template.directory, settings.places.common]
  place := Path.join (Path.join template.name "css") (Style.cssFileName name)

/-- A reset that templates share. -/
def Settings.sharedSheet (settings : Settings) (reset : Style.Reset) : Sheet where
  path := Path.join settings.places.common (reset.fileName settings.sheets)
  directories := [settings.places.common]
  place := Path.join Style.sharedDirectory (Style.cssFileName (reset.fileName settings.sheets))

namespace Session

/-- What a template renders to. -/
def message (session : Session) (template : Template) : Except BuildError Render.Message :=
  Render.renderMessage session.engines.markdown session.renderer session.space.disk
    session.settings.rendering template

/-- The sources whose sizes are searched for when a template is built. -/
def sources (session : Session) (template : Template) : List String :=
  match session.message template with
  | .error _ => []
  | .ok message =>
      match Markup.Document.read message.html with
      | .error _ => []
      | .ok document => session.unsizedSources document

/-- Sizes are searched for only when that is wanted. -/
theorem enable_of_mem_sources
    {session : Session}
    {template : Template}
    {source : String}
    (member : source ∈ session.sources template) :
    session.settings.images.enable = true := by
  by_contra disabled
  unfold sources unsizedSources at member
  simp only [if_neg disabled] at member
  split at member
  · cases member
  · split at member <;> cases member

/-- The sources of local images. -/
def localSources (session : Session) (template : Template) : List String :=
  (session.sources template).filter fun source => (Image.address? source).isNone

/-- The reset that a template is built with: its own, if it has one, or the shared one. -/
def resetSheet (session : Session) (template : Template) (reset : Style.Reset) : Sheet :=
  let own := session.settings.ownSheet template (reset.fileName session.settings.sheets)
  if Style.isPresent session.space.disk own.path then own
  else session.settings.sharedSheet reset

/-- The style sheets that a template is built with. -/
def sheets (session : Session) (template : Template) : List Sheet :=
  [session.resetSheet template .head, session.resetSheet template .inline,
    session.settings.ownSheet template session.settings.sheets.main]

/-- The paths that are read when a template is built. -/
def inputs (session : Session) (template : Template) : List String :=
  let sheets := session.settings.sheets
  contentNames.map (Path.join template.directory) ++
    [Variant.html, .text].flatMap (fun variant =>
      session.settings.rendering.endings.map (template.sourcePath variant)) ++
    [sheets.main, sheets.resetHead, sheets.resetInline].map (Path.join template.directory) ++
    (session.sheets template).map Sheet.path ++
    (session.localSources template).map template.imagePath

/-- The local images of a template that are copied. -/
def copiedSources (session : Session) (template : Template) : List String :=
  if session.settings.images.copyLocal then
    (session.localSources template).filter fun source =>
      (Image.measure session.space.disk source (template.imagePath source)).toOption.isSome
  else []

/-- The places that the build of a template writes besides its three files. -/
def asides (session : Session) (template : Template) : List String :=
  (if session.settings.sheets.writeCss then (session.sheets template).map Sheet.place else []) ++
    (session.copiedSources template).map fun source =>
      Path.join template.name (Image.localPath source)

/-- The places that the build of a template writes, below the output directory. -/
def places (session : Session) (template : Template) : List String :=
  Template.suffixes.map template.artifact ++ session.asides template

/-- The path of a place below the output directory. -/
def outputPath (session : Session) (place : String) : String :=
  Path.join session.settings.places.output place

/-- The paths that are written below the output directory when some templates are built. -/
def outputs (session : Session) (templates : List Template) : List String :=
  (templates.flatMap session.places).map session.outputPath

/-- The paths that are written when some templates are built. -/
def written (session : Session) (templates : List Template) : List String :=
  (if session.settings.images.enable then [session.settings.imageCache] else []) ++
    session.outputs templates

/-- What is written when some templates are built stays apart from what is read. -/
structure WellPlaced (session : Session) (templates : List Template) : Prop where
  /-- The templates are named like their directories. -/
  found : ∀ template ∈ templates, template.IsFound
  /-- No location holds both a file and a directory. -/
  sound : session.space.disk.IsSound
  /-- The paths that are read pass no location that changes. -/
  inputs : ∀ template ∈ templates, ∀ path ∈ session.inputs template,
    session.space.disk.IsApart (session.written templates) path
  /-- Nothing is written into the directories of partials. -/
  partials : ∀ root ∈ session.settings.rendering.components,
    session.space.disk.IsApart (session.written templates) root ∧
      ∀ change ∈ session.space.disk.changes (session.written templates),
        Disk.below? (session.space.disk.locate root) change = none
  /-- What a style sheet imports does not depend on what is written. -/
  sheets : ∀ template ∈ templates, ∀ sheet ∈ session.sheets template, ∀ other,
    session.space.disk.Evolves (session.written templates) other →
      Scss.compileFile? session.engines.scss other sheet.directories sheet.path =
        Scss.compileFile? session.engines.scss session.space.disk sheet.directories sheet.path
  /-- The path of the cache file leads somewhere, and no other path leads there. -/
  cache : session.settings.images.enable = true →
    session.space.disk.resolve? session.settings.imageCache =
        some (session.space.disk.locate session.settings.imageCache) ∧
      ∀ path ∈ session.outputs templates,
        session.space.disk.locate path ≠ session.space.disk.locate session.settings.imageCache

/-- A session in which nothing was built. -/
structure IsNew (session : Session) : Prop where
  /-- The writer remembers nothing. -/
  writer : session.space.writer = .new session.settings.places.output
  /-- No shared reset was compiled. -/
  shared : session.shared = .none
  /-- The sizes are those of the cache file. -/
  sizer : session.sizer =
    .start session.space.disk session.settings.imageCache session.settings.images.copyLocal

variable {first : Session} {templates : List Template} {engines : Engines} {disk : Disk}
  {settings : Settings}

theorem start_cases (started : Session.start engines disk settings = .ok first) :
    first.engines = engines ∧ first.settings = settings ∧ first.space.disk = disk ∧ first.IsNew ∧
      ∃ partials, Render.Partials.load disk settings.rendering.components
          settings.rendering.endings = .ok partials ∧
        Render.Renderer.create engines.jinja settings.rendering.engine partials =
          .ok first.renderer := by
  unfold Session.start at started
  dsimp only at started
  split at started
  · cases started
  · next partials loaded =>
      split at started
      · cases started
      · next renderer created =>
          cases started
          exact ⟨rfl, rfl, rfl, ⟨rfl, rfl, rfl⟩, partials, loaded, created⟩

/-- On a disk with the same partials a session begins with the same renderer. -/
theorem exists_start_eq
    (started : Session.start engines disk settings = .ok first)
    {other : Disk}
    (same : Render.Partials.load other settings.rendering.components settings.rendering.endings =
      Render.Partials.load disk settings.rendering.components settings.rendering.endings) :
    ∃ again, Session.start engines other settings = .ok again ∧ again.engines = engines ∧
      again.settings = settings ∧ again.space.disk = other ∧ again.IsNew ∧
        again.renderer = first.renderer := by
  obtain ⟨_, _, _, _, partials, loaded, created⟩ := start_cases started
  obtain ⟨again, restarted⟩ : ∃ again, Session.start engines other settings = .ok again := by
    simp only [Session.start, same, loaded, created]
    exact ⟨_, rfl⟩
  obtain ⟨enginesEq, settingsEq, diskEq, isNew, others, otherLoaded, otherCreated⟩ :=
    start_cases restarted
  obtain rfl : partials = others := Except.ok.inj (loaded.symm.trans (same.symm.trans otherLoaded))
  exact ⟨again, restarted, enginesEq, settingsEq, diskEq, isNew,
    Except.ok.inj (otherCreated.symm.trans created)⟩

namespace WellPlaced

theorem outputPath_mem
    {place : String}
    {template : Template}
    (member : template ∈ templates)
    (placed : place ∈ first.places template) :
    first.outputPath place ∈ first.outputs templates :=
  List.mem_map_of_mem (List.mem_flatMap.mpr ⟨template, member, placed⟩)

theorem outputs_subset_written (first : Session) (templates : List Template) :
    first.outputs templates ⊆ first.written templates :=
  List.subset_append_right _ _

theorem imageCache_mem_written (enabled : first.settings.images.enable = true) :
    first.settings.imageCache ∈ first.written templates := by
  rw [written, if_pos enabled]
  exact List.mem_append_left _ List.mem_cons_self

variable {template other : Template} {suffix place : String}

/-- A style sheet is written under its own name, with another ending. -/
theorem place_of_mem_sheets
    {sheet : Sheet}
    (listed : sheet ∈ first.sheets template) :
    ∃ directory name, sheet.place = Path.join directory (Style.cssFileName name) := by
  have own (name : String) : (first.settings.ownSheet template name).place =
      Path.join (Path.join template.name "css") (Style.cssFileName name) := rfl
  have shared (reset : Style.Reset) : (first.settings.sharedSheet reset).place =
      Path.join Style.sharedDirectory
        (Style.cssFileName (reset.fileName first.settings.sheets)) := rfl
  simp only [Session.sheets, resetSheet, List.mem_cons, List.not_mem_nil, or_false] at listed
  rcases listed with rfl | rfl | rfl
  · split
    · exact ⟨_, _, own _⟩
    · exact ⟨_, _, shared _⟩
  · split
    · exact ⟨_, _, own _⟩
    · exact ⟨_, _, shared _⟩
  · exact ⟨_, _, own _⟩

/-- A place that is written besides the three files of a template is aside from the three files
of every template. -/
theorem isAside
    (placed : first.WellPlaced templates)
    (aside : place ∈ first.asides other)
    (member : suffix ∈ Template.suffixes)
    (template : Template) :
    Path.IsAside (first.outputPath place) (first.outputPath (template.artifact suffix)) := by
  rcases List.mem_append.mp aside with css | copied
  · split at css
    · obtain ⟨sheet, listed, rfl⟩ := List.mem_map.mp css
      obtain ⟨directory, name, eq⟩ := place_of_mem_sheets listed
      exact eq ▸ Template.isAside_css member _ _ _ _
    · cases css
  · obtain ⟨source, listed, rfl⟩ := List.mem_map.mp copied
    unfold copiedSources at listed
    split at listed
    · have measured := (List.mem_filter.mp listed).2
      cases size : Image.measure first.space.disk source (other.imagePath source) with
      | error fault => simp [size, Except.toOption] at measured
      | ok size => exact Template.isAside_copy placed.sound size member _ _
    · cases listed

/-- A place that is written is that of a file of a template, or aside from it. -/
theorem eq_or_isAside
    (placed : first.WellPlaced templates)
    (listed : template ∈ templates)
    (otherListed : other ∈ templates)
    (writes : place ∈ first.places other)
    (member : suffix ∈ Template.suffixes) :
    place = template.artifact suffix ∨
      Path.IsAside (first.outputPath place) (first.outputPath (template.artifact suffix)) := by
  rcases List.mem_append.mp writes with artifact | aside
  · obtain ⟨otherSuffix, otherMember, rfl⟩ := List.mem_map.mp artifact
    by_cases same : other.name = template.name ∧ otherSuffix = suffix
    · exact .inl (by rw [Template.artifact, Template.artifact, same.1, same.2])
    · exact .inr (Template.isAside_artifact_artifact (placed.found other otherListed)
        (placed.found template listed) otherMember member (by
          rcases not_and_or.mp same with name | suffix
          · exact .inl name
          · exact .inr suffix) _)
  · exact .inr (placed.isAside aside member template)

end WellPlaced
end Session
end MailPress
