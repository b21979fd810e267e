import Mathlib.Data.List.Nodup
import Mathlib.Data.Set.Basic
import MailPress.Proofs.Project.Steps

/-!
# The course of a build

The build of a template is on course when everything that it has found so far is what the first
session gives: its message, its styles, and the sizes of its images as they are answered. A step
of a build keeps it on course, and so do the steps of other builds.

So what comes out depends on the first session and on the answers alone.
-/

namespace MailPress

open Image

/-- What the build of a template comes to, but for the sizes of its images. -/
structure Outline where
  /-- The message. -/
  message : Render.Message
  /-- The markup of the message. -/
  document : Markup.Document
  /-- The styles. -/
  styles : Styles

/-- The sizes of images, as they are shown, for what was answered about their sources. -/
def shownSizes (answers : String → Except Fault Size) (sources : List String) :
    List (String × Size) :=
  sources.foldl (fun sizes source =>
    (((answers source).toOption.map fun size => (shownSize source size).1).map
      fun size => (source, size)).toList ++ sizes) []

theorem shownSizes_concat
    (answers : String → Except Fault Size)
    (done : List String)
    (source : String) :
    shownSizes answers (done ++ [source]) =
      (((answers source).toOption.map fun size => (shownSize source size).1).map
        fun size => (source, size)).toList ++ shownSizes answers done := by
  rw [shownSizes, List.foldl_append]
  rfl

/-- What the pages of a template are made of, but for warnings. -/
def Outline.parts (outline : Outline) (sizes : List (String × Size)) : Parts :=
  ⟨outline.message, outline.document, outline.styles, ⟨sizes, []⟩⟩

/-- The files that are built from an outline and sizes. -/
def Outline.files
    (outline : Outline)
    (compact : String → String)
    (settings : Settings)
    (sizes : List (String × Size)) :
    List (String × String) :=
  ((outline.parts sizes).artifacts compact settings).files

/-- The outline in what the pages of a template are made of. -/
def Parts.outline (parts : Parts) : Outline :=
  ⟨parts.message, parts.document, parts.styles⟩

/-- Warnings do not get into the files. -/
theorem Parts.files_artifacts (parts : Parts) (compact : String → String) (settings : Settings) :
    (parts.artifacts compact settings).files =
      parts.outline.files compact settings parts.resolved.sizes := rfl

/-- Warnings do not end the program. -/
theorem Parts.stops_eq (parts : Parts) (settings : Settings) :
    parts.stops settings = (parts.outline.parts parts.resolved.sizes).stops settings := rfl

theorem Artifacts.map_files (artifacts : Artifacts) :
    artifacts.files.map Prod.fst = Template.suffixes := rfl

theorem Artifacts.mem_suffixes
    {artifacts : Artifacts}
    {file : String × String}
    (member : file ∈ artifacts.files) :
    file.1 ∈ Template.suffixes :=
  artifacts.map_files ▸ List.mem_map_of_mem member

/-- Files with the same ending are the same. -/
theorem Artifacts.eq_of_mem_files
    {artifacts : Artifacts}
    {file other : String × String}
    (member : file ∈ artifacts.files)
    (otherMember : other ∈ artifacts.files)
    (same : file.1 = other.1) :
    file = other := by
  have distinct : (artifacts.files.map Prod.fst).Nodup := by
    rw [artifacts.map_files]
    decide
  exact List.inj_on_of_nodup_map distinct member otherMember same

namespace Session

variable {first session after : Session} {templates : List Template} {network : Network}
  {template : Template} {answers : String → Except Fault Size}

/-- The outline of a template. -/
def outline (session : Session) (template : Template) : Except BuildError Outline :=
  let message := session.message template
  let settings := session.settings
  let main := Path.join template.directory settings.sheets.main
  if Style.isPresent session.space.disk main then
    match (session.workshop.compileReset session.engines.scss settings template .head).1 with
    | .error error => .error (foremostError message error)
    | .ok resetHead =>
        match (session.workshop.compileReset session.engines.scss settings template .inline).1 with
        | .error error => .error (foremostError message error)
        | .ok resetInline =>
            match (session.workshop.compileMain session.engines.scss settings template).1 with
            | .error error => .error (foremostError message error)
            | .ok main =>
                match message with
                | .error error => .error error
                | .ok message =>
                    match Markup.Document.read message.html with
                    | .error error => .error (.markup error)
                    | .ok document =>
                        .ok ⟨message, document, Style.assemble resetHead resetInline main⟩
  else .error (foremostError message (.sourceMissing main))

/-- The files of a template with these answers, if it has an outline. -/
def filesFor
    (first : Session)
    (template : Template)
    (answers : String → Except Fault Size) :
    Except BuildError (List (String × String)) :=
  (first.outline template).map fun outline =>
    outline.files first.engines.compact first.settings
      (shownSizes answers (first.sources template))

/-- Whether making the pages of a template with these answers ends the program. -/
def stopsFor
    (first : Session)
    (template : Template)
    (answers : String → Except Fault Size) :
    Bool :=
  match first.outline template with
  | .error _ => false
  | .ok outline =>
      (outline.parts (shownSizes answers (first.sources template))).stops first.settings

/-- The answers about all images of a template are settled. -/
def AreSettled
    (session : Session)
    (template : Template)
    (sources : List String)
    (answers : String → Except Fault Size) :
    Prop :=
  ∀ source ∈ sources, session.IsSettled template source (answers source)

/-- A build is on course: it has found what the first session gives. -/
def OnCourse
    (first : Session)
    (template : Template)
    (answers : String → Except Fault Size)
    (session : Session) :
    Stage → Prop
  | .waiting => True
  | .rendered message =>
      message = first.message template ∧
        Style.isPresent first.space.disk
          (Path.join template.directory first.settings.sheets.main) = true
  | .withHead message resetHead =>
      (message = first.message template ∧
        Style.isPresent first.space.disk
          (Path.join template.directory first.settings.sheets.main) = true) ∧
      (first.workshop.compileReset first.engines.scss first.settings template .head).1 =
        .ok resetHead
  | .withResets message resetHead resetInline =>
      (message = first.message template ∧
        Style.isPresent first.space.disk
          (Path.join template.directory first.settings.sheets.main) = true) ∧
      (first.workshop.compileReset first.engines.scss first.settings template .head).1 =
        .ok resetHead ∧
      (first.workshop.compileReset first.engines.scss first.settings template .inline).1 =
        .ok resetInline
  | .sizing message document styles left sizes _ =>
      first.outline template = .ok ⟨message, document, styles⟩ ∧
        ∃ done, done ++ left = first.sources template ∧ sizes = shownSizes answers done ∧
          session.AreSettled template done answers
  | .gathered parts =>
      first.outline template = .ok parts.outline ∧
        parts.resolved.sizes = shownSizes answers (first.sources template) ∧
          session.AreSettled template (first.sources template) answers
  | .writing artifacts _ left =>
      first.filesFor template answers = .ok artifacts.files ∧ left <:+ artifacts.files ∧
        session.AreSettled template (first.sources template) answers
  | .done (.ok built) =>
      first.filesFor template answers = .ok built.artifacts.files ∧
        session.AreSettled template (first.sources template) answers
  | .done (.error error) =>
      first.outline template = .error error ∨
        ∃ files, first.filesFor template answers = .ok files ∧
          session.AreSettled template (first.sources template) answers

/-- The places that the next step of a build may write. -/
def nextPlaces (first : Session) (template : Template) : Stage → List String
  | .writing _ _ ((ending, _) :: _) => [template.artifact ending]
  | _ => first.asides template

theorem nextPlaces_subset
    {stage : Stage}
    (course : first.OnCourse template answers session stage) :
    first.nextPlaces template stage ⊆ first.places template := by
  have asides : first.asides template ⊆ first.places template := List.subset_append_right _ _
  cases stage with
  | writing artifacts written left =>
      obtain ⟨_, suffix, _⟩ := course
      cases left with
      | nil => exact asides
      | cons file left =>
          have member := Artifacts.mem_suffixes (suffix.subset List.mem_cons_self)
          intro place listed
          obtain rfl := List.mem_singleton.mp listed
          exact List.mem_append_left _ (List.mem_map_of_mem member)
  | _ => exact asides

/-- An outline has the message of the template and its markup. -/
theorem message_of_outline
    {outline : Outline}
    (outlined : first.outline template = .ok outline) :
    first.message template = .ok outline.message ∧
      Markup.Document.read outline.message.html = .ok outline.document := by
  unfold Session.outline at outlined
  dsimp only at outlined
  repeat' split at outlined
  all_goals first
    | cases outlined; done
    | (cases outlined; exact ⟨‹_›, ‹_›⟩)

theorem sources_eq
    {outline : Outline}
    (outlined : first.outline template = .ok outline) :
    first.sources template = first.unsizedSources outline.document := by
  obtain ⟨message, document⟩ := message_of_outline outlined
  simp only [sources, message, document]

theorem AreSettled.deeds
    {sources places : List String}
    (settled : session.AreSettled template sources answers)
    (within : sources ⊆ first.sources template)
    (faithful : Faithful first templates session)
    (placed : first.WellPlaced templates)
    {other : Template}
    (listed : template ∈ templates)
    (otherListed : other ∈ templates)
    (placesWithin : places ⊆ first.places other)
    (deeds : Deeds first places network session after) :
    after.AreSettled template sources answers := by
  induction deeds with
  | refl => exact settled
  | @tail middle last before deed inductionHypothesis =>
      have middleFaithful := faithful.deeds placed otherListed placesWithin before
      have lastFaithful := middleFaithful.deed placed otherListed placesWithin deed
      intro source member
      exact (inductionHypothesis source member).deed middleFaithful lastFaithful placed listed
        (within member) deed

/-- What a build finds stays on course whatever deeds are done. -/
theorem OnCourse.deeds
    {stage : Stage}
    {places : List String}
    {other : Template}
    (course : first.OnCourse template answers session stage)
    (faithful : Faithful first templates session)
    (placed : first.WellPlaced templates)
    (listed : template ∈ templates)
    (otherListed : other ∈ templates)
    (placesWithin : places ⊆ first.places other)
    (deeds : Deeds first places network session after) :
    first.OnCourse template answers after stage := by
  have settled {sources : List String} (within : sources ⊆ first.sources template)
      (settled : session.AreSettled template sources answers) :=
    settled.deeds within faithful placed listed otherListed placesWithin deeds
  cases stage with
  | sizing message document styles left sizes warnings =>
      obtain ⟨outlined, done, split, found, known⟩ := course
      exact ⟨outlined, done, split, found, settled (split ▸ List.subset_append_left _ _) known⟩
  | gathered parts =>
      obtain ⟨outlined, found, known⟩ := course
      exact ⟨outlined, found, settled (List.Subset.refl _) known⟩
  | writing artifacts written left =>
      exact ⟨course.1, course.2.1, settled (List.Subset.refl _) course.2.2⟩
  | done result =>
      cases result with
      | ok built => exact ⟨course.1, settled (List.Subset.refl _) course.2⟩
      | error error =>
          exact course.imp_right fun ⟨files, made, known⟩ =>
            ⟨files, made, settled (List.Subset.refl _) known⟩
  | _ => exact course

/-- What the next step of a build comes to: it does deeds, and keeps the build on course. An error
before anything is written is that of the outline. -/
structure StepsTo
    (first : Session)
    (network : Network)
    (template : Template)
    (answers : String → Except Fault Size)
    (session : Session)
    (stage : Stage)
    (next : Stage × Session) :
    Prop where
  /-- The session changes by deeds. -/
  deeds : Deeds first (first.nextPlaces template stage) network session next.2
  /-- The build is on course. -/
  course : first.OnCourse template answers next.2 next.1
  /-- An early error is that of the outline. -/
  outlined : stage.IsEarly → ∀ error, next.1 = .done (.error error) →
    first.outline template = .error error

theorem StepsTo.failed
    {stage : Stage}
    {error : BuildError}
    (deeds : Deeds first (first.nextPlaces template stage) network session after)
    (outlined : first.outline template = .error error) :
    StepsTo first network template answers session stage (.done (.error error), after) :=
  ⟨deeds, .inl outlined, fun _ _ same => by cases same; exact outlined⟩

/-- The next step of a build keeps it on course. -/
def StepsOn
    (first : Session)
    (network : Network)
    (template : Template)
    (answers : String → Except Fault Size)
    (session : Session)
    (stage : Stage) :
    Prop :=
  first.StepsTo network template answers session stage (session.advance network template stage)

/-- An error is that of the outline, and no file was written when there is quiet. -/
def IsIdle (first : Session) (template : Template) (quiet : Prop) : Stage → Prop
  | .writing _ written _ => quiet → written = 0
  | .done (.ok built) => quiet → built.written = 0
  | .done (.error error) => first.outline template = .error error
  | _ => True

variable {quiet : Prop}

theorem IsIdle.of_isEarly {stage : Stage} (early : stage.IsEarly) :
    first.IsIdle template quiet stage := by
  cases stage with
  | writing artifacts written left => exact early.elim
  | done result => exact early.elim
  | _ => trivial

/-- An early step writes no file. -/
theorem StepsOn.isIdle
    {stage : Stage}
    (next : first.StepsOn network template answers session stage)
    (early : stage.IsEarly) :
    first.IsIdle template quiet (session.advance network template stage).1 := by
  have outlined := next.outlined early
  rcases advance_of_isEarly early session with later | ⟨error, eq⟩ | ⟨artifacts, eq⟩
  · exact .of_isEarly later
  · rw [eq]
    exact outlined error eq
  · rw [eq]
    exact fun _ => rfl

variable (faithful : Faithful first templates session) (placed : first.WellPlaced templates)
  (listed : template ∈ templates)
include faithful placed listed

theorem stepsOn_waiting :
    first.StepsOn network template answers session .waiting := by
  have message : Render.renderMessage session.engines.markdown session.renderer
      session.space.disk session.settings.rendering template = first.message template :=
    faithful.message_eq placed listed
  have apart : first.space.disk.IsApart (first.written templates)
      (Path.join template.directory first.settings.sheets.main) :=
    placed.own_apart listed (by simp)
  have present := faithful.isPresent apart
  rw [StepsOn, advance, message, faithful.settings, present]
  cases there : Style.isPresent first.space.disk
      (Path.join template.directory first.settings.sheets.main) with
  | true => exact ⟨.refl _, ⟨rfl, there⟩, fun _ _ failed => by cases failed⟩
  | false =>
      refine .failed (.refl _) ?_
      simp only [outline, there, Bool.false_eq_true, if_false]

theorem stepsOn_rendered
    (isNew : first.IsNew)
    {message : Except BuildError Render.Message}
    (course : first.OnCourse template answers session (.rendered message)) :
    first.StepsOn network template answers session (.rendered message) := by
  obtain ⟨rfl, present⟩ := course
  obtain ⟨same, deeds⟩ := compileReset_step network faithful placed listed isNew .head
  rw [StepsOn, advance]
  generalize session.workshop.compileReset session.engines.scss session.settings template .head =
    done at same deeds
  obtain ⟨error | resetHead, shop⟩ := done
  · refine .failed deeds ?_
    simp only [outline, present, if_true, ← same]
  · exact ⟨deeds, ⟨⟨rfl, present⟩, same.symm⟩, fun _ _ failed => by cases failed⟩

theorem stepsOn_withHead
    (isNew : first.IsNew)
    {message : Except BuildError Render.Message}
    {resetHead : Style.Compiled}
    (course : first.OnCourse template answers session (.withHead message resetHead)) :
    first.StepsOn network template answers session (.withHead message resetHead) := by
  obtain ⟨⟨rfl, present⟩, head⟩ := course
  obtain ⟨same, deeds⟩ :=
    compileReset_step network faithful placed listed isNew .inline
  rw [StepsOn, advance]
  generalize session.workshop.compileReset session.engines.scss session.settings template .inline =
    done at same deeds
  obtain ⟨error | resetInline, shop⟩ := done
  · refine .failed deeds ?_
    simp only [outline, present, if_true, head, ← same]
  · exact ⟨deeds, ⟨⟨rfl, present⟩, head, same.symm⟩, fun _ _ failed => by cases failed⟩

theorem stepsOn_withResets
    {message : Except BuildError Render.Message}
    {resetHead resetInline : Style.Compiled}
    (course : first.OnCourse template answers session
      (.withResets message resetHead resetInline)) :
    first.StepsOn network template answers session
      (.withResets message resetHead resetInline) := by
  obtain ⟨⟨rfl, present⟩, head, inline⟩ := course
  obtain ⟨same, deeds⟩ := compileMain_step network faithful placed listed
  rw [StepsOn, advance]
  generalize session.workshop.compileMain session.engines.scss session.settings template =
    done at same deeds
  obtain ⟨error | main, shop⟩ := done
  · refine .failed deeds ?_
    simp only [outline, present, if_true, head, inline, ← same]
  · have deeds := deeds.tail (.say (Style.Partition.warnings (Css.Sheet.read main.css)))
    have outlined : first.outline template =
        match first.message template with
        | .error error => .error error
        | .ok message =>
            match Markup.Document.read message.html with
            | .error error => .error (.markup error)
            | .ok document =>
                .ok ⟨message, document, Style.assemble resetHead resetInline main⟩ := by
      simp only [outline, present, if_true, head, inline, ← same]
    unfold afterMain afterStyles
    cases rendered : first.message template with
    | error error =>
        rw [rendered] at outlined
        exact .failed deeds outlined
    | ok message =>
        rw [rendered] at outlined
        dsimp only at outlined ⊢
        cases read : Markup.Document.read message.html with
        | error error =>
            rw [read] at outlined
            exact .failed deeds outlined
        | ok document =>
            rw [read] at outlined
            refine ⟨deeds, ⟨outlined, [], ?_, rfl, fun source member =>
              absurd member List.not_mem_nil⟩, fun _ _ failed => by cases failed⟩
            rw [sources_eq outlined, unsizedSources, unsizedSources, faithful.settings]
            rfl

/-- Steps that search for sizes or end the search. -/
theorem stepsOn_sizing
    (agree : ∀ source ∈ first.sources template,
      session.answer network template source = answers source)
    {message : Render.Message}
    {document : Markup.Document}
    {styles : Styles}
    {left : List String}
    {sizes : List (String × Size)}
    {warnings : List String}
    (course : first.OnCourse template answers session
      (.sizing message document styles left sizes warnings)) :
    first.StepsOn network template answers session
      (.sizing message document styles left sizes warnings) := by
  obtain ⟨outlined, done, split, rfl, known⟩ := course
  rw [StepsOn]
  cases left with
  | nil =>
      rw [List.append_nil] at split
      rw [advance, afterSizes]
      exact ⟨Deed.alone (.say _), ⟨outlined, split ▸ rfl, split ▸ known⟩,
        fun _ _ failed => by cases failed⟩
  | cons source left =>
      have member : source ∈ first.sources template := by simp [← split]
      have enabled := enable_of_mem_sources member
      obtain ⟨found, deeds, settled⟩ := find_step network faithful placed listed enabled
        member warnings
      rw [agree source member] at found settled
      rw [advance]
      generalize Search.find ⟨session.sizer, session.space, warnings⟩ network template source =
        next at found deeds settled
      obtain ⟨size, search⟩ := next
      refine ⟨deeds, ⟨outlined, done ++ [source], by rw [← split]; simp, ?_, ?_⟩,
        fun _ _ failed => by cases failed⟩
      · rw [shownSizes_concat, ← found]
      · intro other otherMember
        rcases List.mem_append.mp otherMember with before | here
        · exact known.deeds (split ▸ List.subset_append_left _ _) faithful placed listed listed
            (List.subset_append_right _ _) deeds other before
        · rw [List.mem_singleton.mp here]
          exact settled

omit placed listed in
/-- The step that makes the pages. -/
theorem stepsOn_gathered
    {parts : Parts}
    (course : first.OnCourse template answers session (.gathered parts)) :
    first.StepsOn network template answers session (.gathered parts) := by
  obtain ⟨outlined, found, known⟩ := course
  rw [StepsOn, advance, afterParts, faithful.engines, faithful.settings]
  refine ⟨.single (.say _), ⟨?_, List.suffix_refl _, known⟩, fun _ _ failed => by cases failed⟩
  rw [filesFor, outlined, Parts.files_artifacts, found]
  rfl

theorem stepsOn_writing
    {artifacts : Artifacts}
    {written : Nat}
    {left : List (String × String)}
    (course : first.OnCourse template answers session (.writing artifacts written left)) :
    first.StepsOn network template answers session (.writing artifacts written left) := by
  have within := nextPlaces_subset course
  obtain ⟨files, suffix, known⟩ := course
  cases left with
  | nil => exact ⟨.refl _, ⟨files, known⟩, fun early => early.elim⟩
  | cons file left =>
      obtain ⟨ending, content⟩ := file
      have deed : Deed first [template.artifact ending] network session
          { session with
            space := (session.space.write (template.artifact ending) content.toUTF8).2 } :=
        .write _ _ List.mem_cons_self
      rw [StepsOn, advance]
      dsimp only [nextPlaces] at within ⊢
      generalize session.space.write (template.artifact ending) content.toUTF8 = done at deed
      have rest : left <:+ artifacts.files := (List.suffix_cons _ _).trans suffix
      have still {after : Session} (deeds : Deeds first [template.artifact ending] network session
          after) : after.AreSettled template (first.sources template) answers :=
        known.deeds (List.Subset.refl _) faithful placed listed listed within deeds
      obtain ⟨error | outcome, space⟩ := done
      · exact ⟨deed.alone, .inr ⟨_, files, still deed.alone⟩, fun early => early.elim⟩
      · cases outcome with
        | unchanged =>
            exact ⟨deed.alone, ⟨files, rest, still deed.alone⟩, fun early => early.elim⟩
        | written =>
            have deeds := deed.alone.tail (.say [⟨"write", template.artifact ending⟩])
            exact ⟨deeds, ⟨files, rest, still deeds⟩, fun early => early.elim⟩

/-- Every step of a build keeps it on course. -/
theorem stepsOn
    (isNew : first.IsNew)
    (agree : ∀ source ∈ first.sources template,
      session.answer network template source = answers source)
    {stage : Stage}
    (course : first.OnCourse template answers session stage) :
    first.StepsOn network template answers session stage := by
  cases stage with
  | waiting => exact stepsOn_waiting faithful placed listed
  | rendered message => exact stepsOn_rendered faithful placed listed isNew course
  | withHead message resetHead => exact stepsOn_withHead faithful placed listed isNew course
  | withResets message resetHead resetInline =>
      exact stepsOn_withResets faithful placed listed course
  | sizing message document styles left sizes warnings =>
      exact stepsOn_sizing faithful placed listed agree course
  | gathered parts => exact stepsOn_gathered faithful course
  | writing artifacts written left => exact stepsOn_writing faithful placed listed course
  | done result => exact ⟨.refl _, course, fun early => early.elim⟩

end Session

/-!
## Builds at the same time

Builds that share a session take their steps in whatever order. At every moment the session is
faithful to the first one and every build is on course.

When the servers answer the same all the time, every build gets the answers that it would get
from the first session.
-/

open Image

theorem shownSizes_congr
    {answers others : String → Except Fault Size}
    {sources : List String}
    (same : ∀ source ∈ sources, answers source = others source) :
    shownSizes answers sources = shownSizes others sources := by
  unfold shownSizes
  refine List.foldl_ext _ _ _ fun sizes source member => ?_
  rw [same source member]

namespace Session

variable {first session after : Session} {templates : List Template} {network : Network}
  {networks : Set Network} {template other : Template} {stage last : Stage}
  {jobs : List (Template × Stage)} {answers others : String → Except Fault Size}

/-! ### Answers -/

theorem filesFor_congr
    (same : ∀ source ∈ first.sources template, answers source = others source) :
    first.filesFor template answers = first.filesFor template others := by
  unfold filesFor
  rw [shownSizes_congr same]

/-- While one network answers, the answers stay the same. -/
theorem answer_deeds
    {places : List String}
    {source : String}
    (faithful : Faithful first templates session)
    (placed : first.WellPlaced templates)
    (listed : template ∈ templates)
    (otherListed : other ∈ templates)
    (within : places ⊆ first.places other)
    (member : source ∈ first.sources template)
    (deeds : Deeds first places network session after) :
    after.answer network template source = session.answer network template source := by
  induction deeds with
  | refl => rfl
  | @tail middle last before deed inductionHypothesis =>
      have middleFaithful := faithful.deeds placed otherListed within before
      have lastFaithful := middleFaithful.deed placed otherListed within deed
      refine Eq.trans ?_ inductionHypothesis
      exact (answer_deed middleFaithful lastFaithful placed listed member deed network).elim id id

/-- A build is on course for all answers that the session gives: those that it got already are
settled. -/
theorem OnCourse.rebase
    (course : first.OnCourse template answers session stage)
    (network : Network)
    (same : ∀ source ∈ first.sources template,
      session.answer network template source = others source) :
    first.OnCourse template others session stage := by
  have agree {sources : List String} (within : sources ⊆ first.sources template)
      (settled : session.AreSettled template sources answers) :
      ∀ source ∈ sources, answers source = others source := fun source member =>
    (settled source member network).symm.trans (same source (within member))
  have settle {sources : List String} (within : sources ⊆ first.sources template)
      (settled : session.AreSettled template sources answers) :
      session.AreSettled template sources others := fun source member =>
    agree within settled source member ▸ settled source member
  have all := List.Subset.refl (first.sources template)
  cases stage with
  | sizing message document styles left sizes warnings =>
      obtain ⟨outlined, done, split, rfl, settled⟩ := course
      have within : done ⊆ first.sources template := split ▸ List.subset_append_left _ _
      exact ⟨outlined, done, split, shownSizes_congr (agree within settled),
        settle within settled⟩
  | gathered parts =>
      obtain ⟨outlined, found, settled⟩ := course
      exact ⟨outlined, found.trans (shownSizes_congr (agree all settled)), settle all settled⟩
  | writing artifacts written left =>
      obtain ⟨files, suffix, settled⟩ := course
      exact ⟨filesFor_congr (agree all settled) ▸ files, suffix, settle all settled⟩
  | done result =>
      cases result with
      | ok built =>
          obtain ⟨files, settled⟩ := course
          exact ⟨filesFor_congr (agree all settled) ▸ files, settle all settled⟩
      | error error =>
          refine course.imp_right fun ⟨files, made, settled⟩ => ?_
          exact ⟨files, filesFor_congr (agree all settled) ▸ made, settle all settled⟩
  | _ => exact course

/-! ### One build -/

/-- The steps of one build, with nothing in between, keep the faith, the course and the answers;
what else holds at first and is kept by every step holds at last. -/
theorem Runs.onCourse
    {kind : Stage → Prop}
    (holds : Stage → Session → Prop)
    (runs : Runs kind network template (stage, session) (last, after))
    (placed : first.WellPlaced templates)
    (isNew : first.IsNew)
    (listed : template ∈ templates)
    (faithful : Faithful first templates session)
    (course : first.OnCourse template answers session stage)
    (agree : ∀ source ∈ first.sources template,
      session.answer network template source = answers source)
    (start : holds stage session)
    (step : ∀ stage session, kind stage → Faithful first templates session →
      first.OnCourse template answers session stage →
      first.StepsOn network template answers session stage → holds stage session →
      holds (session.advance network template stage).1
        (session.advance network template stage).2) :
    Faithful first templates after ∧ first.OnCourse template answers after last ∧
      holds last after := by
  suffices all : Faithful first templates after ∧ first.OnCourse template answers after last ∧
      (∀ source ∈ first.sources template,
        after.answer network template source = answers source) ∧ holds last after from
    ⟨all.1, all.2.1, all.2.2.2⟩
  refine @Runs.induction network template kind _ _ _ _ (fun stage session =>
    Faithful first templates session ∧
    first.OnCourse template answers session stage ∧
      (∀ source ∈ first.sources template,
        session.answer network template source = answers source) ∧ holds stage session)
    runs ⟨faithful, course, agree, start⟩ ?_
  rintro stage session here ⟨faithful, course, agree, holds⟩
  have next := stepsOn faithful placed listed isNew agree course
  have within := nextPlaces_subset course
  refine ⟨faithful.deeds placed listed within next.deeds, next.course, fun source member => ?_,
    step stage session here faithful course next holds⟩
  rw [answer_deeds faithful placed listed listed within member next.deeds, agree source member]

/-- Whether making the pages ends the program depends on the first session and on the answers
alone. -/
theorem OnCourse.stops_eq
    (course : first.OnCourse template answers session stage)
    {parts : Parts}
    (here : stage = .gathered parts) :
    parts.stops first.settings = first.stopsFor template answers := by
  subst here
  obtain ⟨outlined, found, _⟩ := course
  delta stopsFor
  rw [outlined, Parts.stops_eq, found]

/-- So does whether a build ends it. -/
theorem Faithful.stops_eq
    (faithful : Faithful first templates session)
    (placed : first.WellPlaced templates)
    (isNew : first.IsNew)
    (listed : template ∈ templates)
    (agree : ∀ source ∈ first.sources template,
      session.answer network template source = answers source) :
    session.stops network template = first.stopsFor template answers := by
  obtain ⟨later, course, idle⟩ := (runs_gather session).onCourse
    (fun stage _ => first.IsIdle template True stage)
    placed isNew listed faithful trivial agree trivial
    fun stage session early _ _ next _ => next.isIdle early
  unfold stops
  generalize session.gather network template = done at later course idle ⊢
  obtain ⟨error | parts, after⟩ := done
  · have outlined : first.outline template = .error error := idle
    delta stopsFor
    rw [outlined]
  · dsimp only
    rw [later.settings]
    exact course.stops_eq rfl

/-! ### Any number of builds -/

/-- The states that a session is in while templates are built in it, each with how far the builds
are. At every step one build goes on, in one of some networks, or something is said. -/
inductive Reached (first : Session) (networks : Set Network) (templates : List Template) :
    Session → List (Template × Stage) → Prop
  /-- No build has begun. -/
  | start : Reached first networks templates first (templates.map fun template =>
      (template, .waiting))
  /-- Something is said. -/
  | say {session : Session} {jobs : List (Template × Stage)}
      (reached : Reached first networks templates session jobs)
      (messages : List Console.Message) :
      Reached first networks templates (session.say messages) jobs
  /-- A build takes its next step. -/
  | step {session : Session} {jobs : List (Template × Stage)}
      (reached : Reached first networks templates session jobs)
      {index : Nat} {template : Template} {stage : Stage}
      (job : jobs[index]? = some (template, stage))
      {network : Network} (allowed : network ∈ networks) :
      Reached first networks templates (session.advance network template stage).2
        (jobs.set index (template, (session.advance network template stage).1))

namespace Reached

/-- Every template has its build. -/
theorem map_fst (reached : Reached first networks templates session jobs) :
    jobs.map Prod.fst = templates := by
  induction reached with
  | start => simp [Function.comp_def]
  | say _ _ inductionHypothesis => exact inductionHypothesis
  | step _ job _ inductionHypothesis =>
      obtain ⟨inside, here⟩ := List.getElem?_eq_some_iff.mp job
      rw [List.map_set, ← congrArg Prod.fst here,
        ← List.getElem_map Prod.fst (h := by simpa using inside), List.set_getElem_self,
        inductionHypothesis]

theorem listed
    (reached : Reached first networks templates session jobs)
    (member : (template, stage) ∈ jobs) :
    template ∈ templates :=
  reached.map_fst ▸ List.mem_map_of_mem member

/-- The next step of a build that is on course. -/
theorem stepsOn_of_onCourse
    (faithful : Faithful first templates session)
    (placed : first.WellPlaced templates)
    (isNew : first.IsNew)
    (listed : template ∈ templates)
    (course : first.OnCourse template answers session stage)
    (network : Network) :
    first.StepsOn network template (session.answer network template) session stage :=
  stepsOn faithful placed listed isNew (fun _ _ => rfl) (course.rebase network fun _ _ => rfl)

/-- At every moment the session is faithful, and every build is on course. -/
theorem consistent
    (reached : Reached first networks templates session jobs)
    (placed : first.WellPlaced templates)
    (isNew : first.IsNew) :
    Faithful first templates session ∧ ∀ template stage, (template, stage) ∈ jobs →
      ∃ answers, first.OnCourse template answers session stage := by
  induction reached with
  | start =>
      refine ⟨isNew.faithful rfl rfl rfl (.refl _ _), fun template stage member => ?_⟩
      obtain ⟨_, _, same⟩ := List.mem_map.mp member
      cases same
      exact ⟨first.answer Network.silent template, trivial⟩
  | @say session jobs reached messages inductionHypothesis =>
      obtain ⟨faithful, courses⟩ := inductionHypothesis
      refine ⟨faithful.say messages, fun template stage member => ?_⟩
      obtain ⟨answers, course⟩ := courses template stage member
      have listed := reached.listed member
      have deed : Deed first [] Network.silent session (session.say messages) := .say messages
      exact ⟨answers, course.deeds faithful placed listed listed (List.nil_subset _) deed.alone⟩
  | @step session jobs reached index template stage job network allowed inductionHypothesis =>
      obtain ⟨faithful, courses⟩ := inductionHypothesis
      have member := List.mem_of_getElem? job
      have listed := reached.listed member
      obtain ⟨answers, course⟩ := courses template stage member
      have within := nextPlaces_subset course
      have next := stepsOn_of_onCourse faithful placed isNew listed course network
      refine ⟨faithful.deeds placed listed within next.deeds, fun other otherStage kept => ?_⟩
      rcases List.mem_or_eq_of_mem_set kept with before | here
      · obtain ⟨answers, course⟩ := courses other otherStage before
        exact ⟨answers, course.deeds faithful placed (reached.listed before) listed within
          next.deeds⟩
      · cases here
        exact ⟨_, next.course⟩

/-- While one network answers, every build gets the answers that the first session gives. -/
theorem answer_eq
    {source : String}
    (reached : Reached first {network} templates session jobs)
    (placed : first.WellPlaced templates)
    (isNew : first.IsNew)
    (listed : template ∈ templates)
    (member : source ∈ first.sources template) :
    session.answer network template source = first.answer network template source := by
  induction reached with
  | start => rfl
  | say _ _ inductionHypothesis => exact inductionHypothesis
  | @step session jobs reached index other stage job answering allowed inductionHypothesis =>
      obtain rfl := Set.mem_singleton_iff.mp allowed
      obtain ⟨faithful, courses⟩ := reached.consistent placed isNew
      have mine := reached.listed (List.mem_of_getElem? job)
      obtain ⟨answers, course⟩ := courses _ _ (List.mem_of_getElem? job)
      have next := stepsOn_of_onCourse faithful placed isNew mine course answering
      rw [answer_deeds faithful placed listed mine (nextPlaces_subset course) member next.deeds,
        inductionHypothesis]

/-- While one network answers, every build is on course for the answers of the first session. -/
theorem onCourse
    (reached : Reached first {network} templates session jobs)
    (placed : first.WellPlaced templates)
    (isNew : first.IsNew)
    (member : (template, stage) ∈ jobs) :
    first.OnCourse template (first.answer network template) session stage := by
  obtain ⟨answers, course⟩ := (reached.consistent placed isNew).2 template stage member
  exact course.rebase network fun source listed =>
    reached.answer_eq placed isNew (reached.listed member) listed

end Reached
end Session
end MailPress
