import MailPress.Proofs.Disk.Tree
import MailPress.Proofs.Project.Rebuild

/-!
# Builds do not disturb each other

Templates that are built at the same time share the compiled resets, what is known about images
and the writer. In whatever order the builds take their steps, each of them comes to what it comes
to alone: it fails with the same error, or it has the same three files.

The pages and the text do not depend on other builds because every build is on course. Whether the
files can be written depends on the locations that their paths need, and none of them is changed
by anything else that is written, as long as that keeps clear.

A build that ends the program ends all others with it. Whether one does so does not depend on the
others either.
-/

namespace MailPress

open Image

/-- The files that were built. -/
def Built.files (built : Built) : List (String × String) :=
  built.artifacts.files

namespace Stage

/-- The build has ended well. -/
def isBuilt : Stage → Bool
  | .done (.ok _) => true
  | _ => false

/-- The build has failed. -/
def isFailed : Stage → Bool
  | .done (.error _) => true
  | _ => false

end Stage

/-- How many builds have ended well, and how many have failed. -/
def Summary.ofJobs (jobs : List (Template × Stage)) : Summary where
  built := jobs.countP fun job => job.2.isBuilt
  failed := jobs.countP fun job => job.2.isFailed

namespace Session

variable {first session after : Session} {templates : List Template} {places : List String}
  {network : Network} {networks : Set Network} {template other : Template} {suffix : String}
  {answers : String → Except Fault Size} {stage last : Stage} {jobs : List (Template × Stage)}

/-! ## Refusals -/

/-- The three files of every template are out of the way: nothing is written where one of them
needs a directory, and none of them is where something that is written needs one. -/
def KeepsClear (first : Session) (templates : List Template) : Prop :=
  ∀ template ∈ templates, ∀ suffix ∈ Template.suffixes, ∀ path ∈ first.written templates,
    first.space.disk.locate path ∉ first.space.disk.parents (first.artifactPath template suffix) ∧
      first.space.disk.locate (first.artifactPath template suffix) ∉ first.space.disk.parents path

instance (first : Session) (templates : List Template) :
    Decidable (first.KeepsClear templates) :=
  inferInstanceAs (Decidable (∀ template ∈ templates, ∀ suffix ∈ Template.suffixes,
    ∀ path ∈ first.written templates, _ ∧ _))

/-- Why the files of a template cannot be written, if one of them cannot. -/
def refusal? (first : Session) (template : Template) : Option BuildError :=
  Template.suffixes.findSome? fun suffix =>
    first.space.disk.refusal? (first.artifactPath template suffix)

/-- What refuses a file of a template is the same at every moment. -/
theorem Faithful.refusal?_eq
    (faithful : Faithful first templates session)
    (clear : first.KeepsClear templates)
    (listed : template ∈ templates)
    (member : suffix ∈ Template.suffixes) :
    session.space.disk.refusal? (first.artifactPath template suffix) =
      first.space.disk.refusal? (first.artifactPath template suffix) := by
  have away := clear template listed suffix member
  refine Disk.refusal?_congr faithful.grows (fun place needed => ?_) ?_
  · rw [Disk.hasFile, Disk.hasFile, faithful.disk.content? fun path written same =>
      (away path written).1 (same ▸ needed)]
  · cases there : first.space.disk.hasDirectory
        (first.space.disk.locate (first.artifactPath template suffix)) with
    | true => exact faithful.disk.directories _ there
    | false =>
        refine Bool.eq_false_iff.mpr fun made => ?_
        rcases faithful.disk.made _ made with old | ⟨path, written, needed⟩
        · cases there.symm.trans old
        · exact (away path written).2 needed

/-- At every moment a file of a template is written, or left as it is, unless the first session
refuses it. -/
theorem write_artifact_fst
    (faithful : Faithful first templates session)
    (tree : session.space.disk.IsTree)
    (placed : first.WellPlaced templates)
    (clear : first.KeepsClear templates)
    (listed : template ∈ templates)
    (member : suffix ∈ Template.suffixes)
    (content : ByteArray) :
    (∃ error, first.space.disk.refusal? (first.artifactPath template suffix) = some error ∧
        (session.space.write (template.artifact suffix) content).1 = .error error) ∨
      first.space.disk.refusal? (first.artifactPath template suffix) = none ∧
        ∃ outcome, (session.space.write (template.artifact suffix) content).1 = .ok outcome := by
  obtain ⟨front, name, split, named⟩ :=
    exists_parts_artifactPath (placed.found template listed) member first
  have path : Path.join session.space.writer.root (template.artifact suffix) =
      first.artifactPath template suffix := by
    rw [faithful.root, artifactPath, outputPath]
  have written := Workspace.write_fst tree
    (path ▸ faithful.honest template listed suffix member) (path ▸ split) named content
  rwa [path, faithful.refusal?_eq clear listed member] at written

/-! ## What a build comes to -/

/-- It is decided by the files that are left whether the build is refused one. -/
def IsDecided (first : Session) (template : Template) : Stage → Prop
  | .writing _ _ left =>
      first.refusal? template = left.findSome? fun file =>
        first.space.disk.refusal? (first.artifactPath template file.1)
  | .done (.ok _) => first.refusal? template = none
  | .done (.error error) =>
      first.outline template = .error error ∨ first.refusal? template = some error
  | _ => True

theorem refusal?_eq_findSome? (artifacts : Artifacts) :
    first.refusal? template = artifacts.files.findSome? fun file =>
      first.space.disk.refusal? (first.artifactPath template file.1) := by
  rw [refusal?, ← artifacts.map_files, List.findSome?_map, Function.comp_def]

theorem IsDecided.of_isEarly (early : stage.IsEarly) : first.IsDecided template stage := by
  cases stage with
  | writing artifacts written left => exact early.elim
  | done result => exact early.elim
  | _ => trivial

/-- Every step of a build leaves the decision to the files that are left then. -/
theorem IsDecided.advance
    (decided : first.IsDecided template stage)
    (course : first.OnCourse template answers session stage)
    (next : first.StepsOn network template answers session stage)
    (faithful : Faithful first templates session)
    (tree : session.space.disk.IsTree)
    (placed : first.WellPlaced templates)
    (clear : first.KeepsClear templates)
    (listed : template ∈ templates) :
    first.IsDecided template (session.advance network template stage).1 := by
  by_cases early : stage.IsEarly
  · have outlined := next.outlined early
    rcases advance_of_isEarly early session with later | ⟨error, eq⟩ | ⟨artifacts, eq⟩
    · exact .of_isEarly later
    · rw [eq]
      exact .inl (outlined error eq)
    · rw [eq]
      exact refusal?_eq_findSome? artifacts
  cases stage with
  | writing artifacts written left =>
      cases left with
      | nil => exact decided
      | cons file left =>
          obtain ⟨ending, content⟩ := file
          have member := Artifacts.mem_suffixes (course.2.1.subset List.mem_cons_self)
          have outcome := write_artifact_fst faithful tree placed clear listed member content.toUTF8
          rw [IsDecided, List.findSome?_cons] at decided
          rw [Session.advance]
          dsimp only at outcome decided ⊢
          generalize session.space.write (template.artifact ending) content.toUTF8 = done
            at outcome ⊢
          obtain ⟨result, space⟩ := done
          rcases outcome with ⟨error, refused, failed⟩ | ⟨free, outcome, done⟩
          · obtain rfl : result = .error error := failed
            rw [refused] at decided
            exact .inr decided
          · obtain rfl : result = .ok outcome := done
            rw [free] at decided
            cases outcome <;> exact decided
  | done result => exact decided
  | _ => exact absurd trivial early

/-- What a template comes to with these answers: an error, or its files. -/
def outcome
    (first : Session)
    (template : Template)
    (answers : String → Except Fault Size) :
    Except BuildError (List (String × String)) :=
  match first.filesFor template answers with
  | .error error => .error error
  | .ok files =>
      match first.refusal? template with
      | some error => .error error
      | none => .ok files

/-- A build that has ended came to what the first session tells. -/
theorem map_files_eq_outcome
    {result : Except BuildError Built}
    (course : first.OnCourse template answers session (.done result))
    (decided : first.IsDecided template (.done result)) :
    result.map Built.files = first.outcome template answers := by
  cases result with
  | ok built =>
      obtain ⟨made, _⟩ := course
      have free : first.refusal? template = none := decided
      unfold outcome
      rw [made, free]
      rfl
  | error error =>
      rcases course with outlined | ⟨files, made, _⟩
      · unfold outcome
        rw [filesFor, outlined]
        rfl
      · rcases decided with outlined | refused
        · rw [filesFor, outlined] at made
          cases made
        · unfold outcome
          rw [made, refused]
          rfl

/-! ## The files of a build -/

/-- A build has written none of its files, and will not. -/
def IsUnwritten (first : Session) (template : Template) (stage : Stage) : Prop :=
  stage.IsEarly ∨ ∃ error, stage = .done (.error error) ∧ first.outline template = .error error

/-- What holds of a build at every moment, whatever other builds do. -/
structure Keeps (first : Session) (template : Template) (session : Session) (stage : Stage) :
    Prop where
  /-- Whether the build is refused a file is decided by those that are left. -/
  decided : first.IsDecided template stage
  /-- The files that were written are remembered. -/
  remembers : first.RemembersFiles template session stage
  /-- The files of a build that has written none are as they were. -/
  untouched : first.IsUnwritten template stage → ∀ suffix ∈ Template.suffixes,
    LeavesAlone (first.artifactPath template suffix) first session

namespace Keeps

theorem start (first : Session) (template : Template) : first.Keeps template first .waiting :=
  ⟨trivial, trivial, fun _ _ _ => .of_space_eq rfl⟩

/-- What leaves the files of a build alone keeps what holds of it. -/
theorem leavesAlone
    (keeps : first.Keeps template session stage)
    (faithful : Faithful first templates session)
    (alone : ∀ suffix ∈ Template.suffixes,
      LeavesAlone (first.artifactPath template suffix) session after) :
    first.Keeps template after stage := by
  have still (artifacts : Artifacts) {files : List (String × String)}
      (within : files ⊆ artifacts.files)
      (known : ∀ file ∈ files, first.Remembers template session file) :
      ∀ file ∈ files, first.Remembers template after file := fun file member =>
    (known file member).leavesAlone (alone file.1 (Artifacts.mem_suffixes (within member)))
  refine ⟨keeps.decided, ?_, fun unwritten suffix member => ?_⟩
  · have remembers := keeps.remembers
    cases stage with
    | writing artifacts written left =>
        obtain ⟨done, split, known⟩ := remembers
        exact ⟨done, split, still artifacts (split ▸ List.subset_append_left _ _) known⟩
    | done result =>
        cases result with
        | ok built => exact still built.artifacts (List.Subset.refl _) remembers
        | error error => trivial
    | _ => trivial
  · exact (keeps.untouched unwritten suffix member).trans (alone suffix member)
      (faithful.grows.locate _)

/-- The steps of a build keep what holds of it. -/
theorem advance
    (keeps : first.Keeps template session stage)
    (course : first.OnCourse template answers session stage)
    (next : first.StepsOn network template answers session stage)
    (faithful : Faithful first templates session)
    (tree : session.space.disk.IsTree)
    (placed : first.WellPlaced templates)
    (clear : first.KeepsClear templates)
    (listed : template ∈ templates) :
    first.Keeps template (session.advance network template stage).2
      (session.advance network template stage).1 := by
  refine ⟨keeps.decided.advance course next faithful tree placed clear listed,
    keeps.remembers.advance faithful placed listed, fun unwritten suffix member => ?_⟩
  by_cases early : stage.IsEarly
  · refine (keeps.untouched (.inl early) suffix member).trans
      (leavesAlone_advance next course faithful placed listed listed member (.inr ?_))
      (faithful.grows.locate _)
    rintro artifacts written file left rfl
    exact early.elim
  cases stage with
  | writing artifacts written left =>
      have made := course.1
      rcases unwritten with later | ⟨error, _, outlined⟩
      · exfalso
        cases left with
        | nil => exact later
        | cons file left =>
            rw [Session.advance] at later
            generalize session.space.write _ _ = done at later
            obtain ⟨error | outcome, space⟩ := done
            · exact later
            · cases outcome <;> exact later
      · rw [filesFor, outlined] at made
        cases made
  | done result => exact keeps.untouched unwritten suffix member
  | _ => exact absurd trivial early

/-- A build that has ended well has its files. -/
theorem read?
    {built : Built}
    {file : String × String}
    (keeps : first.Keeps template session (.done (.ok built)))
    (faithful : Faithful first templates session)
    (listed : template ∈ templates)
    (member : file ∈ built.files) :
    session.space.disk.read? (first.artifactPath template file.1) = some file.2.toUTF8 :=
  faithful.honest template listed file.1 (Artifacts.mem_suffixes member) _
    (keeps.remembers file member)

end Keeps

/-! ## Any number of builds -/

namespace Reached

/-- Two builds at different places are those of templates with different names. -/
theorem name_ne
    (reached : Reached first networks templates session jobs)
    (distinct : (templates.map Template.name).Nodup)
    {index place : Nat}
    {otherStage : Stage}
    (job : jobs[index]? = some (template, stage))
    (otherJob : jobs[place]? = some (other, otherStage))
    (apart : index ≠ place) :
    template.name ≠ other.name := by
  intro same
  have names := reached.map_fst ▸ distinct
  rw [List.map_map] at names
  have here : ((jobs.map (Template.name ∘ Prod.fst))[index]?) = some template.name := by
    rw [List.getElem?_map, job]
    rfl
  have there : ((jobs.map (Template.name ∘ Prod.fst))[place]?) = some other.name := by
    rw [List.getElem?_map, otherJob]
    rfl
  obtain ⟨inside, _⟩ := List.getElem?_eq_some_iff.mp here
  exact apart ((List.getElem?_inj inside names).mp (here.trans (same ▸ there.symm)))

/-- At every moment what holds of each build is kept. -/
theorem keeps
    (reached : Reached first networks templates session jobs)
    (placed : first.WellPlaced templates)
    (isNew : first.IsNew)
    (tree : first.space.disk.IsTree)
    (clear : first.KeepsClear templates)
    (distinct : (templates.map Template.name).Nodup) :
    ∀ template stage, (template, stage) ∈ jobs → first.Keeps template session stage := by
  induction reached with
  | start =>
      intro template stage member
      obtain ⟨_, _, same⟩ := List.mem_map.mp member
      cases same
      exact .start first template
  | @say session jobs reached messages keeps =>
      obtain ⟨faithful, _⟩ := reached.consistent placed isNew
      exact fun template stage member =>
        (keeps template stage member).leavesAlone faithful fun _ _ => .of_space_eq rfl
  | @step session jobs reached index template stage job network allowed keeps =>
      have tree := reached.isTree placed isNew tree
      obtain ⟨faithful, courses⟩ := reached.consistent placed isNew
      have member := List.mem_of_getElem? job
      have listed := reached.listed member
      obtain ⟨answers, course⟩ := courses template stage member
      have course := course.rebase network fun _ _ => rfl
      have next := stepsOn faithful placed listed isNew (fun _ _ => rfl) course
      intro other otherStage kept
      obtain ⟨place, inside, here⟩ := List.getElem_of_mem kept
      rw [List.getElem_set] at here
      split at here
      · cases here
        exact (keeps template stage member).advance course next faithful tree placed clear listed
      · next apart =>
          have otherJob : jobs[place]? = some (other, otherStage) :=
            List.getElem?_eq_some_iff.mpr ⟨by simpa using inside, here⟩
          have otherMember := List.mem_of_getElem? otherJob
          refine (keeps other otherStage otherMember).leavesAlone faithful fun suffix member => ?_
          exact leavesAlone_advance next course faithful placed (reached.listed otherMember) listed
            member (.inl (reached.name_ne distinct job otherJob apart))

/-- While one network answers, a build that has ended came to what the first session tells. -/
theorem map_files_eq
    {result : Except BuildError Built}
    (reached : Reached first {network} templates session jobs)
    (placed : first.WellPlaced templates)
    (isNew : first.IsNew)
    (tree : first.space.disk.IsTree)
    (clear : first.KeepsClear templates)
    (distinct : (templates.map Template.name).Nodup)
    (member : (template, .done result) ∈ jobs) :
    result.map Built.files = first.outcome template (first.answer network template) :=
  map_files_eq_outcome (reached.onCourse placed isNew member)
    (reached.keeps placed isNew tree clear distinct template _ member).decided

/-- Whether a build ends the program does not depend on the others. -/
theorem stops_eq
    (reached : Reached first {network} templates session jobs)
    (placed : first.WellPlaced templates)
    (isNew : first.IsNew)
    (listed : template ∈ templates) :
    session.stops network template = first.stops network template := by
  obtain ⟨faithful, _⟩ := reached.consistent placed isNew
  have own := isNew.faithful rfl rfl rfl (.refl (first.written templates) first.space.disk)
  rw [faithful.stops_eq placed isNew listed fun source member =>
      reached.answer_eq placed isNew listed member,
    own.stops_eq placed isNew listed fun _ _ => rfl]

/-- No build is about to end the program when none does so alone. -/
theorem stage_stops
    (reached : Reached first {network} templates session jobs)
    (placed : first.WellPlaced templates)
    (isNew : first.IsNew)
    (calm : ∀ template ∈ templates, first.stops network template = false)
    (member : (template, stage) ∈ jobs) :
    stage.stops first.settings = false := by
  have listed := reached.listed member
  have own := isNew.faithful rfl rfl rfl (.refl (first.written templates) first.space.disk)
  cases stage with
  | gathered parts =>
      rw [Stage.stops, (reached.onCourse placed isNew member).stops_eq rfl,
        ← own.stops_eq placed isNew listed fun _ _ => rfl, calm template listed]
  | _ => rfl

/-- A build may take several steps before others go on. -/
theorem runs
    {kind : Stage → Prop}
    {index : Nat}
    (reached : Reached first networks templates session jobs)
    (job : jobs[index]? = some (template, stage))
    (allowed : network ∈ networks)
    (runs : Runs kind network template (stage, session) (last, after)) :
    Reached first networks templates after (jobs.set index (template, last)) := by
  obtain ⟨inside, here⟩ := List.getElem?_eq_some_iff.mp job
  refine @Runs.induction network template kind _ _ _ _
    (fun stage session =>
      Reached first networks templates session (jobs.set index (template, stage)))
    runs ?_ fun stage session _ reached => ?_
  · rw [← here, List.set_getElem_self]
    exact reached
  · have job : (jobs.set index (template, stage))[index]? = some (template, stage) := by
      rw [List.getElem?_set_self inside]
    have next := reached.step job allowed
    rwa [List.set_set] at next

end Reached

/-! ### One after the other -/

/-- A build that has ended changes the count as the build of one more template does. -/
theorem ofJobs_concat
    (jobs : List (Template × Stage))
    (template : Template)
    (result : Except BuildError Built) :
    Summary.ofJobs (jobs ++ [(template, .done result)]) =
      match result with
      | .ok _ => { Summary.ofJobs jobs with built := (Summary.ofJobs jobs).built + 1 }
      | .error _ => { Summary.ofJobs jobs with failed := (Summary.ofJobs jobs).failed + 1 } := by
  cases result <;> simp [Summary.ofJobs, List.countP_append, Stage.isBuilt, Stage.isFailed]

theorem step?_of_stops
    {summary : Summary}
    (runs : session.stops network template = false) :
    Session.step? network (summary, session) template =
      some (tally summary template (session.build network template)) := by
  unfold step? build?
  rw [runs]
  rfl

/-- Builds that follow others. -/
theorem exists_reached_foldlM
    {waiting : List Template}
    (placed : first.WellPlaced templates)
    (isNew : first.IsNew)
    (calm : ∀ template ∈ templates, first.stops network template = false)
    (reached : Reached first {network} templates session
      (jobs ++ waiting.map fun template => (template, .waiting)))
    (ended : ∀ job ∈ jobs, ∃ result, job.2 = .done result) :
    ∃ last jobs', waiting.foldlM (Session.step? network) (Summary.ofJobs jobs, session) =
        some (Summary.ofJobs jobs', last) ∧
      Reached first {network} templates last jobs' ∧
        ∀ job ∈ jobs', ∃ result, job.2 = .done result := by
  induction waiting generalizing jobs session with
  | nil =>
      rw [List.map_nil, List.append_nil] at reached
      exact ⟨session, jobs, rfl, reached, ended⟩
  | cons template waiting inductionHypothesis =>
      have job : (jobs ++ (template, .waiting) :: waiting.map fun template =>
          ((template, .waiting) : Template × Stage))[jobs.length]? = some (template, .waiting) := by
        simp
      have listed := reached.listed (List.mem_of_getElem? job)
      have runs := (reached.stops_eq placed isNew listed).trans (calm template listed)
      have next := reached.runs job rfl (runs_build session)
      rw [List.map_cons, List.set_append_right _ _ (Nat.le_refl _), Nat.sub_self, List.set_cons_zero,
        List.append_cons] at next
      have counted := ofJobs_concat jobs template (session.build network template).1
      have all : ∀ job ∈ jobs ++ [(template, Stage.done (session.build network template).1)],
          ∃ result, job.2 = .done result := by
        intro job member
        rcases List.mem_append.mp member with before | here
        · exact ended job before
        · rw [List.mem_singleton.mp here]
          exact ⟨_, rfl⟩
      rw [List.foldlM_cons, step?_of_stops runs, Option.bind_eq_bind, Option.bind_some]
      generalize session.build network template = done at next counted all ⊢
      obtain ⟨error | built, after⟩ := done
      · have goesOn := inductionHypothesis (next.say
          [⟨"error", template.name ++ ": " ++ error.message⟩]) all
        rw [counted] at goesOn
        exact goesOn
      · have goesOn := inductionHypothesis next all
        rw [counted] at goesOn
        exact goesOn

/-- Building templates one after the other is one of the orders, when no build ends the program. -/
theorem exists_reached_buildAll?
    (placed : first.WellPlaced templates)
    (isNew : first.IsNew)
    (calm : ∀ template ∈ templates, first.stops network template = false) :
    ∃ last jobs, first.buildAll? network templates = some (Summary.ofJobs jobs, last) ∧
      Reached first {network} templates last jobs ∧
        ∀ job ∈ jobs, ∃ result, job.2 = .done result := by
  have begun : Reached first {network} templates first
      ([] ++ templates.map fun template => (template, .waiting)) := .start
  exact exists_reached_foldlM placed isNew calm (begun.say _) fun job member =>
    absurd member List.not_mem_nil

/-- The build of one template alone is one of the orders: the other builds never begin. -/
theorem exists_reached_build (first : Session) (network : Network) (listed : template ∈ templates) :
    ∃ jobs, Reached first {network} templates (first.build network template).2 jobs ∧
      (template, .done (first.build network template).1) ∈ jobs := by
  obtain ⟨index, inside, here⟩ := List.getElem_of_mem listed
  have job : (templates.map fun template => ((template, .waiting) : Template × Stage))[index]? =
      some (template, .waiting) := by
    rw [List.getElem?_map, List.getElem?_eq_getElem inside, here]
    rfl
  have begun : Reached first {network} templates first _ := .start
  refine ⟨_, begun.runs job rfl (runs_build first), ?_⟩
  exact List.mem_set (by simpa using inside) _

/-! ## The result -/

/-- When assembling fails, it fails with the error of the outline. -/
theorem outline_of_assemble
    {error : BuildError}
    (placed : first.WellPlaced templates)
    (isNew : first.IsNew)
    (listed : template ∈ templates)
    (fails : (first.assemble network template).1 = .error error) :
    first.outline template = .error error := by
  obtain ⟨_, _, idle⟩ := (runs_assemble first).onCourse
    (fun stage _ => first.IsIdle template True stage) placed isNew listed
    (isNew.faithful rfl rfl rfl (.refl _ _)) trivial (fun _ _ => rfl) trivial
    fun _ _ early _ _ next _ => next.isIdle early
  generalize first.assemble network template = done at fails idle
  obtain ⟨result, session⟩ := done
  obtain rfl : result = .error error := fails
  exact idle

/-- The count of builds that have ended is that of templates that the first session lets pass. -/
theorem ofJobs_eq
    (reached : Reached first {network} templates session jobs)
    (placed : first.WellPlaced templates)
    (isNew : first.IsNew)
    (tree : first.space.disk.IsTree)
    (clear : first.KeepsClear templates)
    (distinct : (templates.map Template.name).Nodup)
    (ended : ∀ job ∈ jobs, ∃ result, job.2 = .done result) :
    Summary.ofJobs jobs =
      ⟨templates.countP fun template => (first.outcome template (first.answer network template)).isOk,
        templates.countP fun template =>
          !(first.outcome template (first.answer network template)).isOk⟩ := by
  have passes : ∀ job ∈ jobs,
      job.2.isBuilt = (first.outcome job.1 (first.answer network job.1)).isOk ∧
        job.2.isFailed = !(first.outcome job.1 (first.answer network job.1)).isOk := by
    rintro ⟨template, stage⟩ member
    obtain ⟨result, rfl⟩ := ended _ member
    have same := reached.map_files_eq placed isNew tree clear distinct member
    dsimp only
    rw [← same]
    cases result <;> exact ⟨rfl, rfl⟩
  have counts (kind : Template → Bool) : templates.countP kind = jobs.countP (kind ∘ Prod.fst) := by
    rw [← List.countP_map, reached.map_fst]
  rw [Summary.ofJobs, counts, counts]
  congr 1 <;> refine List.countP_congr fun job member => ?_
  · rw [(passes job member).1]
    rfl
  · rw [(passes job member).2]
    rfl

/-- What became of a template among others is what becomes of it alone. -/
structure IsIsolated
    (first : Session)
    (network : Network)
    (session : Session)
    (template : Template)
    (result : Except BuildError Built) :
    Prop where
  /-- Alone it does not end the program. -/
  alone : first.build? network template = some (first.build network template)
  /-- It fails with the same error, or it comes to the same files. -/
  same : result.map Built.files = (first.build network template).1.map Built.files
  /-- The files hold what was built, and hold the same when it is built alone. -/
  files : ∀ built, result = .ok built → ∀ file ∈ built.files,
    session.space.disk.read? (first.artifactPath template file.1) = some file.2.toUTF8 ∧
      (first.build network template).2.space.disk.read? (first.artifactPath template file.1) =
        some file.2.toUTF8
  /-- When assembling fails, the files are left as they were. -/
  untouched : ∀ error, (first.assemble network template).1 = .error error →
    result = .error error ∧ ∀ suffix ∈ Template.suffixes,
      LeavesAlone (first.artifactPath template suffix) first session

/-- In whatever order templates are built in a new session, while the servers answer the same all
the time, and when no template ends the program alone: none ends it among the others, every build
comes to what it comes to alone, and when all have ended, as many were built and as many failed as
when they are built one after the other. -/
theorem builds_isolated
    {engines : Engines}
    {disk : Disk}
    {settings : Settings}
    (started : Session.start engines disk settings = .ok first)
    (tree : disk.IsTree)
    (placed : first.WellPlaced templates)
    (clear : first.KeepsClear templates)
    (distinct : (templates.map Template.name).Nodup)
    (calm : ∀ template ∈ templates, first.stops network template = false)
    (reached : Reached first {network} templates session jobs) :
    (∀ job ∈ jobs, job.2.stops first.settings = false) ∧
      ((∀ job ∈ jobs, ∃ result, job.2 = .done result) →
        (∃ last, first.buildAll? network templates = some (Summary.ofJobs jobs, last)) ∧
          (Summary.ofJobs jobs).built + (Summary.ofJobs jobs).failed = templates.length) ∧
        ∀ template result, (template, .done result) ∈ jobs →
          first.IsIsolated network session template result := by
  obtain ⟨_, _, diskEq, isNew, _⟩ := start_cases started
  have tree : first.space.disk.IsTree := diskEq ▸ tree
  refine ⟨fun job member => reached.stage_stops placed isNew calm member, fun ended => ?_,
    fun template result member => ?_⟩
  · have counted := ofJobs_eq reached placed isNew tree clear distinct ended
    obtain ⟨last, others, runs, otherReached, otherEnded⟩ :=
      exists_reached_buildAll? placed isNew calm
    have otherCounted := ofJobs_eq otherReached placed isNew tree clear distinct otherEnded
    refine ⟨⟨last, ?_⟩, ?_⟩
    · rw [runs, counted, otherCounted]
    · rw [counted, List.length_eq_countP_add_countP fun template =>
        (first.outcome template (first.answer network template)).isOk]
      simp
  · have listed := reached.listed member
    obtain ⟨faithful, _⟩ := reached.consistent placed isNew
    have keeps := reached.keeps placed isNew tree clear distinct template _ member
    have course := reached.onCourse placed isNew member
    obtain ⟨others, alone, aloneMember⟩ := exists_reached_build first network listed
    obtain ⟨aloneFaithful, _⟩ := alone.consistent placed isNew
    have aloneKeeps := alone.keeps placed isNew tree clear distinct template _ aloneMember
    have same : result.map Built.files = (first.build network template).1.map Built.files :=
      (reached.map_files_eq placed isNew tree clear distinct member).trans
        (alone.map_files_eq placed isNew tree clear distinct aloneMember).symm
    refine ⟨build?_eq_some_iff.mpr ⟨calm template listed, rfl⟩, same, ?_, fun error fails => ?_⟩
    · rintro built rfl file listedFile
      refine ⟨keeps.read? faithful listed listedFile, ?_⟩
      generalize first.build network template = done at same aloneFaithful aloneKeeps
      obtain ⟨error | other, after⟩ := done
      · cases same
      · have files : built.files = other.files := Except.ok.inj same
        exact aloneKeeps.read? aloneFaithful listed (files ▸ listedFile)
    · have outlined := outline_of_assemble placed isNew listed fails
      cases result with
      | ok built =>
          obtain ⟨made, _⟩ := course
          rw [filesFor, outlined] at made
          cases made
      | error other =>
          have failed : other = error := by
            rcases course with outlinedOther | ⟨files, made, _⟩
            · exact Except.error.inj (outlinedOther.symm.trans outlined)
            · rw [filesFor, outlined] at made
              cases made
          exact ⟨congrArg _ failed, keeps.untouched (.inr ⟨other, rfl, failed ▸ outlined⟩)⟩

/-- In whatever order a letter and a note are built, the letter is built and the note fails, as
each of them does alone. -/
theorem builds_isolated_letters :
    letterDisk.IsTree ∧ letterSession.KeepsClear [letter, note] ∧
      (∀ template ∈ [letter, note], letterSession.stops Network.silent template = false) ∧
        ∃ last jobs, letterSession.buildAll? Network.silent [letter, note] = some (⟨1, 1⟩, last) ∧
          Reached letterSession {Network.silent} [letter, note] last jobs ∧
            Summary.ofJobs jobs = ⟨1, 1⟩ ∧
              ∀ template result, (template, .done result) ∈ jobs →
                letterSession.IsIsolated Network.silent last template result := by
  have clear : letterSession.KeepsClear [letter, note] := by
    unfold KeepsClear
    rw [written, outputs_letters]
    decide +kernel
  have calm : ∀ template ∈ [letter, note],
      letterSession.stops Network.silent template = false := by
    decide +kernel
  obtain ⟨_, _, _, isNew, _⟩ := start_cases start_letter
  obtain ⟨last, jobs, runs, reached, ended⟩ :=
    exists_reached_buildAll? wellPlaced_letters isNew calm
  obtain ⟨_, counted, isolated⟩ := builds_isolated start_letter isTree_letterDisk
    wellPlaced_letters clear (by decide) calm reached
  have summary : (letterSession.buildAll? Network.silent [letter, note]).map Prod.fst =
      some ⟨1, 1⟩ := by
    decide +kernel
  rw [runs] at summary
  have both : Summary.ofJobs jobs = ⟨1, 1⟩ := Option.some.inj summary
  exact ⟨isTree_letterDisk, clear, calm, last, jobs, both ▸ runs, reached, both, isolated⟩

/-- A template with an image that is copied into the directory of the other one. -/
def album : Template :=
  .ofDirectory "/b/a/a"

/-- A template whose directory lies where copies of the other one go. -/
def frame : Template :=
  .ofDirectory "/b/a/b"

/-- The disk with the sources of both. -/
def albumDisk : Disk where
  files :=
    [(["b", "a", "a", "html.t"], "<img src=b/text.png>".toUTF8),
      (["b", "a", "a", "text.t"], "x".toUTF8),
      (["b", "a", "a", "m"], "".toUTF8),
      (["b", "a", "a", "b", "text.png"], squareImage),
      (["b", "a", "b", "html.t"], "x".toUTF8),
      (["b", "a", "b", "text.t"], "x".toUTF8),
      (["b", "a", "b", "m"], "".toUTF8)]
  directories :=
    [["b"], ["b", "a"], ["b", "a", "a"], ["b", "a", "a", "b"], ["b", "a", "b"]]
  workingDirectory := []

/-- The settings of letters, with the templates in the output directory and texts of images. -/
def albumSettings : Settings :=
  { letterSettings with
    places := { letterSettings.places with templates := "/b/a" }
    rendering := { letterSettings.rendering with endings := ["png", "t"] } }

/-- The session that begins there. -/
def albumSession : Session :=
  plainSession albumSettings albumDisk

/-- Templates that lie where copies of images go may disturb each other: the image of the first one
becomes the text of the second one, which fails, while it is built when it is built alone. -/
theorem album_disturbs_frame :
    Session.start .own albumDisk albumSettings = .ok albumSession ∧ albumDisk.IsTree ∧
      (albumSession.build Network.silent frame).1.isOk = true ∧
        ∃ session jobs error,
          Reached albumSession {Network.silent} [album, frame] session jobs ∧
            (frame, .done (.error error)) ∈ jobs := by
  have tree : albumDisk.IsTree :=
    ⟨by decide, by decide, by decide, by decide⟩
  have begun : Reached albumSession {Network.silent} [album, frame] albumSession
      [(album, .waiting), (frame, .waiting)] := .start
  have one := begun.runs (rfl : [(album, Stage.waiting), (frame, .waiting)][0]? = _) rfl
    (runs_build albumSession)
  have both := one.runs (rfl : [(album, _), (frame, Stage.waiting)][1]? = _) rfl
    (runs_build (albumSession.build Network.silent album).2)
  have fails : ((albumSession.build Network.silent album).2.build Network.silent frame).1.isOk =
      false := by decide +kernel
  generalize (albumSession.build Network.silent album).2.build Network.silent frame = done
    at both fails
  obtain ⟨error | built, after⟩ := done
  · exact ⟨start_plain rfl rfl, tree, by decide +kernel, after, _, error, both,
      .tail _ (.head _)⟩
  · cases fails

end Session
end MailPress
