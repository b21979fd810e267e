import Mathlib
import MailPress.Proofs.Project.Course

/-!
# Building again

Deeds that write other places leave the three files of a template alone, both what they hold and
what the writer remembers of them. A build that has written its files remembers them, and a build
whose files hold what they should writes nothing.

A template that was built and is built again, with nothing that it reads changed, gives the same
three files, and none of them is written. This is so in the session that built it, where resets
and sizes are remembered by now, and in a new session on the files that the old one left, when
that can look into the three files. It writes those that it cannot look into.

What carries over from one build to the next are the answers about images: they are settled once
a build has got them, and the cache file together with the servers gives them again.
-/

namespace MailPress
namespace Session

open Image
open MailPress.Path (IsAside)

variable {first session after : Session} {templates : List Template} {places : List String}
  {network : Network} {template other : Template} {suffix : String}
  {answers : String → Except Fault Size}

/-- The path of a file of a template. -/
def artifactPath (first : Session) (template : Template) (suffix : String) : String :=
  first.outputPath (template.artifact suffix)

/-- The writer remembers a file of a template. -/
def Remembers
    (first : Session)
    (template : Template)
    (session : Session)
    (file : String × String) :
    Prop :=
  session.space.writer.remembered? (first.artifactPath template file.1) = some file.2.toUTF8

/-- A path that other places are aside from is left alone. -/
structure LeavesAlone (path : String) (session after : Session) : Prop where
  /-- What the writer remembers is the same. -/
  remembered : after.space.writer.remembered? path = session.space.writer.remembered? path
  /-- What is read goes on to be read. -/
  read : ∀ content, session.space.disk.read? path = some content →
    after.space.disk.read? path = some content
  /-- The content at the location is the same. -/
  content : after.space.disk.content? (session.space.disk.locate path) =
    session.space.disk.content? (session.space.disk.locate path)

namespace LeavesAlone

variable {path : String}

theorem of_space_eq (same : after.space = session.space) : LeavesAlone path session after :=
  ⟨by rw [same], fun content held => by rw [same]; exact held, by rw [same]⟩

theorem of_writes
    {written : String}
    (writes : Disk.Writes written session.space.disk after.space.disk)
    (away : session.space.disk.locate written ≠ session.space.disk.locate path)
    (same : after.space.writer.remembered? path = session.space.writer.remembered? path) :
    LeavesAlone path session after :=
  ⟨same, fun _ held => writes.read? away held, writes.content? away⟩

theorem trans
    {last : Session}
    (first : LeavesAlone path session after)
    (second : LeavesAlone path after last)
    (same : after.space.disk.locate path = session.space.disk.locate path) :
    LeavesAlone path session last :=
  ⟨second.remembered.trans first.remembered,
    fun content held => second.read content (first.read content held),
    (same ▸ second.content).trans first.content⟩

end LeavesAlone

/-- A deed leaves a file of a template alone when the places that it may write are aside. -/
theorem leavesAlone_deed
    (deed : Deed first places network session after)
    (faithful : Faithful first templates session)
    (placed : first.WellPlaced templates)
    (listed : template ∈ templates)
    (member : suffix ∈ Template.suffixes)
    (aside : ∀ place ∈ places,
      IsAside (first.outputPath place) (first.artifactPath template suffix)) :
    LeavesAlone (first.artifactPath template suffix) session after := by
  cases deed with
  | say messages => exact .of_space_eq rfl
  | count compilations => exact .of_space_eq rfl
  | keep reset css compiled => exact .of_space_eq rfl
  | copied names => exact .of_space_eq rfl
  | write place content listed =>
      have path : Path.join session.space.writer.root place = first.outputPath place := by
        rw [faithful.root, outputPath]
      have away := path ▸ aside place listed
      exact .of_writes (session.space.writes_write place content) (away.2 _)
        (Workspace.remembered?_write_of_ne away.1.symm)
  | ask source address warnings enabled unknown remote =>
      obtain ⟨_, eq⟩ | ⟨_, ⟨fault, _, eq⟩ | ⟨size, _, eq⟩⟩ :=
        ask_cases session network source address warnings <;> rw [eq]
      · exact .of_space_eq rfl
      · exact .of_space_eq rfl
      · refine .of_writes (session.sizer.cache.writes_save session.space.disk source size) ?_ rfl
        rw [(faithful.sizer enabled).path, faithful.grows.locate, faithful.grows.locate]
        exact ((placed.cache enabled).2 _ (WellPlaced.outputPath_mem listed
          (List.mem_append_left _ (List.mem_map_of_mem member)))).symm

theorem leavesAlone_deeds
    (deeds : Deeds first places network session after)
    (faithful : Faithful first templates session)
    (placed : first.WellPlaced templates)
    (listed : template ∈ templates)
    (otherListed : other ∈ templates)
    (within : places ⊆ first.places other)
    (member : suffix ∈ Template.suffixes)
    (aside : ∀ place ∈ places,
      IsAside (first.outputPath place) (first.artifactPath template suffix)) :
    LeavesAlone (first.artifactPath template suffix) session after := by
  induction deeds with
  | refl => exact .of_space_eq rfl
  | @tail middle last before deed inductionHypothesis =>
      have later := faithful.deeds placed otherListed within before
      refine inductionHypothesis.trans
        (leavesAlone_deed deed later placed listed member aside) ?_
      rw [later.grows.locate, faithful.grows.locate]

/-- The other places that a build writes are aside from the files of every template. -/
theorem asides_isAside
    (placed : first.WellPlaced templates)
    (member : suffix ∈ Template.suffixes)
    (template other : Template) :
    ∀ place ∈ first.asides other,
      IsAside (first.outputPath place) (first.artifactPath template suffix) :=
  fun _ aside => placed.isAside aside member template

/-- The places that the next step of a build may write are aside from a file of a template, unless
it is this file that the build writes next. -/
theorem nextPlaces_isAside
    {stage : Stage}
    (placed : first.WellPlaced templates)
    (listed : template ∈ templates)
    (otherListed : other ∈ templates)
    (course : first.OnCourse other answers session stage)
    (member : suffix ∈ Template.suffixes)
    (different : other.name ≠ template.name ∨ ∀ artifacts written file left,
      stage = .writing artifacts written (file :: left) → file.1 ≠ suffix) :
    ∀ place ∈ first.nextPlaces other stage,
      IsAside (first.outputPath place) (first.artifactPath template suffix) := by
  have asides := asides_isAside placed member template other
  cases stage with
  | writing artifacts written left =>
      cases left with
      | nil => exact asides
      | cons file left =>
          intro place only
          obtain rfl := List.mem_singleton.mp only
          have ending := Artifacts.mem_suffixes (course.2.1.subset List.mem_cons_self)
          exact Template.isAside_artifact_artifact (placed.found _ otherListed)
            (placed.found _ listed) ending member
            (different.imp_right fun different => different _ _ _ _ rfl) _
  | _ => exact asides

/-- The next step of a build leaves the files alone that it does not write. -/
theorem leavesAlone_advance
    {stage : Stage}
    (next : first.StepsOn network other answers session stage)
    (course : first.OnCourse other answers session stage)
    (faithful : Faithful first templates session)
    (placed : first.WellPlaced templates)
    (listed : template ∈ templates)
    (otherListed : other ∈ templates)
    (member : suffix ∈ Template.suffixes)
    (different : other.name ≠ template.name ∨ ∀ artifacts written file left,
      stage = .writing artifacts written (file :: left) → file.1 ≠ suffix) :
    LeavesAlone (first.artifactPath template suffix) session
      (session.advance network other stage).2 :=
  leavesAlone_deeds next.deeds faithful placed listed otherListed (nextPlaces_subset course) member
    (nextPlaces_isAside placed listed otherListed course member different)

/-! ## Trees -/

theorem isTree_save
    {disk : Disk}
    (tree : disk.IsTree)
    (cache : Cache)
    (source : String)
    (size : Size) :
    (cache.save disk source size).IsTree := by
  have written {ready : Disk} (tree : ready.IsTree) (content : ByteArray) :
      ((ready.write? cache.path content).getD ready).IsTree := by
    cases done : ready.write? cache.path content with
    | none => exact tree
    | some other => exact tree.write? done
  unfold Cache.save
  refine written ?_ _
  cases Path.parent? cache.path with
  | none => exact tree
  | some directory =>
      rw [Option.bind_some]
      cases made : disk.makeDirectory? directory with
      | none => exact tree
      | some ready => exact tree.makeDirectory? made

theorem isTree_deed
    (deed : Deed first places network session after)
    (tree : session.space.disk.IsTree) :
    after.space.disk.IsTree := by
  cases deed with
  | write place content listed => exact Workspace.isTree_write tree place content
  | ask source address warnings enabled unknown remote =>
      obtain ⟨_, eq⟩ | ⟨_, ⟨fault, _, eq⟩ | ⟨size, _, eq⟩⟩ :=
        ask_cases session network source address warnings <;> rw [eq]
      · exact tree
      · exact tree
      · exact isTree_save tree _ source size
  | _ => exact tree

theorem isTree_deeds
    (deeds : Deeds first places network session after)
    (tree : session.space.disk.IsTree) :
    after.space.disk.IsTree := by
  induction deeds with
  | refl => exact tree
  | tail _ deed inductionHypothesis => exact isTree_deed deed inductionHypothesis

/-- The path of a file of a template ends in a name. -/
theorem exists_parts_artifactPath
    (found : template.IsFound)
    (member : suffix ∈ Template.suffixes)
    (first : Session) :
    ∃ front name, Path.parts (first.artifactPath template suffix) = front ++ [name] ∧
      Path.isName name = true := by
  have place := Template.isPlace_artifactNames found member
  have split : Path.parts (first.artifactPath template suffix) =
      (Path.front first.settings.places.output ++
        if template.name.isEmpty then [] else [template.name]) ++ [template.name ++ "." ++ suffix] := by
    rw [artifactPath, outputPath, Template.artifact_eq found member,
      Path.parts_join place.isAbsolute, Path.parts_ofComponents place.2 place.1,
      Template.artifactNames, List.append_assoc]
  exact ⟨_, _, split, place.2 _ (List.mem_append_right _ List.mem_cons_self)⟩

/-! ## What a build remembers of its files -/

/-- A build remembers the files that it has written. -/
def RemembersFiles (first : Session) (template : Template) (session : Session) : Stage → Prop
  | .writing artifacts _ left =>
      ∃ done, done ++ left = artifacts.files ∧ ∀ file ∈ done, first.Remembers template session file
  | .done (.ok built) => ∀ file ∈ built.artifacts.files, first.Remembers template session file
  | _ => True

/-- The files that were written have other endings than the next one. -/
theorem ending_ne
    {artifacts : Artifacts}
    {done left : List (String × String)}
    {file next : String × String}
    (split : done ++ next :: left = artifacts.files)
    (member : file ∈ done) :
    file.1 ∈ Template.suffixes ∧ next.1 ∈ Template.suffixes ∧ file.1 ≠ next.1 := by
  have endings := congrArg (List.map Prod.fst) split
  rw [List.map_append, List.map_cons, artifacts.map_files] at endings
  have distinct : (Template.suffixes).Nodup := by decide
  have listed := List.mem_map_of_mem (f := Prod.fst) member
  rw [← endings] at distinct ⊢
  refine ⟨List.mem_append_left _ listed, List.mem_append_right _ List.mem_cons_self, ?_⟩
  exact (List.nodup_append.mp distinct).2.2 _ listed _ List.mem_cons_self

theorem Remembers.leavesAlone
    {file : String × String}
    (remembers : first.Remembers template session file)
    (alone : LeavesAlone (first.artifactPath template file.1) session after) :
    first.Remembers template after file :=
  alone.remembered.trans remembers

/-- When a file was written, it and the files before it are remembered. -/
theorem remembers_write
    {artifacts : Artifacts}
    {done left : List (String × String)}
    {next : String × String}
    {outcome : Outcome}
    (faithful : Faithful first templates session)
    (placed : first.WellPlaced templates)
    (listed : template ∈ templates)
    (split : done ++ next :: left = artifacts.files)
    (known : ∀ file ∈ done, first.Remembers template session file)
    (success : (session.space.write (template.artifact next.1) next.2.toUTF8).1 = .ok outcome) :
    ∀ file ∈ done ++ [next], first.Remembers template
      { session with space := (session.space.write (template.artifact next.1) next.2.toUTF8).2 }
      file := by
  intro file member
  have deed : Deed first [template.artifact next.1] Network.silent session
      { session with
        space := (session.space.write (template.artifact next.1) next.2.toUTF8).2 } :=
    .write _ _ List.mem_cons_self
  rcases List.mem_append.mp member with before | here
  · obtain ⟨ending, nextEnding, different⟩ := ending_ne split before
    refine (known file before).leavesAlone
      (leavesAlone_deed deed faithful placed listed ending fun place only => ?_)
    rw [List.mem_singleton.mp only]
    exact Template.isAside_artifact_artifact (placed.found _ listed) (placed.found _ listed)
      nextEnding ending (.inr different.symm) _
  · rw [List.mem_singleton.mp here]
    have new := Workspace.remembered?_write success
    rw [faithful.root] at new
    exact new

theorem RemembersFiles.of_isEarly
    {stage : Stage}
    (early : stage.IsEarly) :
    first.RemembersFiles template session stage := by
  cases stage with
  | writing artifacts written left => exact early.elim
  | done result => exact early.elim
  | _ => trivial

/-- Every step of a build remembers what it has written. -/
theorem RemembersFiles.advance
    {stage : Stage}
    (remembers : first.RemembersFiles template session stage)
    (faithful : Faithful first templates session)
    (placed : first.WellPlaced templates)
    (listed : template ∈ templates) :
    first.RemembersFiles template (session.advance network template stage).2
      (session.advance network template stage).1 := by
  by_cases early : stage.IsEarly
  · rcases advance_of_isEarly early session with next | ⟨error, next⟩ | ⟨artifacts, next⟩
    · exact .of_isEarly next
    · rw [next]
      trivial
    · rw [next]
      exact ⟨[], rfl, fun file member => absurd member List.not_mem_nil⟩
  cases stage with
  | writing artifacts written left =>
      obtain ⟨done, split, known⟩ := remembers
      cases left with
      | nil =>
          rw [List.append_nil] at split
          exact fun file member => known file (split ▸ member)
      | cons next left =>
          have new := fun outcome => @remembers_write _ _ _ _ _ _ _ _ outcome
            faithful placed listed split known
          rw [Session.advance]
          generalize session.space.write (template.artifact next.1) next.2.toUTF8 = result at new ⊢
          obtain ⟨error | outcome, space⟩ := result
          · trivial
          · have rest : (done ++ [next]) ++ left = artifacts.files := by rw [← split]; simp
            cases outcome with
            | unchanged => exact ⟨_, rest, new _ rfl⟩
            | written => exact ⟨_, rest, new _ rfl⟩
  | done result => exact remembers
  | _ => exact absurd trivial early

end Session

/-! ## What a second build gives -/

/-- The build comes to the same three files again. -/
structure Built.Agrees (again built : Built) : Prop where
  /-- The page for production is the same. -/
  production : again.artifacts.production = built.artifacts.production
  /-- The page for development is the same. -/
  development : again.artifacts.development = built.artifacts.development
  /-- The plain text is the same. -/
  text : again.artifacts.text = built.artifacts.text

/-- The build comes to the same three files again, and writes none. -/
structure Built.Repeats (again built : Built) : Prop extends again.Agrees built where
  /-- No file is written. -/
  written : again.written = 0

theorem Built.agrees_of_files
    {again built : Built}
    (files : again.artifacts.files = built.artifacts.files) :
    again.Agrees built := by
  simp only [Artifacts.files, List.cons.injEq, Prod.mk.injEq, true_and, and_true] at files
  exact ⟨files.1, files.2.1, files.2.2⟩

/-- On a tree a place that holds a content may be written; it is left alone when the writer knows
the content or can see it. -/
theorem Workspace.write_of_holds
    {space : Workspace}
    {place name : String}
    {front : List String}
    {content : ByteArray}
    {quiet : Prop}
    (tree : space.disk.IsTree)
    (split : Path.parts (Path.join space.writer.root place) = front ++ [name])
    (named : Path.isName name = true)
    (holds : space.writer.remembered? (Path.join space.writer.root place) = some content ∨
      space.writer.remembered? (Path.join space.writer.root place) = none ∧
        space.disk.read? (Path.join space.writer.root place) = some content ∧
        (quiet → space.disk.look? (Path.join space.writer.root place) = some content)) :
    ∃ outcome, (space.write place content).1 = .ok outcome ∧ (quiet → outcome = .unchanged) := by
  rcases space.write_cases place content with ⟨eq, _⟩ | ⟨eq, _⟩ | ⟨eq, other, unseen⟩
  · exact ⟨.unchanged, by rw [eq], fun _ => rfl⟩
  · exact ⟨.unchanged, by rw [eq], fun _ => rfl⟩
  · obtain ⟨unknown, there, seen⟩ := holds.resolve_left other
    refine ⟨.written, ?_, fun quiet => absurd (seen quiet) (unseen unknown)⟩
    rw [eq, store_fst tree split named, tree.refusal?_of_read? split named there]

namespace Session

open Image

variable {first session after fresh : Session} {templates : List Template}
  {files : List (String × String)} {file : String × String} {network : Network}
  {template : Template} {stage : Stage} {answers : String → Except Fault Size} {disk : Disk}
  {settings : Settings} {engines : Engines} {places : List String} {source : String}

/-! ## A build with nothing to write -/

/-- The writer can look into a file of a template. -/
def Shows (first : Session) (template : Template) (suffix : String) : Prop :=
  first.space.disk.locate (first.artifactPath template suffix) ∉ first.space.disk.closed

instance (first : Session) (template : Template) (suffix : String) :
    Decidable (first.Shows template suffix) :=
  inferInstanceAs (Decidable (_ ∉ _))

variable {quiet : Prop}

/-- A file of a template holds what it should: the writer remembers that, or it has not looked at
the file. When there is to be quiet, it can look. -/
def Holds
    (first : Session)
    (template : Template)
    (quiet : Prop)
    (session : Session)
    (file : String × String) :
    Prop :=
  first.Remembers template session file ∨
    session.space.writer.remembered? (first.artifactPath template file.1) = none ∧
      session.space.disk.read? (first.artifactPath template file.1) = some file.2.toUTF8 ∧
      (quiet → first.Shows template file.1)

theorem Holds.leavesAlone
    (holds : first.Holds template quiet session file)
    (alone : LeavesAlone (first.artifactPath template file.1) session after) :
    first.Holds template quiet after file :=
  holds.imp (·.leavesAlone alone) fun ⟨unknown, there, shown⟩ =>
    ⟨alone.remembered.trans unknown, alone.read _ there, shown⟩

/-- What a file holds is read from the disk. -/
theorem Holds.read?
    (holds : first.Holds template quiet session file)
    (faithful : Faithful first templates session)
    (listed : template ∈ templates)
    (member : file.1 ∈ Template.suffixes) :
    session.space.disk.read? (first.artifactPath template file.1) = some file.2.toUTF8 :=
  holds.elim (faithful.honest template listed file.1 member _) (·.2.1)

/-- A file that holds what it should is not refused, and not written when there is to be quiet. -/
theorem Holds.write
    (holds : first.Holds template quiet session file)
    (faithful : Faithful first templates session)
    (tree : session.space.disk.IsTree)
    (found : template.IsFound)
    (member : file.1 ∈ Template.suffixes) :
    ∃ outcome, (session.space.write (template.artifact file.1) file.2.toUTF8).1 = .ok outcome ∧
      (quiet → outcome = .unchanged) := by
  obtain ⟨front, name, split, named⟩ := exists_parts_artifactPath found member first
  have path : Path.join session.space.writer.root (template.artifact file.1) =
      first.artifactPath template file.1 := by
    rw [faithful.root, artifactPath, outputPath]
  refine Workspace.write_of_holds tree (path ▸ split) named ?_
  rw [path]
  rcases holds with known | ⟨unknown, there, shown⟩
  · exact .inl known
  refine .inr ⟨unknown, there, fun quiet => ?_⟩
  have away := shown quiet
  rw [Shows, ← faithful.grows.locate, ← faithful.grows.closed] at away
  rw [Disk.look?_eq, if_neg (mt List.contains_iff_mem.mp away), there]

/-- Every step of a build keeps it idle when its files hold what they should. -/
theorem IsIdle.advance
    (idle : first.IsIdle template quiet stage)
    (course : first.OnCourse template answers session stage)
    (next : first.StepsOn network template answers session stage)
    (faithful : Faithful first templates session)
    (tree : session.space.disk.IsTree)
    (found : template.IsFound)
    (made : first.filesFor template answers = .ok files)
    (holds : ∀ file ∈ files, first.Holds template quiet session file) :
    first.IsIdle template quiet (session.advance network template stage).1 := by
  by_cases early : stage.IsEarly
  · exact next.isIdle early
  cases stage with
  | writing artifacts written left =>
      obtain ⟨same, within, _⟩ := course
      cases left with
      | nil => exact idle
      | cons file left =>
          have member := within.subset List.mem_cons_self
          have listed : file ∈ files := by
            rw [Except.ok.inj (made.symm.trans same)]
            exact member
          obtain ⟨outcome, done, unchanged⟩ :=
            (holds file listed).write faithful tree found (Artifacts.mem_suffixes member)
          rw [Session.advance]
          generalize session.space.write (template.artifact file.1) file.2.toUTF8 = result
            at done
          obtain ⟨_, space⟩ := result
          obtain rfl : _ = Except.ok outcome := done
          cases outcome with
          | unchanged => exact idle
          | written => exact fun quiet => Outcome.noConfusion (unchanged quiet)
  | done result => exact idle
  | _ => exact absurd trivial early

theorem exists_files_eq
    (made : first.filesFor template answers = .ok files) :
    ∃ artifacts : Artifacts, files = artifacts.files := by
  unfold filesFor at made
  cases outlined : first.outline template with
  | error error => simp [outlined, Except.map] at made
  | ok outline =>
      rw [outlined] at made
      exact ⟨_, (Except.ok.inj made).symm⟩

/-- Files that hold what they should go on to do so while a build takes a step. -/
theorem holds_advance
    (course : first.OnCourse template answers session stage)
    (next : first.StepsOn network template answers session stage)
    (faithful : Faithful first templates session)
    (tree : session.space.disk.IsTree)
    (placed : first.WellPlaced templates)
    (listed : template ∈ templates)
    (made : first.filesFor template answers = .ok files)
    (holds : ∀ file ∈ files, first.Holds template quiet session file) :
    ∀ file ∈ files,
      first.Holds template quiet (session.advance network template stage).2 file := by
  obtain ⟨artifacts, rfl⟩ := exists_files_eq made
  intro file member
  have ending := Artifacts.mem_suffixes member
  by_cases here : ∃ artifacts written left, stage = .writing artifacts written (file :: left)
  · obtain ⟨_, written, left, rfl⟩ := here
    obtain ⟨outcome, done, _⟩ :=
      (holds file member).write faithful tree (placed.found template listed) ending
    have remembered := Workspace.remembered?_write done
    rw [faithful.root] at remembered
    rw [Session.advance]
    generalize session.space.write (template.artifact file.1) file.2.toUTF8 = result
      at done remembered
    obtain ⟨_, space⟩ := result
    obtain rfl : _ = Except.ok outcome := done
    cases outcome <;> exact .inl remembered
  · refine (holds file member).leavesAlone (leavesAlone_advance next course faithful placed listed
      listed ending (.inr ?_))
    rintro others written next left rfl same
    have within := Except.ok.inj (made.symm.trans course.1) ▸ course.2.1.subset List.mem_cons_self
    exact here ⟨_, _, _, by rw [Artifacts.eq_of_mem_files member within same.symm]⟩

/-- A build whose files hold what they should comes to these files, and writes none when there is
to be quiet. -/
theorem build_of_holds
    (placed : first.WellPlaced templates)
    (isNew : first.IsNew)
    (listed : template ∈ templates)
    (faithful : Faithful first templates session)
    (tree : session.space.disk.IsTree)
    (agree : ∀ source ∈ first.sources template,
      session.answer network template source = answers source)
    (made : first.filesFor template answers = .ok files)
    (holds : ∀ file ∈ files, first.Holds template quiet session file) :
    ∃ built after, session.build network template = (.ok built, after) ∧
      built.artifacts.files = files ∧ (quiet → built.written = 0) ∧
        Faithful first templates after ∧ after.space.disk.IsTree ∧
          after.AreSettled template (first.sources template) answers ∧
            ∀ file ∈ files, first.Holds template quiet after file := by
  have found := placed.found template listed
  obtain ⟨later, course, tree, idle, holds⟩ := (runs_build session).onCourse
    (fun stage session => session.space.disk.IsTree ∧ first.IsIdle template quiet stage ∧
      ∀ file ∈ files, first.Holds template quiet session file)
    placed isNew listed faithful trivial agree ⟨tree, trivial, holds⟩
    fun stage session _ faithful course next ⟨tree, idle, holds⟩ =>
      ⟨isTree_deeds next.deeds tree, idle.advance course next faithful tree found made holds,
        holds_advance course next faithful tree placed listed made holds⟩
  generalize session.build network template = done at later course tree idle holds
  obtain ⟨error | built, after⟩ := done
  · have none : first.filesFor template answers = .error error := by rw [filesFor, idle]; rfl
    cases none.symm.trans made
  · obtain ⟨same, settled⟩ := course
    exact ⟨built, after, rfl, Except.ok.inj (same.symm.trans made), idle, later, tree, settled,
      holds⟩

/-- A build that succeeds comes to the files that its answers give, and remembers them. -/
theorem remembers_of_build
    {built : Built}
    (placed : first.WellPlaced templates)
    (isNew : first.IsNew)
    (listed : template ∈ templates)
    (faithful : Faithful first templates session)
    (success : session.build network template = (.ok built, after)) :
    Faithful first templates after ∧
      first.filesFor template (session.answer network template) = .ok built.artifacts.files ∧
        after.AreSettled template (first.sources template) (session.answer network template) ∧
          ∀ file ∈ built.artifacts.files, first.Remembers template after file := by
  obtain ⟨later, course, remembers⟩ := (runs_build session).onCourse
    (fun stage session => first.RemembersFiles template session stage)
    placed isNew listed faithful trivial (fun _ _ => rfl) trivial
    fun stage session _ faithful course next remembers =>
      remembers.advance faithful placed listed
  rw [success] at later course remembers
  exact ⟨later, course.1, course.2, remembers⟩

/-- While templates are built a tree stays a tree. -/
theorem Reached.isTree
    {networks : Set Network}
    {jobs : List (Template × Stage)}
    (reached : Reached first networks templates session jobs)
    (placed : first.WellPlaced templates)
    (isNew : first.IsNew)
    (tree : first.space.disk.IsTree) :
    session.space.disk.IsTree := by
  induction reached with
  | start => exact tree
  | say _ _ inductionHypothesis => exact inductionHypothesis
  | @step session jobs reached index template stage job network _ inductionHypothesis =>
      obtain ⟨faithful, courses⟩ := reached.consistent placed isNew
      have member := List.mem_of_getElem? job
      obtain ⟨answers, course⟩ := courses template stage member
      have next := Reached.stepsOn_of_onCourse faithful placed isNew (reached.listed member) course
        network
      exact isTree_deeds next.deeds inductionHypothesis

theorem build?_eq_some_iff {result : Except BuildError Built × Session} :
    session.build? network template = some result ↔
      session.stops network template = false ∧ session.build network template = result := by
  unfold build?
  cases session.stops network template <;> simp

/-! ## A new session -/

/-- A new session on the files that another one left is faithful as well. -/
theorem Faithful.restart
    (faithful : Faithful first templates session)
    (placed : first.WellPlaced templates)
    (started : Session.start engines disk settings = .ok first) :
    ∃ fresh, Session.start engines session.space.disk settings = .ok fresh ∧ fresh.IsNew ∧
      fresh.space.disk = session.space.disk ∧ Faithful first templates fresh := by
  obtain ⟨enginesEq, settingsEq, diskEq, _⟩ := start_cases started
  have load := faithful.load_eq placed
  rw [settingsEq, diskEq] at load
  obtain ⟨fresh, restarted, sameEngines, sameSettings, sameDisk, isNew, renderer⟩ :=
    exists_start_eq started load
  refine ⟨fresh, restarted, isNew, sameDisk, ?_⟩
  exact isNew.faithful (sameEngines.trans enginesEq.symm) (sameSettings.trans settingsEq.symm)
    renderer (sameDisk ▸ faithful.disk)

/-- The servers go on to answer what they answered a session. -/
def AnsweredBy (session : Session) (network : Network) : Prop :=
  ∀ source address answer, address? source = some address →
    session.sizer.asked.lookup source = some answer → fetch network address = answer

/-- While one network answers a session, it answered the session what it answers. -/
theorem AnsweredBy.deeds
    (answered : session.AnsweredBy network)
    (deeds : Deeds first places network session after) :
    after.AnsweredBy network := by
  induction deeds with
  | refl => exact answered
  | tail _ deed inductionHypothesis =>
      cases deed with
      | ask source address warnings enabled unknown remote =>
          obtain ⟨_, eq⟩ | ⟨_, asked⟩ := ask_cases _ network source address warnings
          · rw [eq]
            exact inductionHypothesis
          · intro other otherAddress answer otherRemote known
            by_cases same : other = source
            · subst same
              obtain rfl := Option.some.inj (remote.symm.trans otherRemote)
              rcases asked with ⟨fault, answers, eq⟩ | ⟨size, answers, eq⟩ <;>
                · rw [eq, List.lookup_cons_self] at known
                  rw [answers, Option.some.inj known]
            · refine inductionHypothesis other otherAddress answer otherRemote ?_
              rcases asked with ⟨fault, _, eq⟩ | ⟨size, _, eq⟩ <;>
                · rwa [eq, List.lookup_cons, beq_false_of_ne same] at known
      | _ => exact inductionHypothesis

theorem AnsweredBy.build
    (answered : session.AnsweredBy network)
    (placed : first.WellPlaced templates)
    (isNew : first.IsNew)
    (listed : template ∈ templates)
    (faithful : Faithful first templates session) :
    (session.build network template).2.AnsweredBy network :=
  ((runs_build session).onCourse (fun _ session => session.AnsweredBy network) placed isNew listed
    faithful trivial (fun _ _ => rfl) answered
    fun _ _ _ _ _ next answered => answered.deeds next.deeds).2.2

/-- What is settled is what a new session finds, in its cache file or by asking again. -/
theorem answer_restart
    {given : Except Fault Size}
    (settled : session.IsSettled template source given)
    (faithful : Faithful first templates session)
    (later : Faithful first templates fresh)
    (isNew : fresh.IsNew)
    (same : fresh.space.disk = session.space.disk)
    (enabled : first.settings.images.enable = true)
    (answered : session.AnsweredBy network) :
    fresh.answer network template source = given := by
  have knows := faithful.sizer enabled
  have file := later.sizer enabled
  have unasked : fresh.sizer.asked.lookup source = none := by
    rw [isNew.sizer]
    rfl
  rw [← settled network, answer, answer, unasked, same]
  cases filed : fresh.sizer.cache.get? source with
  | some size =>
      have filed := (file.known source size filed).resolve_right (by simp [unasked])
      rw [same] at filed
      rw [knows.filed source size filed]
  | none =>
      have unfiled : ∀ size, (sizesAt session.space.disk first.settings.imageCache).lookup source ≠
          some size := fun size found => by
        have known := file.filed source size (same ▸ found)
        rw [filed] at known
        cases known
      cases known : session.sizer.cache.get? source with
      | some size =>
          have asked := (knows.known source size known).resolve_left (unfiled size)
          obtain ⟨address, remote⟩ := Option.isSome_iff_exists.mp (knows.asked source _ asked)
          rw [remote]
          exact answered source address _ remote asked
      | none =>
          cases remote : address? source with
          | none => rfl
          | some address =>
              cases asked : session.sizer.asked.lookup source with
              | none => rfl
              | some answer => exact answered source address answer remote asked

/-! ## The result -/

/-- A template that was built in whatever session, and is built again with nothing that it reads
changed, comes to the same three files: at once, and in a new session on the files that are there
then, when the servers answer as they did. At once none is written, and in a new session none
either, when that can look into the three files. -/
theorem rebuild_repeats
    {jobs : List (Template × Stage)}
    {built : Built}
    (started : Session.start engines disk settings = .ok first)
    (tree : disk.IsTree)
    (placed : first.WellPlaced templates)
    (reached : first.Reached Set.univ templates session jobs)
    (listed : template ∈ templates)
    (success : session.build? network template = some (.ok built, after)) :
    ∀ again, ∃ rebuilt last, after.build? again template = some (.ok rebuilt, last) ∧
      rebuilt.Repeats built ∧
        ∀ later, last.AnsweredBy later →
          ∃ fresh, Session.start engines last.space.disk settings = .ok fresh ∧
            ∃ anew final, fresh.build? later template = some (.ok anew, final) ∧
              anew.Agrees built ∧
              ((∀ suffix ∈ Template.suffixes, first.Shows template suffix) →
                anew.Repeats built) := by
  obtain ⟨_, _, diskEq, isNew, _⟩ := start_cases started
  have tree : first.space.disk.IsTree := diskEq ▸ tree
  obtain ⟨runs, success⟩ := build?_eq_some_iff.mp success
  obtain ⟨faithful, _⟩ := reached.consistent placed isNew
  have stops : session.stops network template =
      first.stopsFor template (session.answer network template) :=
    faithful.stops_eq placed isNew listed fun _ _ => rfl
  have treeAfter : (session.build network template).2.space.disk.IsTree :=
    ((runs_build session).onCourse (fun _ session => session.space.disk.IsTree) placed isNew listed
      faithful trivial (fun _ _ => rfl) (reached.isTree placed isNew tree)
      fun _ _ _ _ _ next tree => isTree_deeds next.deeds tree).2.2
  rw [success] at treeAfter
  obtain ⟨faithful, made, settled, remembers⟩ :=
    remembers_of_build placed isNew listed faithful success
  intro again
  have agree := fun source member => settled source member again
  have known : ∀ file ∈ built.artifacts.files, first.Holds template True after file :=
    fun file member => .inl (remembers file member)
  obtain ⟨rebuilt, last, rebuild, files, written, lastFaithful, treeLast, settled, holds⟩ :=
    build_of_holds placed isNew listed faithful treeAfter agree made known
  have runsAgain := (faithful.stops_eq placed isNew listed agree).trans (stops.symm.trans runs)
  refine ⟨rebuilt, last, build?_eq_some_iff.mpr ⟨runsAgain, rebuild⟩,
    ⟨Built.agrees_of_files files, written trivial⟩, fun later answered => ?_⟩
  obtain ⟨fresh, restarted, freshIsNew, same, freshFaithful⟩ := lastFaithful.restart placed started
  have agreeAnew := fun source member => answer_restart (settled source member) lastFaithful
    freshFaithful freshIsNew same (enable_of_mem_sources member) answered
  have there : ∀ file ∈ built.artifacts.files, first.Holds template
      (∀ suffix ∈ Template.suffixes, first.Shows template suffix) fresh file := by
    intro file member
    have ending := Artifacts.mem_suffixes member
    refine .inr ⟨by rw [freshIsNew.writer]; rfl, ?_, fun shown => shown file.1 ending⟩
    rw [same]
    exact (holds file member).read? lastFaithful listed ending
  obtain ⟨anew, final, build, files, written, _⟩ :=
    build_of_holds placed isNew listed freshFaithful (same ▸ treeLast) agreeAnew made there
  have runsAnew := (freshFaithful.stops_eq placed isNew listed agreeAnew).trans
    (stops.symm.trans runs)
  have agrees := Built.agrees_of_files files
  exact ⟨fresh, restarted, anew, final, build?_eq_some_iff.mpr ⟨runsAnew, build⟩, agrees,
    fun shown => ⟨agrees, written shown⟩⟩

/-! ### A letter with an image -/

-- All names are short here: a build with them can be evaluated.

/-- Settings with plain substitution and readable markup. -/
def letterSettings : Settings where
  places :=
    { templates := "/t", output := "/b", common := "/p", cache := "/c"
      doctype := "<!DOCTYPE html>" }
  rendering := { engine := .substitution, endings := ["t"], components := [], markdown := false }
  finish := { minify := false, metaTags := false }
  sheets := { main := "m", resetHead := "h", resetInline := "i" }

/-- A template whose image is on a server. -/
def letter : Template :=
  .ofDirectory "/t/l"

/-- Another template. -/
def note : Template :=
  .ofDirectory "/t/n"

/-- The disk with the sources of the letter; the directory of the note is missing. -/
def letterDisk : Disk where
  files :=
    [(["t", "l", "html.t"], "<img src=//x/y>".toUTF8), (["t", "l", "text.t"], "x".toUTF8),
      (["t", "l", "m"], "".toUTF8)]
  directories := [["t"], ["t", "l"]]
  workingDirectory := []

/-- The session that begins with some settings on a disk without partials. -/
def plainSession (settings : Settings) (disk : Disk) : Session where
  engines := .own
  settings := settings
  renderer := .substitution ⟨[]⟩
  space := ⟨disk, .new settings.places.output⟩
  shared := .none
  sizer := .start disk settings.imageCache settings.images.copyLocal
  messages := []

theorem start_plain
    (engine : settings.rendering.engine = .substitution)
    (components : settings.rendering.components = []) :
    Session.start .own disk settings = .ok (plainSession settings disk) := by
  unfold Session.start
  dsimp only
  rw [components, engine]
  rfl

/-- The session in which the letter is built. -/
def letterSession : Session :=
  plainSession letterSettings letterDisk

theorem start_letter : Session.start .own letterDisk letterSettings = .ok letterSession :=
  start_plain rfl rfl

theorem isTree_letterDisk : letterDisk.IsTree :=
  ⟨by decide, by decide, by decide, by decide⟩

theorem localSources_letter : letterSession.localSources letter = [] := by
  have sources : letterSession.sources letter = ["//x/y"] := by decide +kernel
  rw [localSources, sources]
  decide

theorem localSources_note : letterSession.localSources note = [] := by
  have sources : letterSession.sources note = [] := by decide
  rw [localSources, sources]
  rfl

theorem outputs_letters :
    letterSession.outputs [letter, note] =
      ["/b/l/l.html", "/b/l/l.dev.html", "/b/l/l.txt", "/b/.common/h.css", "/b/.common/i.css",
        "/b/l/css/m.css", "/b/n/n.html", "/b/n/n.dev.html", "/b/n/n.txt", "/b/.common/h.css",
        "/b/.common/i.css", "/b/n/css/m.css"] := by
  simp only [outputs, List.flatMap_cons, List.flatMap_nil, places, asides, copiedSources,
    localSources_letter, localSources_note]
  decide

theorem inputs_letters :
    ∀ template ∈ [letter, note], ∀ path ∈ letterSession.inputs template,
      letterSession.space.disk.IsApart (letterSession.written [letter, note]) path := by
  refine List.forall_mem_cons.mpr ⟨?_, List.forall_mem_singleton.mpr ?_⟩
  · rw [inputs, localSources_letter, written, outputs_letters]
    decide
  · rw [inputs, localSources_note, written, outputs_letters]
    decide

/-- An empty style sheet compiles to an empty one, whatever could be imported. -/
theorem compile?_empty (library : Scss.Library) (path : String) :
    Scss.compile? library path "" = some "" := by
  cbv

theorem wellPlaced_letters : letterSession.WellPlaced [letter, note] where
  found := by decide
  sound := by decide
  inputs := inputs_letters
  partials root member := by
    have none : letterSession.settings.rendering.components = [] := rfl
    rw [none] at member
    cases member
  sheets template listed sheet member other evolves := by
    have read : ∀ template ∈ [letter, note], ∀ sheet ∈ letterSession.sheets template,
        letterSession.space.disk.readText? sheet.path = none ∨
          letterSession.space.disk.readText? sheet.path = some "" := by decide
    have apart := inputs_letters template listed sheet.path (by
      simp only [inputs, List.mem_append, List.mem_map_of_mem member, or_true, true_or])
    unfold Scss.compileFile?
    rw [evolves.readText? apart]
    rcases read template listed sheet member with text | text <;> rw [text]
    · rw [Option.bind_none, Option.bind_none]
    · rw [Option.bind_some, Option.bind_some]
      change Scss.compile? _ _ "" = Scss.compile? _ _ ""
      rw [compile?_empty, compile?_empty]
  cache _ := by
    rw [outputs_letters]
    decide

/-- An image of six by six pixels. -/
def squareImage : ByteArray :=
  ⟨#[137, 80, 78, 71, 13, 10, 26, 10, 0, 0, 0, 13, 73, 72, 68, 82, 0, 0, 0, 6, 0, 0, 0, 6, 8, 0,
    0, 0, 0, 197, 167, 176, 148, 0, 0, 0, 11, 73, 68, 65, 84, 120, 156, 99, 96, 128, 0, 0, 0, 8,
    0, 1, 183, 88, 115, 149, 0, 0, 0, 0, 73, 69, 78, 68, 174, 66, 96, 130]⟩

/-- A network with this image everywhere. -/
def squareServer : Network :=
  fun _ => .ok ⟨200, squareImage⟩

/-- The letter is built, and the size of its image is recorded; built again, and in a new session,
it is the same. -/
theorem rebuild_repeats_letter :
    ∃ built after, letterSession.build? squareServer letter = some (.ok built, after) ∧
      after.sizer.cache.get? "//x/y" = some ⟨6, 6⟩ ∧
        ∃ rebuilt last, after.build? squareServer letter = some (.ok rebuilt, last) ∧
          rebuilt.Repeats built ∧
            ∃ fresh, Session.start .own last.space.disk letterSettings = .ok fresh ∧
              ∃ anew final, fresh.build? squareServer letter = some (.ok anew, final) ∧
                anew.Repeats built := by
  have success : ((letterSession.build? squareServer letter).any fun result =>
      result.1.toOption.isSome &&
        result.2.sizer.cache.get? "//x/y" == some ⟨6, 6⟩) = true := by
    decide +kernel
  obtain ⟨_, _, _, isNew, _⟩ := start_cases start_letter
  have faithful : Faithful letterSession [letter, note] letterSession :=
    isNew.faithful rfl rfl rfl (.refl _ _)
  have unasked : letterSession.AnsweredBy squareServer := fun _ _ _ _ known => by cases known
  have answered := unasked.build wellPlaced_letters isNew List.mem_cons_self faithful
  cases done : letterSession.build? squareServer letter with
  | none =>
      rw [done] at success
      cases success
  | some result =>
      obtain ⟨error | built, after⟩ := result
      · rw [done] at success
        cases success
      rw [done] at success
      have recorded : after.sizer.cache.get? "//x/y" = some ⟨6, 6⟩ := beq_iff_eq.mp success
      obtain ⟨_, same⟩ := build?_eq_some_iff.mp done
      have later := (remembers_of_build wellPlaced_letters isNew List.mem_cons_self faithful same).1
      rw [same] at answered
      obtain ⟨rebuilt, last, again, repeats, anew⟩ := rebuild_repeats start_letter
        isTree_letterDisk wellPlaced_letters .start List.mem_cons_self done squareServer
      have lastAnswered := answered.build wellPlaced_letters isNew List.mem_cons_self later
      rw [(build?_eq_some_iff.mp again).2] at lastAnswered
      obtain ⟨fresh, restarted, others, final, build, _, shown⟩ := anew squareServer lastAnswered
      exact ⟨built, after, rfl, recorded, rebuilt, last, again, repeats, fresh, restarted, others,
        final, build, shown (by decide)⟩

/-! ### Files that a new session cannot look into, or looks into for sizes -/

/-- What is built of a template, if it is. -/
def built? (session : Session) (network : Network) (template : Template) : Option Built :=
  (session.build? network template).bind fun result => result.1.toOption

/-- A build that succeeds has assembled what it built. -/
theorem assemble_of_built?
    {built : Built}
    (success : session.built? network template = some built) :
    (session.assemble network template).1.toOption = some built.artifacts := by
  obtain ⟨⟨result, after⟩, runs, done⟩ := Option.bind_eq_some_iff.mp success
  obtain ⟨_, same⟩ := build?_eq_some_iff.mp runs
  cases result with
  | error error => cases done
  | ok other =>
      obtain rfl := Option.some.inj done
      unfold build at same
      split at same
      · cases same
      · next artifacts _ assembled =>
          rw [assembled]
          dsimp only at same
          split at same
          · cases same
          · cases same
            rfl

/-- The letter's settings without compiled style sheets. -/
def bareSettings : Settings :=
  { letterSettings with sheets := { letterSettings.sheets with writeCss := false } }

/-- The disk of the letter, where its files cannot be looked into. -/
def closedLetterDisk : Disk :=
  { letterDisk with
    closed := [["b", "l", "l.html"], ["b", "l", "l.dev.html"], ["b", "l", "l.txt"]] }

/-- Settings with the cache file in the place of a text that is built. -/
def memoSettings : Settings :=
  { bareSettings with
    places := { bareSettings.places with cache := "/b/n" }
    images := { cacheFile := "n.txt" } }

/-- The disk with the sources of the note, whose text tells the size of an image that is missing. -/
def memoDisk : Disk where
  files :=
    [(["t", "n", "html.t"], "<img src=a>".toUTF8),
      (["t", "n", "text.t"], "\x7b\"a\":[6,4]\x7d".toUTF8),
      (["t", "n", "m"], "".toUTF8)]
  directories := [["t"], ["t", "n"]]
  workingDirectory := []

/-- The session in which the note is built. -/
def memoSession : Session :=
  plainSession memoSettings memoDisk

/-- The session that begins after that. -/
def memoSessionAfter : Session :=
  plainSession memoSettings (memoSession.build Network.silent note).2.space.disk

theorem readSizes?_memo : readSizes? "\x7b\"a\":[6,4]\x7d" = some [("a", ⟨6, 4⟩)] := by
  cbv

/-- The later session takes the text for its cache file, and so it knows the size of the image. -/
theorem assemble_memoSessionAfter :
    (memoSessionAfter.assemble Network.silent note).1.toOption.map Artifacts.production =
      some ("<!DOCTYPE html>\n<img src=\"a\" border=\"0\" width=\"6\" height=\"4\"" ++
        " style=\"width:6px;height:4px;\">") := by
  have path : memoSettings.imageCache = "/b/n/n.txt" := by decide
  have text : (memoSession.build Network.silent note).2.space.disk.readText? "/b/n/n.txt" =
      some "\x7b\"a\":[6,4]\x7d" := by
    decide +kernel
  have sizes : sizesAt (memoSession.build Network.silent note).2.space.disk "/b/n/n.txt" =
      [("a", ⟨6, 4⟩)] := by
    rw [sizesAt, text, Option.bind_some, readSizes?_memo]
    rfl
  rw [memoSessionAfter, plainSession, Sizer.start, Cache.load, path, sizes]
  decide +kernel

/-- Files that a new session cannot look into are written again. And where a text that was built
is the cache file of a new session, the page comes out otherwise. -/
theorem rebuild_differs :
    (let first := plainSession bareSettings closedLetterDisk
      let later := plainSession bareSettings (first.build Network.silent letter).2.space.disk
      Session.start .own closedLetterDisk bareSettings = .ok first ∧
        (first.built? Network.silent letter).map Built.written = some 3 ∧
          (later.built? Network.silent letter).map Built.written = some 3) ∧
    Session.start .own memoDisk memoSettings = .ok memoSession ∧
      (memoSession.built? Network.silent note).map (fun built => built.artifacts.production) =
          some "<!DOCTYPE html>\n<img src=\"a\" border=\"0\">" ∧
        ∀ anew, memoSessionAfter.built? Network.silent note = some anew →
          anew.artifacts.production =
            "<!DOCTYPE html>\n<img src=\"a\" border=\"0\" width=\"6\" height=\"4\"" ++
              " style=\"width:6px;height:4px;\">" := by
  refine ⟨⟨start_plain rfl rfl, ?_, ?_⟩, start_plain rfl rfl, ?_, fun anew success => ?_⟩
  · decide +kernel
  · decide +kernel
  · decide +kernel
  · have assembled := assemble_memoSessionAfter
    rw [assemble_of_built? success] at assembled
    exact Option.some.inj assembled

end Session
end MailPress
