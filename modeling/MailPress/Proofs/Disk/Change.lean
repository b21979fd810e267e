import MailPress.Proofs.Disk.Writer

/-!
# What writing changes

Writing a path makes directories that the path needs and puts a content at its location. A disk
on which some paths were written differs from the disk as it was at these locations alone.

A path that passes none of them leads where it led, and what is read there is the same.
-/

namespace MailPress
namespace Disk

open MailPress.Path

variable {disk other third : Disk} {paths : List String} {path : String} {location : List String}

/-- A path was written, as far as that was possible: directories that it needs were made, and
perhaps a content was put at its location. -/
def Writes (path : String) (disk other : Disk) : Prop :=
  ∃ made, made ⊆ disk.parents path ∧
    (other = disk.withDirectories made ∨
      ∃ content, other = (disk.withDirectories made).withContent (disk.locate path) content)

/-- Some paths were written, any number of times and in any order. -/
structure Evolves (paths : List String) (disk other : Disk) : Prop extends disk.Grows other where
  /-- Every new directory is one that a path needs. -/
  made : ∀ location, other.hasDirectory location = true →
    disk.hasDirectory location = true ∨ ∃ path ∈ paths, location ∈ disk.parents path
  /-- The files at other locations are the same, in the same order. -/
  files : ∀ keep : List String → Bool, (∀ path ∈ paths, keep (disk.locate path) = false) →
    (other.files.filter fun file => keep file.1) = disk.files.filter fun file => keep file.1

theorem Grows.parents (grows : disk.Grows other) (path : String) :
    other.parents path = disk.parents path := by
  have same : other.enteredBy = disk.enteredBy := by
    funext path
    rw [enteredBy, grows.start, enteredBy]
  rw [Disk.parents, same, Disk.parents]

theorem filter_putContent
    {keep : List String → Bool}
    (dropped : keep location = false)
    (content : ByteArray)
    (files : List (List String × ByteArray)) :
    ((putContent location content files).filter fun file => keep file.1) =
      files.filter fun file => keep file.1 := by
  induction files with
  | nil => simp [putContent, dropped]
  | cons file files inductionHypothesis =>
      unfold putContent
      split
      · next found => simp [dropped, found]
      · rw [List.filter_cons, List.filter_cons, inductionHypothesis]

/-- What is read goes on to be read while directories are made. -/
theorem read?_withDirectories
    {content : ByteArray}
    (held : disk.read? path = some content)
    (made : List (List String)) :
    (disk.withDirectories made).read? path = some content := by
  unfold read? at held ⊢
  obtain ⟨location, leads, found⟩ := Option.bind_eq_some_iff.mp held
  rw [(grows_withDirectories disk made).resolve? leads, Option.bind_some, content?_withDirectories]
  exact found

namespace Writes

theorem grows (writes : Writes path disk other) : disk.Grows other := by
  obtain ⟨made, _, rfl | ⟨content, rfl⟩⟩ := writes
  · exact grows_withDirectories disk made
  · exact (grows_withDirectories disk made).trans (grows_withContent _ _ _)

theorem hasDirectory
    (writes : Writes path disk other)
    (there : other.hasDirectory location = true) :
    disk.hasDirectory location = true ∨ location ∈ disk.parents path := by
  obtain ⟨made, within, rfl | ⟨content, rfl⟩⟩ := writes
  all_goals
    simp only [hasDirectory_withContent, hasDirectory_withDirectories, Bool.or_eq_true,
      List.contains_iff_mem] at there
    exact there.imp_right fun member => within member

theorem content?
    (writes : Writes path disk other)
    (away : disk.locate path ≠ location) :
    other.content? location = disk.content? location := by
  obtain ⟨made, _, rfl | ⟨content, rfl⟩⟩ := writes
  · exact content?_withDirectories disk made location
  · rw [content?_withContent, if_neg (Ne.symm away), content?_withDirectories]

/-- What is read at one location goes on to be read while another one is written. -/
theorem read?
    {kept : String}
    {content : ByteArray}
    (writes : Writes path disk other)
    (away : disk.locate path ≠ disk.locate kept)
    (held : disk.read? kept = some content) :
    other.read? kept = some content := by
  unfold Disk.read? at held ⊢
  obtain ⟨location, leads, found⟩ := Option.bind_eq_some_iff.mp held
  rw [writes.grows.resolve? leads, Option.bind_some]
  exact (writes.content? (eq_locate leads ▸ away)).trans found

theorem files
    (writes : Writes path disk other)
    {keep : List String → Bool}
    (dropped : keep (disk.locate path) = false) :
    (other.files.filter fun file => keep file.1) = disk.files.filter fun file => keep file.1 := by
  obtain ⟨made, _, rfl | ⟨content, rfl⟩⟩ := writes
  · rw [files_withDirectories]
  · rw [withContent, filter_putContent dropped, files_withDirectories]

end Writes

namespace Evolves

theorem refl (paths : List String) (disk : Disk) : disk.Evolves paths disk :=
  ⟨.refl disk, fun _ there => .inl there, fun _ _ => rfl⟩

theorem mono
    {more : List String}
    (evolves : disk.Evolves paths other)
    (within : paths ⊆ more) :
    disk.Evolves more other where
  toGrows := evolves.toGrows
  made location there := (evolves.made location there).imp_right fun ⟨path, member, needed⟩ =>
    ⟨path, within member, needed⟩
  files keep dropped := evolves.files keep fun path member => dropped path (within member)

/-- One more of the paths is written. -/
theorem write
    (evolves : disk.Evolves paths other)
    (member : path ∈ paths)
    (writes : Writes path other third) :
    disk.Evolves paths third where
  toGrows := evolves.toGrows.trans writes.grows
  made location there := by
    rcases writes.hasDirectory there with old | new
    · exact evolves.made location old
    · exact .inr ⟨path, member, evolves.parents path ▸ new⟩
  files keep dropped := by
    have here := dropped path member
    rw [← evolves.locate] at here
    rw [writes.files here, evolves.files keep dropped]

end Evolves

/-! ## Reading apart from what changes -/

/-- The locations that change when some paths are written: theirs, and those of the directories
that are missing. -/
def changes (disk : Disk) (paths : List String) : List (List String) :=
  paths.flatMap fun path =>
    disk.locate path :: (disk.parents path).filter fun location => !disk.hasDirectory location

/-- A path that passes no location that changes. -/
def IsApart (disk : Disk) (paths : List String) (path : String) : Prop :=
  ∀ location ∈ passed (disk.start path) (parts path), location ∉ disk.changes paths

instance (disk : Disk) (paths : List String) (path : String) :
    Decidable (disk.IsApart paths path) :=
  inferInstanceAs (Decidable (∀ location ∈ _, location ∉ _))

/-- Whether a path can be stored depends on nothing that changes while some paths are written. The
path leads to its location whatever is there; none of the others lies where it needs a directory,
and none needs a directory where it lies. -/
structure IsClear (disk : Disk) (paths : List String) (path : String) : Prop where
  /-- The path leads to its location. -/
  leads : disk.resolve? path = some (disk.locate path)
  /-- The location is in a directory that the path names. -/
  below : (disk.locate path).dropLast ∈ disk.parents path
  /-- Nothing is written where a directory is needed. -/
  files : ∀ other ∈ paths, disk.locate other ∉ disk.parents path
  /-- No directory is made where the path leads. -/
  free : ∀ other ∈ paths, disk.locate path ∉ disk.parents other

theorem isClear_iff (disk : Disk) (paths : List String) (path : String) :
    disk.IsClear paths path ↔
      disk.resolve? path = some (disk.locate path) ∧
        (disk.locate path).dropLast ∈ disk.parents path ∧
          (∀ other ∈ paths, disk.locate other ∉ disk.parents path) ∧
            ∀ other ∈ paths, disk.locate path ∉ disk.parents other :=
  ⟨fun clear => ⟨clear.leads, clear.below, clear.files, clear.free⟩,
    fun ⟨leads, below, files, free⟩ => ⟨leads, below, files, free⟩⟩

instance (disk : Disk) (paths : List String) (path : String) :
    Decidable (disk.IsClear paths path) :=
  decidable_of_iff _ (disk.isClear_iff paths path).symm

namespace Evolves

theorem hasDirectory
    (evolves : disk.Evolves paths other)
    (away : location ∉ disk.changes paths) :
    other.hasDirectory location = disk.hasDirectory location := by
  cases there : disk.hasDirectory location with
  | true => exact evolves.directories location there
  | false =>
      refine Bool.eq_false_iff.mpr fun new => away ?_
      obtain ⟨path, member, needed⟩ := (evolves.made location new).resolve_left (by simp [there])
      exact List.mem_flatMap.mpr ⟨path, member,
        List.mem_cons_of_mem _ (List.mem_filter.mpr ⟨needed, by simp [there]⟩)⟩

theorem lookup_filter_beq
    (location : List String)
    (files : List (List String × ByteArray)) :
    (files.filter fun file => file.1 == location).lookup location = files.lookup location := by
  induction files with
  | nil => rfl
  | cons file files inductionHypothesis =>
      obtain ⟨name, content⟩ := file
      rw [List.filter_cons, List.lookup_cons]
      split
      · rw [List.lookup_cons, inductionHypothesis]
      · grind

theorem content?
    (evolves : disk.Evolves paths other)
    (away : ∀ path ∈ paths, disk.locate path ≠ location) :
    other.content? location = disk.content? location := by
  have same := evolves.files (· == location) fun path member =>
    beq_false_of_ne (away path member)
  rw [Disk.content?, Disk.content?, ← lookup_filter_beq location other.files, same,
    lookup_filter_beq]

theorem content?_of_not_mem
    (evolves : disk.Evolves paths other)
    (away : location ∉ disk.changes paths) :
    other.content? location = disk.content? location := by
  refine evolves.content? fun path member same => away ?_
  exact List.mem_flatMap.mpr ⟨path, member, same ▸ List.mem_cons_self⟩

theorem resolve?
    (evolves : disk.Evolves paths other)
    (apart : disk.IsApart paths path) :
    other.resolve? path = disk.resolve? path := by
  have same := @foldlM_step_congr other disk (disk.start path) (parts path)
    fun place member => evolves.hasDirectory (apart place member)
  unfold Disk.resolve?
  dsimp only
  rw [evolves.workingDirectory]
  split
  · rfl
  · exact same

theorem locate_not_mem
    (apart : disk.IsApart paths path)
    (leads : disk.resolve? path = some location) :
    location ∉ disk.changes paths := by
  obtain rfl := eq_locate leads
  exact apart _ (foldl_enter_mem_passed _ _)

theorem read?
    (evolves : disk.Evolves paths other)
    (apart : disk.IsApart paths path) :
    other.read? path = disk.read? path := by
  rw [Disk.read?, Disk.read?, evolves.resolve? apart]
  cases leads : disk.resolve? path with
  | none => rfl
  | some location => exact evolves.content?_of_not_mem (locate_not_mem apart leads)

theorem readText?
    (evolves : disk.Evolves paths other)
    (apart : disk.IsApart paths path) :
    other.readText? path = disk.readText? path := by
  rw [Disk.readText?, evolves.read? apart, Disk.readText?]

theorem isFile
    (evolves : disk.Evolves paths other)
    (apart : disk.IsApart paths path) :
    other.isFile path = disk.isFile path := by
  rw [Disk.isFile, Disk.isFile, evolves.resolve? apart]
  cases leads : disk.resolve? path with
  | none => rfl
  | some location =>
      rw [Option.any_some, Option.any_some, hasFile, hasFile,
        evolves.content?_of_not_mem (locate_not_mem apart leads)]

theorem isDirectory
    (evolves : disk.Evolves paths other)
    (apart : disk.IsApart paths path) :
    other.isDirectory path = disk.isDirectory path := by
  rw [Disk.isDirectory, Disk.isDirectory, evolves.resolve? apart]
  cases leads : disk.resolve? path with
  | none => rfl
  | some location =>
      rw [Option.any_some, Option.any_some,
        evolves.hasDirectory (locate_not_mem apart leads)]

/-- The files below a directory that nothing is written into are the same. -/
theorem filesBelow
    (evolves : disk.Evolves paths other)
    (away : ∀ change ∈ disk.changes paths, below? location change = none) :
    other.filesBelow location = disk.filesBelow location := by
  have same := evolves.files (fun place => (below? location place).isSome) fun path member => by
    rw [away _ (List.mem_flatMap.mpr ⟨path, member, List.mem_cons_self⟩), Option.isSome_none]
  have kept (files : List (List String × ByteArray)) :
      (files.filterMap fun file => (below? location file.1).map fun names => (names, file.2)) =
        (files.filter fun file => (below? location file.1).isSome).filterMap
          fun file => (below? location file.1).map fun names => (names, file.2) := by
    rw [List.filterMap_filter]
    refine List.filterMap_congr fun file _ => ?_
    cases below? location file.1 <;> rfl
  rw [Disk.filesBelow, kept, same, ← kept, Disk.filesBelow]

end Evolves
end Disk

/-! ## Writing through a workspace -/

namespace Workspace

open MailPress.Path

variable {space : Workspace} {place : String} {content old : ByteArray}

/-- Storing writes the path; the memory and the files change only with success. -/
theorem store_spec (space : Workspace) (path : String) (content : ByteArray) :
    let done := space.store path content
    Disk.Writes path space.disk done.2.disk ∧
      ((∃ error made, done.1 = .error error ∧ done.2.writer = space.writer ∧
          done.2.disk = space.disk.withDirectories made) ∨
        (done.1 = .ok .written ∧ done.2.writer = space.writer.remember path content ∧
          done.2.disk.read? path = some content)) := by
  rcases space.store_cases path content with
    ⟨error, locations, within, eq⟩ | ⟨ready, done, prepared, written, eq⟩
  · rw [eq]
    exact ⟨⟨locations, within, .inl rfl⟩, .inl ⟨error, locations, rfl, rfl, rfl⟩⟩
  · rw [eq]
    obtain ⟨locations, within, rfl⟩ := eq_withDirectories_of_prepared? prepared
    obtain ⟨leads, _, _, rfl⟩ := Disk.write?_eq_some_iff.mp written
    have same := (Disk.grows_withDirectories space.disk locations).locate path
    exact ⟨⟨locations, within, .inr ⟨content, by rw [same]⟩⟩,
      .inr ⟨rfl, rfl, Disk.read?_withContent leads content⟩⟩

/-- Writing to a place: the file is left alone when it is known to hold the content, or it is
stored. -/
theorem write_cases (space : Workspace) (place : String) (content : ByteArray) :
    let path := join space.writer.root place
    space.write place content = (.ok .unchanged, space) ∧
        space.writer.remembered? path = some content ∨
      space.write place content =
          (.ok .unchanged, { space with writer := space.writer.remember path content }) ∧
        space.disk.look? path = some content ∧ space.writer.remembered? path = none ∨
      space.write place content = space.store path content ∧
        space.writer.remembered? path ≠ some content ∧
        (space.writer.remembered? path = none → space.disk.look? path ≠ some content) := by
  unfold write
  dsimp only
  cases known : space.writer.remembered? (join space.writer.root place) with
  | some old =>
      by_cases same : old = content
      · simp [same]
      · simp [same]
  | none =>
      by_cases same : space.disk.look? (join space.writer.root place) = some content
      · simp [same]
      · simp [same]

theorem writes_write (space : Workspace) (place : String) (content : ByteArray) :
    Disk.Writes (join space.writer.root place) space.disk (space.write place content).2.disk := by
  have still : Disk.Writes (join space.writer.root place) space.disk space.disk :=
    ⟨[], List.nil_subset _, .inl rfl⟩
  rcases write_cases space place content with ⟨eq, _⟩ | ⟨eq, _⟩ | ⟨eq, _⟩ <;> rw [eq]
  · exact still
  · exact still
  · exact (store_spec space _ content).1

@[simp] theorem root_write (space : Workspace) (place : String) (content : ByteArray) :
    (space.write place content).2.writer.root = space.writer.root := by
  rcases write_cases space place content with ⟨eq, _⟩ | ⟨eq, _⟩ | ⟨eq, _⟩ <;> rw [eq]
  · rfl
  · obtain ⟨_, ⟨_, _, _, same, _⟩ | ⟨_, same, _⟩⟩ := store_spec space (join space.writer.root place) content
    all_goals rw [same]
    rfl

/-- The memory of a path with other components stays. -/
theorem remembered?_write_of_ne
    {other : String}
    (different : components other ≠ components (join space.writer.root place)) :
    (space.write place content).2.writer.remembered? other = space.writer.remembered? other := by
  have kept := (space.writer.remembered?_remember (join space.writer.root place) content
    other).trans (if_neg different)
  rcases write_cases space place content with ⟨eq, _⟩ | ⟨eq, _⟩ | ⟨eq, _⟩ <;> rw [eq]
  · exact kept
  · obtain ⟨_, ⟨_, _, _, same, _⟩ | ⟨_, same, _⟩⟩ := store_spec space (join space.writer.root place) content
    · rw [same]
    · rw [same, kept]

/-- After success the content is remembered. -/
theorem remembered?_write
    {outcome : Outcome}
    (success : (space.write place content).1 = .ok outcome) :
    (space.write place content).2.writer.remembered? (join space.writer.root place) =
      some content := by
  have remembered := (space.writer.remembered?_remember (join space.writer.root place) content
    (join space.writer.root place)).trans (if_pos rfl)
  rcases write_cases space place content with ⟨eq, known⟩ | ⟨eq, _⟩ | ⟨eq, _⟩ <;>
    rw [eq] at success ⊢
  · exact known
  · exact remembered
  · obtain ⟨_, ⟨error, _, fails, _⟩ | ⟨_, same, _⟩⟩ :=
      store_spec space (join space.writer.root place) content
    · cases fails.symm.trans success
    · rw [same, remembered]

/-- After success the file holds the content, unless the memory of it was wrong. -/
theorem read?_write
    {outcome : Outcome}
    (honest : ∀ old, space.writer.remembered? (join space.writer.root place) = some old →
      space.disk.read? (join space.writer.root place) = some old)
    (success : (space.write place content).1 = .ok outcome) :
    (space.write place content).2.disk.read? (join space.writer.root place) = some content := by
  rcases write_cases space place content with ⟨eq, known⟩ | ⟨eq, there, _⟩ | ⟨eq, _⟩ <;>
    rw [eq] at success ⊢
  · exact honest content known
  · exact Disk.read?_of_look? there
  · obtain ⟨_, ⟨error, _, fails, _⟩ | ⟨_, _, there⟩⟩ :=
      store_spec space (join space.writer.root place) content
    · cases fails.symm.trans success
    · exact there

/-- A failure leaves the memory as it is, and at most directories are new. -/
theorem write_of_error
    {error : BuildError}
    (fails : (space.write place content).1 = .error error) :
    (space.write place content).2.writer = space.writer ∧
      ∃ made, (space.write place content).2.disk = space.disk.withDirectories made := by
  rcases write_cases space place content with ⟨eq, _⟩ | ⟨eq, _⟩ | ⟨eq, _⟩ <;> rw [eq] at fails ⊢
  · cases fails
  · cases fails
  · obtain ⟨_, ⟨_, made, _, same, disk⟩ | ⟨success, _⟩⟩ :=
      store_spec space (join space.writer.root place) content
    · exact ⟨same, made, disk⟩
    · cases success.symm.trans fails

/-! ### The same outcome on two disks -/

theorem write?_eq_none_iff
    {disk : Disk}
    {path : String}
    (leads : disk.resolve? path = some (disk.locate path))
    (content : ByteArray) :
    disk.write? path content = none ↔
      disk.hasDirectory (disk.locate path) = true ∨
        disk.hasDirectory (disk.locate path).dropLast = false := by
  unfold Disk.write?
  rw [leads]
  dsimp only
  split
  · next blocked => simpa using blocked
  · next free => simpa using free

variable {other : Workspace}

/-- Storing a path has the same outcome on a disk with more directories, when the same locations
on the way hold files and the location of the path is a directory on both or on neither. -/
theorem store_fst_congr
    {path : String}
    (grows : space.disk.Grows other.disk)
    (leads : space.disk.resolve? path = some (space.disk.locate path))
    (files : ∀ location ∈ space.disk.parents path,
      other.disk.hasFile location = space.disk.hasFile location)
    (free : other.disk.hasDirectory (space.disk.locate path) =
      space.disk.hasDirectory (space.disk.locate path))
    (below : (space.disk.locate path).dropLast ∈ space.disk.parents path)
    (content : ByteArray) :
    (other.store path content).1 = (space.store path content).1 := by
  unfold Disk.parents at files below
  unfold store
  dsimp only
  cases parent : parent? path with
  | none =>
      rw [parent] at below
      cases below
  | some directory =>
      rw [parent, Option.map_some, Option.getD_some] at files below
      have entered : other.disk.enteredBy directory = space.disk.enteredBy directory := by
        rw [Disk.enteredBy, grows.start, Disk.enteredBy]
      have blocked : (space.disk.enteredBy directory).any other.disk.hasFile =
          (space.disk.enteredBy directory).any space.disk.hasFile := by
        rw [Bool.eq_iff_iff, List.any_eq_true, List.any_eq_true]
        exact exists_congr fun location => and_congr_right fun member => by rw [files _ member]
      have made := Disk.grows_withDirectories space.disk (space.disk.enteredBy directory)
      have otherMade := Disk.grows_withDirectories other.disk (space.disk.enteredBy directory)
      have writes := write?_eq_none_iff (by rw [made.locate]; exact made.resolve? leads) content
      have otherWrites := write?_eq_none_iff (by
        rw [otherMade.locate, grows.locate]
        exact otherMade.resolve? (grows.resolve? leads)) content
      rw [made.locate] at writes
      rw [otherMade.locate, grows.locate] at otherWrites
      simp only [Disk.hasDirectory_withDirectories, List.contains_iff_mem.mpr below, Bool.or_true,
        Bool.true_eq_false, or_false, free] at writes otherWrites
      have same := otherWrites.trans writes.symm
      simp only [Option.elim_some, Disk.makeDirectory?_eq, entered, blocked]
      cases (space.disk.enteredBy directory).any space.disk.hasFile with
      | true => rfl
      | false =>
          simp only [Bool.false_eq_true, if_false]
          cases written : (space.disk.withDirectories
              (space.disk.enteredBy directory)).write? path content with
          | none => rw [same.mpr written]
          | some done =>
              have can := mt same.mp (written ▸ Option.some_ne_none done)
              obtain ⟨otherDone, otherWritten⟩ := Option.ne_none_iff_exists'.mp can
              rw [otherWritten]

/-- Writing has the same outcome when the same is remembered, a look shows the same and storing has
the same outcome. -/
theorem write_fst_congr
    (root : other.writer.root = space.writer.root)
    (memory : other.writer.remembered? (join space.writer.root place) =
      space.writer.remembered? (join space.writer.root place))
    (look : other.disk.look? (join space.writer.root place) =
      space.disk.look? (join space.writer.root place))
    (store : (other.store (join space.writer.root place) content).1 =
      (space.store (join space.writer.root place) content).1) :
    (other.write place content).1 = (space.write place content).1 := by
  unfold write
  simp only [root, memory, look]
  split
  · split
    · rfl
    · exact store
  · split
    · rfl
    · exact store

/-- Storing a path that is clear of others has the same outcome whatever was written to these. -/
theorem store_fst_of_isClear
    {paths : List String}
    {path : String}
    (evolves : space.disk.Evolves paths other.disk)
    (clear : space.disk.IsClear paths path)
    (content : ByteArray) :
    (other.store path content).1 = (space.store path content).1 := by
  refine store_fst_congr evolves.toGrows clear.leads (fun location member => ?_) ?_ clear.below content
  · rw [Disk.hasFile, Disk.hasFile, evolves.content? fun written listed same =>
      clear.files written listed (same ▸ member)]
  · cases there : space.disk.hasDirectory (space.disk.locate path) with
    | true => exact evolves.directories _ there
    | false =>
        refine Bool.eq_false_iff.mpr fun made => ?_
        rcases evolves.made _ made with old | ⟨written, listed, needed⟩
        · cases there.symm.trans old
        · exact clear.free written listed needed

/-- Writing a place that is clear of others succeeds whatever was written to these, if it would
have succeeded before, and then the file holds the content. -/
theorem write_of_isClear
    {paths : List String}
    {outcome : Outcome}
    (evolves : space.disk.Evolves paths other.disk)
    (root : other.writer.root = space.writer.root)
    (memory : other.writer.remembered? (join space.writer.root place) =
      space.writer.remembered? (join space.writer.root place))
    (clear : space.disk.IsClear paths (join space.writer.root place))
    (away : ∀ path ∈ paths,
      space.disk.locate path ≠ space.disk.locate (join space.writer.root place))
    (honest : ∀ old, space.writer.remembered? (join space.writer.root place) = some old →
      space.disk.read? (join space.writer.root place) = some old)
    (success : (space.write place content).1 = .ok outcome) :
    (other.write place content).1 = .ok outcome ∧
      (other.write place content).2.disk.content?
        (space.disk.locate (join space.writer.root place)) = some content := by
  have leads := evolves.toGrows.resolve? clear.leads
  have read : other.disk.read? (join space.writer.root place) =
      space.disk.read? (join space.writer.root place) := by
    rw [Disk.read?, Disk.read?, clear.leads, leads, Option.bind_some, Option.bind_some,
      evolves.content? away]
  have look : other.disk.look? (join space.writer.root place) =
      space.disk.look? (join space.writer.root place) := by
    rw [Disk.look?_eq, Disk.look?_eq, read, evolves.toGrows.locate, evolves.closed]
  have same := write_fst_congr root memory look (store_fst_of_isClear evolves clear content)
  have holds := read?_write (root ▸ fun old remembered => read.trans (honest old
    (memory.symm.trans remembered))) (same.trans success)
  have writes := writes_write other place content
  rw [root, Disk.read?, writes.grows.resolve? leads, Option.bind_some] at holds
  exact ⟨same.trans success, holds⟩

end Workspace
end MailPress
