import MailPress.Disk.Writer
import MailPress.Proofs.Disk.Location

/-!
# What a writer remembers

The memory of a writer holds, for a path, what it last wrote or found there. As long as nobody
else changes the files below its root, that is what the file holds, so the memory may stand for
the disk.

A file below the root is named by the components of its path. Different names lead to different
locations, so writing one file leaves the others alone.
-/

namespace MailPress

open MailPress.Path

/-- Contents are the same when they are found to be. -/
instance instLawfulBEqByteArray : LawfulBEq ByteArray where
  rfl {content} := by
    change (content.data == content.data) = true
    exact beq_self_eq_true content.data
  eq_of_beq {content other} same := by
    have same : (content.data == other.data) = true := same
    exact ByteArray.ext (eq_of_beq same)

/-- Names that lead to a file: at least one, each a component by itself. -/
def Path.IsPlace (names : List String) : Prop :=
  names ≠ [] ∧ ∀ name ∈ names, isName name = true

instance (names : List String) : Decidable (Path.IsPlace names) :=
  inferInstanceAs (Decidable (_ ∧ _))

namespace Path.IsPlace

variable {names : List String}

theorem isAbsolute (place : IsPlace names) : isAbsolute (ofComponents names) = false :=
  isAbsolute_ofComponents place.2

/-- Different names make paths with different components. -/
theorem eq_of_components_join_eq
    {others : List String}
    (place : IsPlace names)
    (other : IsPlace others)
    {root : String}
    (same : components (join root (ofComponents names)) =
      components (join root (ofComponents others))) :
    names = others := by
  rw [components_join place.isAbsolute, components_join other.isAbsolute,
    components_ofComponents place.2, components_ofComponents other.2] at same
  exact List.append_cancel_left same

theorem locate_join (place : IsPlace names) (disk : Disk) (root : String) :
    disk.locate (join root (ofComponents names)) = disk.base root ++ names := by
  rw [Disk.locate_join place.isAbsolute, parts_ofComponents place.2 place.1,
    foldl_enter_of_isName place.2]

end Path.IsPlace

namespace Writer

theorem lookup_filter_ne
    {key other : List String}
    (different : other ≠ key)
    (entries : List (List String × ByteArray)) :
    (entries.filter fun entry => entry.1 != key).lookup other = entries.lookup other := by
  induction entries with
  | nil => rfl
  | cons entry entries inductionHypothesis =>
      obtain ⟨name, content⟩ := entry
      rw [List.filter_cons, List.lookup_cons]
      split
      · rw [List.lookup_cons, inductionHypothesis]
      · grind

/-- What is remembered of a path changes for the paths with its components alone. -/
theorem remembered?_remember
    (writer : Writer)
    (path : String)
    (content : ByteArray)
    (other : String) :
    (writer.remember path content).remembered? other =
      if components other = components path then some content
      else writer.remembered? other := by
  unfold remember remembered?
  rw [List.lookup_cons]
  split
  · next same => simp [beq_iff_eq.mp same]
  · next different =>
      have different := ne_of_beq_false different
      rw [if_neg different, lookup_filter_ne different]

@[simp] theorem root_remember (writer : Writer) (path : String) (content : ByteArray) :
    (writer.remember path content).root = writer.root := rfl

end Writer

namespace Workspace

variable {space after : Workspace} {names others : List String} {content : ByteArray}

/-- The path of the file with some names below the root. -/
def path (space : Workspace) (names : List String) : String :=
  join space.writer.root (ofComponents names)

/-- The content of the file with some names below the root. -/
def file? (space : Workspace) (names : List String) : Option ByteArray :=
  space.disk.read? (space.path names)

/-- What a look into the file with some names below the root shows. -/
def shown? (space : Workspace) (names : List String) : Option ByteArray :=
  space.disk.look? (space.path names)

/-- Whether the file with some names below the root can be looked into. -/
def isOpen (space : Workspace) (names : List String) : Bool :=
  !space.disk.closed.contains (space.disk.locate (space.path names))

/-- What is remembered of the file with some names below the root. -/
def memory? (space : Workspace) (names : List String) : Option ByteArray :=
  space.writer.remembered? (space.path names)

theorem memory?_remember
    (place : IsPlace names)
    (other : IsPlace others)
    (content : ByteArray) :
    memory? { space with writer := space.writer.remember (space.path names) content } others =
      if others = names then some content else space.memory? others := by
  refine (space.writer.remembered?_remember _ content _).trans ?_
  by_cases same : others = names
  · simp [same, path]
  · rw [if_neg same]
    exact if_neg fun eq => same (other.eq_of_components_join_eq place eq)

theorem shown?_eq_file? (opened : space.isOpen names = true) :
    space.shown? names = space.file? names := by
  rw [shown?, Disk.look?_eq, if_neg, file?]
  simpa [isOpen] using opened

theorem file?_of_shown? (seen : space.shown? names = some content) :
    space.file? names = some content :=
  Disk.read?_of_look? seen

/-- What can be read goes on to be read while directories are made. -/
theorem file?_of_grows
    {disk : Disk}
    (files : disk.files = space.disk.files)
    (grows : space.disk.Grows disk)
    (there : space.file? names = some content) :
    file? { space with disk := disk } names = some content := by
  unfold file? Disk.read? at there ⊢
  rw [Option.bind_eq_some_iff] at there ⊢
  obtain ⟨location, leads, found⟩ := there
  refine ⟨location, grows.resolve? leads, ?_⟩
  rw [Disk.content?, files]
  exact found

/-- A file that is written can be read. -/
theorem file?_of_write?
    {disk : Disk}
    (written : space.disk.write? (space.path names) content = some disk) :
    file? { space with disk := disk } names = some content := by
  obtain ⟨leads, _, _, rfl⟩ := Disk.write?_eq_some_iff.mp written
  exact Disk.read?_withContent leads content

/-- Writing a file leaves the files with other names as they are. -/
theorem file?_of_write?_of_ne
    {disk : Disk}
    (place : IsPlace names)
    (other : IsPlace others)
    (different : others ≠ names)
    (written : space.disk.write? (space.path names) content = some disk) :
    file? { space with disk := disk } others = space.file? others := by
  obtain ⟨_, _, _, rfl⟩ := Disk.write?_eq_some_iff.mp written
  have away : space.disk.locate (space.path others) ≠ space.disk.locate (space.path names) := by
    rw [path, path, other.locate_join, place.locate_join]
    exact fun same => different (List.append_cancel_left same)
  unfold file? Disk.read?
  change (space.disk.resolve? (space.path others)).bind _ = _
  cases leads : space.disk.resolve? (space.path others) with
  | none => rfl
  | some location =>
      rw [Option.bind_some, Option.bind_some, Disk.content?_withContent, if_neg]
      exact Disk.eq_locate leads ▸ away

/-- The memory of the writer agrees with the disk. -/
def IsHonest (space : Workspace) : Prop :=
  ∀ names, IsPlace names → ∀ content, space.memory? names = some content →
    space.file? names = some content

theorem isHonest_new (disk : Disk) (root : String) : IsHonest ⟨disk, .new root⟩ := by
  intro names _ content remembered
  cases remembered

/-- The directories of a path are made, if that is possible. -/
def prepared? (space : Workspace) (path : String) : Option Disk :=
  (Path.parent? path).elim (some space.disk) space.disk.makeDirectory?

/-- Preparing a path makes directories that it needs and nothing else. -/
theorem eq_withDirectories_of_prepared?
    {path : String}
    {disk : Disk}
    (prepared : space.prepared? path = some disk) :
    ∃ locations, locations ⊆ space.disk.parents path ∧
      disk = space.disk.withDirectories locations := by
  unfold prepared? at prepared
  unfold Disk.parents
  cases parent : Path.parent? path with
  | none =>
      rw [parent] at prepared
      exact ⟨[], List.nil_subset _, (Option.some.inj prepared).symm⟩
  | some directory =>
      rw [parent] at prepared
      exact ⟨_, List.Subset.refl _, Disk.makeDirectory?_eq_some prepared⟩

/-- Storing fails with the disk and the memory as they were but for new directories, or writes
the file and takes note of it. -/
theorem store_cases (space : Workspace) (path : String) (content : ByteArray) :
    (∃ error locations, locations ⊆ space.disk.parents path ∧ space.store path content =
      (.error error, { space with disk := space.disk.withDirectories locations })) ∨
    ∃ ready done, space.prepared? path = some ready ∧ ready.write? path content = some done ∧
      space.store path content = (.ok .written, ⟨done, space.writer.remember path content⟩) := by
  have prepared : (Path.parent? path).elim (some space.disk) space.disk.makeDirectory? =
      space.prepared? path := rfl
  unfold store
  dsimp only
  rw [prepared]
  cases made : space.prepared? path with
  | none => exact .inl ⟨.write ((Path.parent? path).getD ""), [], List.nil_subset _, rfl⟩
  | some ready =>
      cases written : ready.write? path content with
      | some done => exact .inr ⟨ready, done, rfl, written, by simp only [written]⟩
      | none =>
          obtain ⟨locations, within, rfl⟩ := eq_withDirectories_of_prepared? made
          exact .inl ⟨.write path, locations, within, by simp only [written]⟩

/-- What storing does to the disk, and what it returns, does not depend on the memory. -/
theorem store_congr
    {other : Workspace}
    (same : other.disk = space.disk)
    (path : String)
    (content : ByteArray) :
    (other.store path content).1 = (space.store path content).1 ∧
      (other.store path content).2.disk = (space.store path content).2.disk := by
  unfold store
  dsimp only
  rw [same]
  split
  · exact ⟨rfl, same⟩
  · split <;> exact ⟨rfl, rfl⟩

/-- Writing in terms of what is remembered of a file and what a look into it shows. -/
theorem write_ofComponents (space : Workspace) (names : List String) (content : ByteArray) :
    space.write (ofComponents names) content =
      match space.memory? names with
      | some old =>
          if old == content then (.ok .unchanged, space)
          else space.store (space.path names) content
      | none =>
          if space.shown? names == some content then
            (.ok .unchanged,
              { space with writer := space.writer.remember (space.path names) content })
          else space.store (space.path names) content := rfl

/-- As long as the memory agrees with the disk and the file can be looked into, what writing does
to the disk, and what it returns, can be told from the disk. -/
theorem write_of_isHonest
    (honest : space.IsHonest)
    (place : IsPlace names)
    (opened : space.isOpen names = true)
    (content : ByteArray) :
    let stored := space.store (space.path names) content
    let done := space.write (ofComponents names) content
    if space.file? names == some content then
      done.1 = .ok .unchanged ∧ done.2.disk = space.disk
    else done.1 = stored.1 ∧ done.2.disk = stored.2.disk := by
  dsimp only
  rw [write_ofComponents]
  cases known : space.memory? names with
  | some old =>
      have file := honest names place old known
      by_cases same : old = content <;> simp [same, file]
  | none =>
      rw [shown?_eq_file? opened]
      by_cases same : space.file? names = some content <;> simp [same]

theorem write_congr
    {other : Workspace}
    (disk : other.disk = space.disk)
    (root : other.writer.root = space.writer.root)
    (honest : space.IsHonest)
    (also : other.IsHonest)
    (place : IsPlace names)
    (opened : space.isOpen names = true)
    (content : ByteArray) :
    (other.write (ofComponents names) content).1 = (space.write (ofComponents names) content).1 ∧
      (other.write (ofComponents names) content).2.disk =
        (space.write (ofComponents names) content).2.disk := by
  have path : other.path names = space.path names := by rw [Workspace.path, root, Workspace.path]
  have file : other.file? names = space.file? names := by rw [file?, path, disk, file?]
  have stored := store_congr disk (space.path names) content
  have openedToo : other.isOpen names = true := by rw [isOpen, disk, path, ← isOpen, opened]
  have one := write_of_isHonest honest place opened content
  have two := write_of_isHonest also place openedToo content
  dsimp only at one two
  rw [file, path] at two
  split at one
  · next there =>
      rw [if_pos there] at two
      exact ⟨two.1.trans one.1.symm, two.2.trans (disk.trans one.2.symm)⟩
  · next away =>
      rw [if_neg away] at two
      exact ⟨two.1.trans (stored.1.trans one.1.symm), two.2.trans (stored.2.trans one.2.symm)⟩

end Workspace
end MailPress
