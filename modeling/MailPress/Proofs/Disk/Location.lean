import MailPress.Disk.Basic
import MailPress.Disk.Path
import MailPress.Proofs.Text.Search

/-!
# Where paths lead

A path below a root has the parts of the root in front of its own, whatever they are. A path
that is put together from names has these names as its parts. The parent of a file below a
directory is the directory as it was written.

A path leads to a location that its parts alone determine; the directories of the disk decide
only whether it leads there at all. So a path that leads somewhere goes on to lead there while
directories are made, and two disks that agree on the locations a path passes agree on the path.

Making the directory of a path adds the locations that the path enters by name, and nothing
else. Writing a file changes the content at its location, and nothing else.
-/

namespace MailPress
namespace Path

/-! ## Parts of paths -/

open Text

/-- Whether a text is the name of a file or a directory. -/
def isName (name : String) : Bool :=
  !name.isEmpty && name != "." && name != ".." && !name.toList.contains '/'

/-- Whether a part of a path leaves the place where it is. -/
def stays (part : String) : Bool :=
  part.isEmpty || part = "."

theorem stays_of_isName {name : String} (named : isName name = true) : stays name = false := by
  simp_all [isName, stays]

theorem ne_up_of_isName {name : String} (named : isName name = true) : name ≠ ".." := by
  simp_all [isName]

theorem noSlash_of_isName
    {name : String}
    (named : isName name = true) :
    ∀ c ∈ name.toList, (c == '/') = false := by
  simp only [isName, Bool.and_eq_true, Bool.not_eq_true', List.contains_eq_mem] at named
  intro c member
  refine beq_false_of_ne ?_
  rintro rfl
  simp [member] at named

theorem isAbsolute_eq (path : String) : isAbsolute path = (path.toList.head? == some '/') :=
  startsWith_singleton '/' path.toList

theorem hasEnd_slash_iff (path : String) :
    hasEnd "/" path = true ↔ ∃ front, path.toList = front ++ ['/'] := by
  have last : hasEnd "/" path = (path.toList.getLast? == some '/') :=
    endsWith_singleton '/' path.toList
  rw [last, beq_iff_eq, List.getLast?_eq_some_iff]

/-- The parts that a root puts in front of the parts of a path. -/
def front (root : String) : List String :=
  if root.isEmpty then []
  else if hasEnd "/" root then (parts root).dropLast
  else parts root

/-- A path below a root has the parts of the root in front of its own. -/
theorem parts_join
    {place : String}
    (relative : isAbsolute place = false)
    (root : String) :
    parts (join root place) = front root ++ parts place := by
  have split := @splitAtEach_append_cons (· == '/') '/' rfl
  unfold join front
  rw [if_neg (by simp [relative])]
  by_cases blank : root.isEmpty = true
  · simp [String.isEmpty_iff.mp blank]
  by_cases finished : hasEnd "/" root = true
  · obtain ⟨front, chars⟩ := (hasEnd_slash_iff root).mp finished
    simp [blank, finished, parts, chars, split, splitAtEach]
  · simp [blank, finished, parts, split]

theorem isAbsolute_join
    {place : String}
    (relative : isAbsolute place = false)
    (root : String) :
    isAbsolute (join root place) = isAbsolute root := by
  unfold join
  rw [if_neg (by simp [relative])]
  rw [isAbsolute_eq] at relative
  simp only [isAbsolute_eq]
  by_cases blank : root.isEmpty = true
  · simp [String.isEmpty_iff.mp blank, relative]
  · have some : root.toList ≠ [] := fun eq => blank (by simpa using eq)
    obtain ⟨c, rest, eq⟩ := List.exists_cons_of_ne_nil some
    split <;> simp [eq]

/-- A path that is put together from names has these names as its parts. -/
theorem parts_ofComponents
    {names : List String}
    (named : ∀ name ∈ names, isName name = true)
    (nonempty : names ≠ []) :
    parts (ofComponents names) = names := by
  have plain : ∀ piece ∈ names.map String.toList, ∀ c ∈ piece, (c == '/') = false := by
    intro piece member
    obtain ⟨name, listed, rfl⟩ := List.mem_map.mp member
    exact noSlash_of_isName (named name listed)
  have split := @splitAtEach_intercalate (· == '/') '/' rfl _ (by simpa using nonempty) plain
  simp [parts, ofComponents, String.toList_intercalate, split]

theorem toList_ofComponents_cons (name : String) (names : List String) :
    ∃ rest, (ofComponents (name :: names)).toList = name.toList ++ rest := by
  cases names with
  | nil => exact ⟨[], by simp [ofComponents]⟩
  | cons second names =>
      refine ⟨'/' :: (ofComponents (second :: names)).toList, ?_⟩
      simp [ofComponents, String.intercalate_cons_cons]

theorem isAbsolute_ofComponents
    {names : List String}
    (named : ∀ name ∈ names, isName name = true) :
    isAbsolute (ofComponents names) = false := by
  cases names with
  | nil => rfl
  | cons name names =>
      obtain ⟨rest, eq⟩ := toList_ofComponents_cons name names
      have plain := noSlash_of_isName (named name List.mem_cons_self)
      have nonempty : name.toList ≠ [] := by
        have := named name List.mem_cons_self
        simp_all [isName]
      obtain ⟨c, chars, split⟩ := List.exists_cons_of_ne_nil nonempty
      have noSlash := plain c (split ▸ List.mem_cons_self)
      simpa [isAbsolute_eq, eq, split] using noSlash

theorem components_join
    {place : String}
    (relative : isAbsolute place = false)
    (root : String) :
    components (join root place) =
      (front root).filter (fun part => !part.isEmpty && part != ".") ++ components place := by
  rw [components, parts_join relative, List.filter_append]
  rfl

theorem components_ofComponents
    {names : List String}
    (named : ∀ name ∈ names, isName name = true) :
    components (ofComponents names) = names := by
  by_cases nonempty : names = []
  · subst nonempty
    rfl
  · rw [components, parts_ofComponents named nonempty, List.filter_eq_self]
    intro name member
    have := named name member
    simp_all [isName]

/-! ## The locations on the way -/

/-- Where one part of a path leads, if the directories on the way exist. -/
def enter (location : List String) (part : String) : List String :=
  if stays part then location
  else if part = ".." then location.dropLast
  else location ++ [part]

/-- The locations that the parts of a path pass, from the first one on. -/
def passed : (location : List String) → List String → List (List String)
  | location, [] => [location]
  | location, part :: parts => location :: passed (enter location part) parts

/-- The locations that the parts of a path enter by name. -/
def entered : (location : List String) → List String → List (List String)
  | _, [] => []
  | location, part :: parts =>
      if stays part || part = ".." then entered (enter location part) parts
      else (location ++ [part]) :: entered (location ++ [part]) parts

theorem enter_of_isName
    {part : String}
    (named : isName part = true)
    (location : List String) :
    enter location part = location ++ [part] := by
  rw [enter, if_neg (by simp [stays_of_isName named]), if_neg (ne_up_of_isName named)]

/-- Names lead down, one after the other. -/
theorem foldl_enter_of_isName
    {names : List String}
    (named : ∀ name ∈ names, isName name = true)
    (location : List String) :
    names.foldl enter location = location ++ names := by
  induction names generalizing location with
  | nil => simp
  | cons name names inductionHypothesis =>
      rw [List.foldl_cons, enter_of_isName (named name List.mem_cons_self),
        inductionHypothesis fun other member => named other (List.mem_cons_of_mem name member)]
      simp

theorem foldl_enter_mem_passed (location : List String) (parts : List String) :
    parts.foldl enter location ∈ passed location parts := by
  induction parts generalizing location with
  | nil => simp [passed]
  | cons part parts inductionHypothesis =>
      exact List.mem_cons_of_mem _ (inductionHypothesis (enter location part))

end Path

namespace Disk

open MailPress.Path

variable {disk other : Disk}

/-- The location that the parts of a path start from. -/
def start (disk : Disk) (path : String) : List String :=
  if isAbsolute path then [] else disk.workingDirectory

/-- The location that a path leads to, if it leads anywhere. -/
def locate (disk : Disk) (path : String) : List String :=
  (parts path).foldl enter (disk.start path)

/-! ## Resolving -/

theorem step_eq (disk : Disk) (location : List String) (part : String) :
    disk.step location part =
      if (stays part || part = "..") && !disk.hasDirectory location then none
      else some (enter location part) := by
  unfold step
  by_cases still : part.isEmpty || part = "."
  · simp only [still, if_true, stays, enter, Bool.true_or, Bool.true_and]
    cases disk.hasDirectory location <;> simp
  · by_cases up : part = ".."
    · simp only [stays, enter, up, if_true]
      cases disk.hasDirectory location <;> simp
    · simp [still, stays, enter, up]

theorem eq_foldl_enter
    {location last : List String}
    {parts : List String}
    (leads : parts.foldlM disk.step location = some last) :
    last = parts.foldl enter location := by
  induction parts generalizing location with
  | nil => exact (Option.some.inj leads).symm
  | cons part parts inductionHypothesis =>
      rw [List.foldlM_cons, Option.bind_eq_bind, Option.bind_eq_some_iff] at leads
      obtain ⟨next, first, rest⟩ := leads
      rw [step_eq] at first
      split at first
      · cases first
      · rw [List.foldl_cons, Option.some.inj first]
        exact inductionHypothesis rest

/-- A path that leads somewhere leads to its location. -/
theorem eq_locate
    {path : String}
    {location : List String}
    (leads : disk.resolve? path = some location) :
    location = disk.locate path := by
  unfold resolve? at leads
  dsimp only at leads
  split at leads
  · cases leads
  · exact eq_foldl_enter leads

/-- Disks that agree on the directories that some parts pass agree on where they lead. -/
theorem foldlM_step_congr
    {location : List String}
    {parts : List String}
    (same : ∀ place ∈ passed location parts, disk.hasDirectory place = other.hasDirectory place) :
    parts.foldlM disk.step location = parts.foldlM other.step location := by
  induction parts generalizing location with
  | nil => rfl
  | cons part parts inductionHypothesis =>
      have here := same location List.mem_cons_self
      have rest := inductionHypothesis fun place member =>
        same place (List.mem_cons_of_mem location member)
      rw [List.foldlM_cons, List.foldlM_cons, step_eq, step_eq, here]
      split
      · rfl
      · exact rest

/-- A disk whose directories are all there, and perhaps more. -/
structure Grows (disk other : Disk) : Prop where
  /-- Paths start from the same location. -/
  workingDirectory : other.workingDirectory = disk.workingDirectory
  /-- No directory is missing. -/
  directories : ∀ location, disk.hasDirectory location = true → other.hasDirectory location = true
  /-- The same files are closed. -/
  closed : other.closed = disk.closed

namespace Grows

theorem refl (disk : Disk) : disk.Grows disk :=
  ⟨rfl, fun _ there => there, rfl⟩

theorem trans
    {third : Disk}
    (first : disk.Grows other)
    (second : other.Grows third) :
    disk.Grows third :=
  ⟨second.workingDirectory.trans first.workingDirectory,
    fun location there => second.directories location (first.directories location there),
    second.closed.trans first.closed⟩

theorem start (grows : disk.Grows other) (path : String) : other.start path = disk.start path := by
  rw [Disk.start, Disk.start, grows.workingDirectory]

theorem locate (grows : disk.Grows other) (path : String) :
    other.locate path = disk.locate path := by
  rw [Disk.locate, Disk.locate, grows.start]

theorem foldlM_step
    (grows : disk.Grows other)
    {location last : List String}
    {parts : List String}
    (leads : parts.foldlM disk.step location = some last) :
    parts.foldlM other.step location = some last := by
  induction parts generalizing location with
  | nil => exact leads
  | cons part parts inductionHypothesis =>
      rw [List.foldlM_cons, Option.bind_eq_bind, Option.bind_eq_some_iff] at leads ⊢
      obtain ⟨next, first, rest⟩ := leads
      refine ⟨next, ?_, inductionHypothesis rest⟩
      rw [step_eq] at first ⊢
      split at first
      · cases first
      · next passes =>
          rw [if_neg, first]
          intro fails
          cases there : disk.hasDirectory location with
          | true => simp [grows.directories location there] at fails
          | false => simp_all

/-- A path goes on to lead where it led. -/
theorem resolve?
    (grows : disk.Grows other)
    {path : String}
    {location : List String}
    (leads : disk.resolve? path = some location) :
    other.resolve? path = some location := by
  unfold Disk.resolve? at leads ⊢
  dsimp only at leads ⊢
  rw [grows.workingDirectory]
  split at leads
  · cases leads
  · next written =>
      rw [if_neg written]
      exact grows.foldlM_step leads

end Grows

theorem resolve?_of_files_eq (files : List (List String × ByteArray)) (path : String) :
    ({ disk with files := files } : Disk).resolve? path = disk.resolve? path := rfl

/-! ## Making directories -/

@[simp] theorem files_addDirectory (disk : Disk) (location : List String) :
    (disk.addDirectory location).files = disk.files := by
  unfold addDirectory
  split <;> rfl

@[simp] theorem workingDirectory_addDirectory (disk : Disk) (location : List String) :
    (disk.addDirectory location).workingDirectory = disk.workingDirectory := by
  unfold addDirectory
  split <;> rfl

@[simp] theorem closed_addDirectory (disk : Disk) (location : List String) :
    (disk.addDirectory location).closed = disk.closed := by
  unfold addDirectory
  split <;> rfl

theorem hasDirectory_addDirectory (disk : Disk) (made location : List String) :
    (disk.addDirectory made).hasDirectory location =
      (disk.hasDirectory location || location == made) := by
  unfold addDirectory
  split
  · next there =>
      by_cases same : location = made
      · simp [same, there]
      · simp [same]
  · simp [hasDirectory, Bool.or_assoc, Bool.beq_eq_decide_eq]

/-- The disk with directories at some locations. -/
def withDirectories (disk : Disk) (locations : List (List String)) : Disk :=
  locations.foldl addDirectory disk

@[simp] theorem files_withDirectories (disk : Disk) (locations : List (List String)) :
    (disk.withDirectories locations).files = disk.files := by
  induction locations generalizing disk with
  | nil => rfl
  | cons location locations inductionHypothesis =>
      rw [withDirectories, List.foldl_cons]
      exact (inductionHypothesis _).trans (files_addDirectory disk location)

@[simp] theorem workingDirectory_withDirectories
    (disk : Disk)
    (locations : List (List String)) :
    (disk.withDirectories locations).workingDirectory = disk.workingDirectory := by
  induction locations generalizing disk with
  | nil => rfl
  | cons location locations inductionHypothesis =>
      rw [withDirectories, List.foldl_cons]
      exact (inductionHypothesis _).trans (workingDirectory_addDirectory disk location)

@[simp] theorem closed_withDirectories (disk : Disk) (locations : List (List String)) :
    (disk.withDirectories locations).closed = disk.closed := by
  induction locations generalizing disk with
  | nil => rfl
  | cons location locations inductionHypothesis =>
      rw [withDirectories, List.foldl_cons]
      exact (inductionHypothesis _).trans (closed_addDirectory disk location)

theorem hasDirectory_withDirectories
    (disk : Disk)
    (locations : List (List String))
    (location : List String) :
    (disk.withDirectories locations).hasDirectory location =
      (disk.hasDirectory location || locations.contains location) := by
  induction locations generalizing disk with
  | nil => simp [withDirectories]
  | cons first locations inductionHypothesis =>
      rw [withDirectories, List.foldl_cons]
      refine (inductionHypothesis _).trans ?_
      rw [hasDirectory_addDirectory, List.contains_cons, Bool.or_assoc]

theorem grows_withDirectories (disk : Disk) (locations : List (List String)) :
    disk.Grows (disk.withDirectories locations) := by
  refine ⟨disk.workingDirectory_withDirectories locations, fun location there => ?_,
    disk.closed_withDirectories locations⟩
  rw [hasDirectory_withDirectories, there, Bool.true_or]

@[simp] theorem content?_withDirectories
    (disk : Disk)
    (locations : List (List String))
    (location : List String) :
    (disk.withDirectories locations).content? location = disk.content? location := by
  rw [content?, files_withDirectories, content?]

/-- Following parts makes the locations that they enter by name, unless a file is at one of
them. -/
theorem makeParts_eq (disk : Disk) (location : List String) (parts : List String) :
    disk.makeParts location parts =
      if (entered location parts).any disk.hasFile then none
      else some (disk.withDirectories (entered location parts), parts.foldl enter location) := by
  induction parts generalizing disk location with
  | nil => rfl
  | cons part parts inductionHypothesis =>
      rw [makeParts, entered, List.foldl_cons]
      by_cases still : part.isEmpty || part = "."
      · have here : enter location part = location := by simp [enter, stays, still]
        simp [still, stays, inductionHypothesis, here]
      · by_cases up : part = ".."
        · have above : enter location part = location.dropLast := by simp [enter, stays, up]
          simp [up, stays, inductionHypothesis, enter]
        · have below : enter location part = location ++ [part] := by
            simp [enter, stays, still, up]
          have files (made : List String) :
              (disk.addDirectory made).hasFile = disk.hasFile := by
            funext place
            rw [hasFile, content?, files_addDirectory, hasFile, content?]
          simp only [still, up, stays, below, inductionHypothesis, files]
          by_cases blocked : disk.hasFile (location ++ [part])
          · simp [blocked]
          · simp [blocked, withDirectories]

/-- The locations that the parts of a path enter by name. -/
def enteredBy (disk : Disk) (path : String) : List (List String) :=
  entered (disk.start path) (parts path)

/-- The locations that have to be directories before a path can be written. -/
def parents (disk : Disk) (path : String) : List (List String) :=
  ((Path.parent? path).map disk.enteredBy).getD []

/-- Making the directory of a path makes the locations that the path enters by name, unless a
file is at one of them. -/
theorem makeDirectory?_eq (disk : Disk) (path : String) :
    disk.makeDirectory? path =
      if (disk.enteredBy path).any disk.hasFile then none
      else some (disk.withDirectories (disk.enteredBy path)) := by
  have start : (if isAbsolute path then [] else disk.workingDirectory) = disk.start path := rfl
  unfold makeDirectory? enteredBy
  dsimp only
  rw [start, makeParts_eq]
  split <;> rfl

theorem makeDirectory?_eq_some
    {path : String}
    (made : disk.makeDirectory? path = some other) :
    other = disk.withDirectories (disk.enteredBy path) := by
  rw [makeDirectory?_eq] at made
  split at made
  · cases made
  · exact (Option.some.inj made).symm

/-! ## Writing files -/

theorem lookup_putContent
    (location : List String)
    (content : ByteArray)
    (files : List (List String × ByteArray))
    (place : List String) :
    (putContent location content files).lookup place =
      if place = location then some content else files.lookup place := by
  induction files with
  | nil =>
      rw [putContent, List.lookup_cons]
      grind
  | cons file files inductionHypothesis =>
      obtain ⟨name, old⟩ := file
      rw [putContent]
      split
      · next found =>
          rw [List.lookup_cons, List.lookup_cons]
          grind
      · next found =>
          rw [List.lookup_cons, List.lookup_cons, inductionHypothesis]
          grind

/-- The disk with a content at a location. -/
def withContent (disk : Disk) (location : List String) (content : ByteArray) : Disk :=
  { disk with files := putContent location content disk.files }

@[simp] theorem content?_withContent
    (disk : Disk)
    (location : List String)
    (content : ByteArray)
    (place : List String) :
    (disk.withContent location content).content? place =
      if place = location then some content else disk.content? place :=
  lookup_putContent location content disk.files place

@[simp] theorem hasDirectory_withContent
    (disk : Disk)
    (location : List String)
    (content : ByteArray) :
    (disk.withContent location content).hasDirectory = disk.hasDirectory := rfl

theorem grows_withContent (disk : Disk) (location : List String) (content : ByteArray) :
    disk.Grows (disk.withContent location content) :=
  ⟨rfl, fun _ there => there, rfl⟩

/-- A file is written where the path leads, when its directory exists and no directory has its
place. -/
theorem write?_eq_some_iff
    {path : String}
    {content : ByteArray} :
    disk.write? path content = some other ↔
      disk.resolve? path = some (disk.locate path) ∧
        disk.hasDirectory (disk.locate path) = false ∧
        disk.hasDirectory (disk.locate path).dropLast = true ∧
        other = disk.withContent (disk.locate path) content := by
  unfold write?
  split
  · next none => simp [none]
  · next location leads =>
      obtain rfl := eq_locate leads
      simp only [leads, true_and, withContent]
      split
      · next blocked => grind
      · next free => grind

theorem putContent_putContent
    (location : List String)
    (first second : ByteArray)
    (files : List (List String × ByteArray)) :
    putContent location second (putContent location first files) =
      putContent location second files := by
  induction files with
  | nil => simp [putContent]
  | cons file files inductionHypothesis =>
      by_cases here : file.1 = location
      · simp [putContent, here]
      · simp [putContent, here, inductionHypothesis]

/-- Where one content can be written, any other can be. -/
theorem exists_write?_eq
    {path : String}
    {content : ByteArray}
    (written : disk.write? path content = some other)
    (another : ByteArray) :
    ∃ third, disk.write? path another = some third := by
  obtain ⟨leads, free, below, _⟩ := write?_eq_some_iff.mp written
  exact ⟨_, write?_eq_some_iff.mpr ⟨leads, free, below, rfl⟩⟩

/-- Of two contents that are written to one file the second one stays. -/
theorem write?_write?
    {path : String}
    {content : ByteArray}
    (written : disk.write? path content = some other)
    (another : ByteArray) :
    other.write? path another = disk.write? path another := by
  obtain ⟨third, also⟩ := exists_write?_eq written another
  obtain ⟨leads, free, below, rfl⟩ := write?_eq_some_iff.mp written
  obtain ⟨_, _, _, rfl⟩ := write?_eq_some_iff.mp also
  rw [also]
  have same := (disk.grows_withContent (disk.locate path) content).locate path
  refine write?_eq_some_iff.mpr ⟨?_, ?_, ?_, ?_⟩
  · rw [same]
    exact leads
  · rw [same]
    exact free
  · rw [same]
    exact below
  · rw [same]
    simp only [withContent, putContent_putContent]

theorem read?_withContent
    {path : String}
    (leads : disk.resolve? path = some (disk.locate path))
    (content : ByteArray) :
    (disk.withContent (disk.locate path) content).read? path = some content := by
  rw [read?, withContent, resolve?_of_files_eq, leads, Option.bind_some]
  exact (disk.content?_withContent _ content _).trans (if_pos rfl)

/-! ## Looking into a file -/

/-- A look shows the content, unless the file is closed. -/
theorem look?_eq (disk : Disk) (path : String) :
    disk.look? path =
      if disk.closed.contains (disk.locate path) then none else disk.read? path := by
  unfold look? read?
  cases leads : disk.resolve? path with
  | none => simp
  | some location => rw [Option.bind_some, Option.bind_some, eq_locate leads]

theorem read?_of_look?
    {path : String}
    {content : ByteArray}
    (seen : disk.look? path = some content) :
    disk.read? path = some content := by
  rw [look?_eq] at seen
  split at seen
  · cases seen
  · exact seen

/-! ## Paths below a root -/

/-- The location of a root, if its directories exist. -/
def base (disk : Disk) (root : String) : List String :=
  (front root).foldl enter (disk.start root)

theorem start_join
    {place : String}
    (relative : isAbsolute place = false)
    (disk : Disk)
    (root : String) :
    disk.start (join root place) = disk.start root := by
  rw [start, start, isAbsolute_join relative]

/-- A path below a root leads on from the location of the root. -/
theorem locate_join
    {place : String}
    (relative : isAbsolute place = false)
    (disk : Disk)
    (root : String) :
    disk.locate (join root place) = (parts place).foldl enter (disk.base root) := by
  rw [locate, parts_join relative, start_join relative, List.foldl_append, base]

end Disk
end MailPress
