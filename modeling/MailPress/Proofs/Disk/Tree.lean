import Mathlib.Data.List.TakeWhile
import MailPress.Proofs.Disk.Change

/-!
# When a file cannot be written

A path that ends in a name has a parent: the path without the name, and without the slashes and
single dots that are at its end then. What is trimmed does not move, so the parent enters the
same locations by name as the path does in front of its last part.

A file cannot be written when a file lies where its path needs a directory, or a directory where
the path leads. On a disk that is a tree nothing else is in the way: when the directories that
the path names are made, it leads to its location. So what becomes of a file that is to be written
can be told from a few locations of the disk.
-/

namespace MailPress
namespace Path

open Text

/-! ## The directory of a file -/

theorem stays_ofList (piece : List Char) :
    stays (String.ofList piece) = (piece.isEmpty || piece == ['.']) := by
  have empty : (String.ofList piece).isEmpty = piece.isEmpty := by
    rw [Bool.eq_iff_iff, String.isEmpty_iff, ← String.toList_eq_nil_iff, String.toList_ofList,
      List.isEmpty_iff]
  have dot : (String.ofList piece = ".") ↔ piece = ['.'] := by
    rw [← String.toList_inj, String.toList_ofList]
    rfl
  rw [stays, empty, Bool.beq_eq_decide_eq]
  simp [dot]

theorem entered_of_stays
    {parts : List String}
    (still : ∀ part ∈ parts, stays part = true)
    (location : List String) :
    entered location parts = [] := by
  induction parts with
  | nil => rfl
  | cons part parts inductionHypothesis =>
      have here := still part List.mem_cons_self
      rw [entered, here, Bool.true_or, if_pos rfl, enter, here, if_pos rfl]
      exact inductionHypothesis fun other member => still other (.tail _ member)

/-- Parts at the end that do not move enter nothing. -/
theorem entered_append_of_stays
    {last : List String}
    (still : ∀ part ∈ last, stays part = true)
    (location : List String)
    (parts : List String) :
    entered location (parts ++ last) = entered location parts := by
  induction parts generalizing location with
  | nil => exact entered_of_stays still location
  | cons part parts inductionHypothesis =>
      rw [List.cons_append, entered, entered, inductionHypothesis, inductionHypothesis]

/-- Trimming drops the parts at the end that do not move, and keeps the slash at the start. -/
theorem trimEnd_append_slash (text : List Char) :
    ∃ kept dropped, splitAtEach (· == '/') text = kept ++ dropped ∧
      (∀ piece ∈ dropped, stays (String.ofList piece) = true) ∧
      (∀ piece, kept.getLast? = some piece → stays (String.ofList piece) = false) ∧
      trimEnd (text ++ ['/']) =
        if kept = [] then (if (text ++ ['/']).head? = some '/' then ['/'] else [])
        else ['/'].intercalate kept := by
  let still : List Char → Bool := fun piece => piece.isEmpty || piece == ['.']
  let pieces := (splitAtEach (· == '/') text).reverse
  refine ⟨(pieces.dropWhile still).reverse, (pieces.takeWhile still).reverse, ?_, ?_, ?_, ?_⟩
  · rw [← List.reverse_append, List.takeWhile_append_dropWhile, List.reverse_reverse]
  · intro piece member
    have here : still piece = true := List.mem_takeWhile_imp (List.mem_reverse.mp member)
    rw [stays_ofList]
    exact here
  · intro piece last
    rw [List.getLast?_reverse] at last
    rw [stays_ofList]
    have moves := List.head?_dropWhile_not still pieces
    rw [last] at moves
    simpa [still] using moves
  · have split : (splitAtEach (· == '/') (text ++ ['/'])).reverse = [] :: pieces := by
      rw [splitAtEach_append_cons rfl, List.reverse_append]
      rfl
    obtain ⟨before, more, eq⟩ := List.exists_cons_of_ne_nil
      (List.reverse_ne_nil_iff.mpr (splitAtEach_ne_nil (· == '/') text))
    have eq : pieces = before :: more := eq
    rw [trimEnd, split, eq]
    by_cases none : (pieces.dropWhile still) = []
    · rw [eq] at none
      simp [none, still]
    · rw [eq] at none
      simp [none, still]

/-- The last part of a path follows its last slash, and the others are the parts of the text in
front of it. -/
theorem exists_toList_eq
    {path name : String}
    {front : List String}
    (split : parts path = front ++ [name])
    (nonempty : front ≠ []) :
    ∃ text, path.toList = text ++ '/' :: name.toList ∧
      (splitAtEach (· == '/') text).map String.ofList = front := by
  have slash : '/' ∈ path.toList.reverse := by
    by_contra none
    have whole : splitAtEach (· == '/') path.toList = [path.toList] :=
      splitAtEach_eq_singleton fun c member =>
        beq_false_of_ne fun same => none (List.mem_reverse.mpr (same ▸ member))
    rw [parts, whole] at split
    exact nonempty (List.append_inj' (split.symm.trans (List.nil_append _).symm) rfl).1
  obtain ⟨after, before, cut, noSlash⟩ := List.eq_append_cons_of_mem slash
  have path_eq : path.toList = before.reverse ++ '/' :: after.reverse := by
    rw [← List.reverse_reverse path.toList, cut]
    simp
  have last : splitAtEach (· == '/') after.reverse = [after.reverse] :=
    splitAtEach_eq_singleton fun c member =>
      beq_false_of_ne fun same => noSlash (same ▸ List.mem_reverse.mp member)
  rw [parts, path_eq, splitAtEach_append_cons rfl, last, List.map_append] at split
  obtain ⟨frontEq, lastEq⟩ := List.append_inj' split rfl
  obtain rfl : String.ofList after.reverse = name := by simpa using lastEq
  exact ⟨before.reverse, by rw [path_eq, String.toList_ofList], frontEq⟩

theorem eq_of_parts_eq_singleton {path name : String} (alone : parts path = [name]) :
    path = name := by
  obtain ⟨piece, split, rfl⟩ := List.map_eq_singleton_iff.mp alone
  have joined := intercalate_splitAtEach '/' path.toList
  rw [split] at joined
  rw [← String.toList_inj, String.toList_ofList, ← joined]
  simp

/-- What is joined first stands first. -/
theorem exists_intercalate_append
    {pieces : List (List Char)}
    (nonempty : pieces ≠ [])
    (more : List (List Char)) :
    ∃ rest, ['/'].intercalate (pieces ++ more) = ['/'].intercalate pieces ++ rest := by
  induction pieces with
  | nil => exact absurd rfl nonempty
  | cons piece pieces inductionHypothesis =>
      cases pieces with
      | nil =>
          cases more with
          | nil => exact ⟨[], by simp⟩
          | cons other more =>
              refine ⟨'/' :: ['/'].intercalate (other :: more), ?_⟩
              rw [List.cons_append, List.nil_append, List.intercalate_cons_cons]
              simp
      | cons second pieces =>
          obtain ⟨rest, eq⟩ := inductionHypothesis (List.cons_ne_nil _ _)
          refine ⟨rest, ?_⟩
          rw [List.cons_append, List.cons_append, List.intercalate_cons_cons,
            List.intercalate_cons_cons, ← List.cons_append, eq]
          simp

/-- There is nothing to trim behind a part that moves. -/
theorem trimEnd_of_moves
    {path name : String}
    {front : List String}
    (split : parts path = front ++ [name])
    (moves : stays name = false) :
    trimEnd path.toList = path.toList := by
  obtain ⟨pieces, last, cut, -, lastEq⟩ := List.map_eq_append_iff.mp split
  obtain ⟨piece, rfl, rfl⟩ := List.map_eq_singleton_iff.mp lastEq
  rw [stays_ofList] at moves
  unfold trimEnd
  rw [cut, List.reverse_append, List.reverse_singleton, List.singleton_append]
  cases pieces.reverse with
  | nil => rfl
  | cons before more => simp [moves]

/-- A path that ends in a name has a parent, and the parent enters what the path enters in front
of the name. -/
theorem exists_parent?_eq
    {path name : String}
    {front : List String}
    (split : parts path = front ++ [name])
    (named : isName name = true) :
    ∃ directory, parent? path = some directory ∧
      ∀ disk : Disk, disk.enteredBy directory = entered (disk.start path) front := by
  have kept : (components path).isEmpty = false := by
    have member : name ∈ components path :=
      List.mem_filter.mpr ⟨split ▸ by simp, by simp_all [isName]⟩
    exact List.isEmpty_eq_false_iff.mpr (List.ne_nil_of_mem member)
  have noSlash : ∀ c ∈ name.toList.reverse, (c != '/') = true := fun c member => by
    simpa using noSlash_of_isName named c (List.mem_reverse.mp member)
  unfold parent?
  rw [if_neg (by simp [kept]), trimEnd_of_moves split (stays_of_isName named)]
  dsimp only
  refine ⟨_, rfl, fun disk => ?_⟩
  by_cases alone : front = []
  · subst alone
    obtain rfl := eq_of_parts_eq_singleton split
    have relative : isAbsolute path = false := by
      rw [isAbsolute_eq]
      cases letters : path.toList with
      | nil => rfl
      | cons c rest =>
          have plain := noSlash_of_isName named c (letters ▸ List.mem_cons_self)
          simpa using plain
    have none : path.toList.reverse.dropWhile (· != '/') = [] :=
      List.dropWhile_eq_nil_iff.mpr noSlash
    rw [none, relative]
    rfl
  · obtain ⟨text, path_eq, rfl⟩ := exists_toList_eq split alone
    have cut : (path.toList.reverse.dropWhile (· != '/')).reverse = text ++ ['/'] := by
      rw [path_eq, List.reverse_append, List.reverse_cons, List.append_assoc,
        List.dropWhile_append_of_pos noSlash]
      simp
    obtain ⟨kept, dropped, cutText, still, moves, trimmed⟩ := trimEnd_append_slash text
    have stills : ∀ part ∈ dropped.map String.ofList, stays part = true := by simpa using still
    rw [cut, trimmed, cutText, List.map_append, entered_append_of_stays stills]
    by_cases none : kept = []
    · have blank {directory : List Char} (either : directory = [] ∨ directory = ['/']) :
          disk.enteredBy (String.ofList directory) = [] :=
        entered_of_stays (by rcases either with rfl | rfl <;> decide) _
      rw [none, if_pos rfl, List.map_nil]
      refine blank ?_
      split
      · exact .inr rfl
      · split
        · exact .inr rfl
        · exact .inl rfl
    · have plain : ∀ piece ∈ kept, ∀ c ∈ piece, (c == '/') = false := fun piece member =>
        not_separator_of_mem_splitAtEach (cutText ▸ List.mem_append_left _ member)
      have parts_eq : splitAtEach (· == '/') (['/'].intercalate kept) = kept :=
        splitAtEach_intercalate rfl none plain
      have some : ['/'].intercalate kept ≠ [] := fun blank => by
        rw [blank] at parts_eq
        rw [← parts_eq] at moves
        cases moves [] rfl
      obtain ⟨rest, joined⟩ := exists_intercalate_append none dropped
      have text_eq : text = ['/'].intercalate kept ++ rest := by
        rw [← joined, ← cutText, intercalate_splitAtEach]
      have absolute : isAbsolute (String.ofList (['/'].intercalate kept)) = isAbsolute path := by
        rw [isAbsolute_eq, isAbsolute_eq, String.toList_ofList, path_eq, text_eq,
          List.append_assoc, List.head?_append_of_ne_nil _ some]
      rw [if_neg none, List.isEmpty_eq_false_iff.mpr some, Bool.false_and,
        if_neg Bool.false_ne_true, Disk.enteredBy, Disk.start, absolute, parts,
        String.toList_ofList, parts_eq]
      rfl

end Path

namespace Disk

open MailPress.Path

/-! ## Sound disks -/

/-- No location holds both a file and a directory. -/
def IsSound (disk : Disk) : Prop :=
  ∀ file ∈ disk.files, disk.hasDirectory file.1 = false

instance (disk : Disk) : Decidable disk.IsSound :=
  inferInstanceAs (Decidable (∀ file ∈ _, _ = _))

theorem IsSound.hasDirectory
    {disk : Disk}
    {location : List String}
    (sound : disk.IsSound)
    (there : disk.hasFile location = true) :
    disk.hasDirectory location = false := by
  obtain ⟨content, found⟩ := Option.isSome_iff_exists.mp there
  obtain ⟨before, after, eq, _⟩ := List.lookup_eq_some_iff.mp found
  exact sound (location, content) (eq ▸ List.mem_append_right _ List.mem_cons_self)

/-- A path that ends in a part that does not move leads to a directory. -/
theorem hasDirectory_of_stays
    {disk : Disk}
    {path last : String}
    {front location : List String}
    (split : parts path = front ++ [last])
    (still : stays last = true)
    (leads : disk.resolve? path = some location) :
    disk.hasDirectory location = true := by
  unfold resolve? at leads
  dsimp only at leads
  split at leads
  · cases leads
  · rw [split, List.foldlM_append, Option.bind_eq_bind, Option.bind_eq_some_iff] at leads
    obtain ⟨before, _, leads⟩ := leads
    rw [List.foldlM_cons, Option.bind_eq_bind, Option.bind_eq_some_iff] at leads
    obtain ⟨after, step, rest⟩ := leads
    obtain rfl : after = location := Option.some.inj rest
    rw [step_eq, enter, still, Bool.true_or, Bool.true_and, if_pos rfl] at step
    split at step
    · cases step
    · next there => exact Option.some.inj step ▸ (by simpa using there)

/-! ## Trees -/

/-- Every file and every directory lies in a directory, no location holds both a file and a
directory, and paths start from a directory. -/
structure IsTree (disk : Disk) : Prop where
  /-- No location holds both a file and a directory. -/
  sound : disk.IsSound
  /-- Every directory lies in a directory. -/
  directories : ∀ location ∈ disk.directories, disk.hasDirectory location.dropLast = true
  /-- Every file lies in a directory. -/
  files : ∀ file ∈ disk.files, disk.hasDirectory file.1.dropLast = true
  /-- Paths that are not absolute start from a directory. -/
  start : disk.hasDirectory disk.workingDirectory = true

theorem mem_putContent
    {location : List String}
    {content : ByteArray}
    {files : List (List String × ByteArray)}
    {file : List String × ByteArray}
    (member : file ∈ putContent location content files) :
    file = (location, content) ∨ file ∈ files := by
  induction files with
  | nil => exact .inl (List.mem_singleton.mp member)
  | cons first files inductionHypothesis =>
      rw [putContent] at member
      split at member
      · rcases List.mem_cons.mp member with here | later
        · exact .inl here
        · exact .inr (.tail _ later)
      · rcases List.mem_cons.mp member with here | later
        · exact .inr (here ▸ List.mem_cons_self)
        · exact (inductionHypothesis later).imp_right (.tail _)

theorem mem_files_of_hasFile
    {disk : Disk}
    {location : List String}
    (there : disk.hasFile location = true) :
    ∃ content, (location, content) ∈ disk.files := by
  obtain ⟨content, found⟩ := Option.isSome_iff_exists.mp there
  obtain ⟨before, after, eq, _⟩ := List.lookup_eq_some_iff.mp found
  exact ⟨content, eq ▸ List.mem_append_right _ List.mem_cons_self⟩

theorem hasFile_of_mem_files
    {disk : Disk}
    {file : List String × ByteArray}
    (member : file ∈ disk.files) :
    disk.hasFile file.1 = true := by
  rw [hasFile, content?, Option.isSome_iff_ne_none]
  intro none
  have absent := List.lookup_eq_none_iff.mp none file member
  simp at absent

namespace IsTree

variable {disk other : Disk} {location last : List String} {parts front : List String}
  {path name : String} {content : ByteArray}

theorem hasDirectory_dropLast
    (tree : disk.IsTree)
    (there : disk.hasDirectory location = true) :
    disk.hasDirectory location.dropLast = true := by
  rw [hasDirectory, Bool.or_eq_true, List.isEmpty_iff, List.contains_iff_mem] at there
  rcases there with rfl | member
  · rfl
  · exact tree.directories location member

theorem hasDirectory_of_hasFile
    (tree : disk.IsTree)
    (there : disk.hasFile location = true) :
    disk.hasDirectory location.dropLast = true := by
  obtain ⟨content, member⟩ := mem_files_of_hasFile there
  exact tree.files _ member

theorem hasDirectory_start (tree : disk.IsTree) (path : String) :
    disk.hasDirectory (disk.start path) = true := by
  rw [Disk.start]
  split
  · rfl
  · exact tree.start

/-! ### Walking -/

/-- Parts lead on when the locations that they enter by name are directories. -/
theorem foldlM_step
    (tree : disk.IsTree)
    (here : disk.hasDirectory location = true)
    (entered : ∀ place ∈ entered location parts, disk.hasDirectory place = true) :
    parts.foldlM disk.step location = some (parts.foldl enter location) ∧
      disk.hasDirectory (parts.foldl enter location) = true := by
  induction parts generalizing location with
  | nil => exact ⟨rfl, here⟩
  | cons part parts inductionHypothesis =>
      rw [List.foldlM_cons, List.foldl_cons, step_eq, here, Bool.not_true, Bool.and_false,
        if_neg Bool.false_ne_true, Option.bind_eq_bind, Option.bind_some]
      rw [Path.entered] at entered
      by_cases moves : (stays part || part = "..") = true
      · rw [if_pos moves] at entered
        refine inductionHypothesis ?_ entered
        rw [enter]
        split
        · exact here
        · next up =>
            have up : part = ".." := by simpa [up] using moves
            rw [if_pos up]
            exact tree.hasDirectory_dropLast here
      · rw [if_neg moves] at entered
        have next : enter location part = location ++ [part] := by simp_all [enter]
        rw [next]
        exact inductionHypothesis (entered _ List.mem_cons_self)
          fun place member => entered place (.tail _ member)

/-- Where parts lead to a directory, they pass directories alone. -/
theorem hasDirectory_of_foldlM
    (tree : disk.IsTree)
    (leads : parts.foldlM disk.step location = some last)
    (there : disk.hasDirectory last = true) :
    disk.hasDirectory location = true ∧
      ∀ place ∈ entered location parts, disk.hasDirectory place = true := by
  induction parts generalizing location with
  | nil =>
      obtain rfl := Option.some.inj leads
      exact ⟨there, fun place member => absurd member List.not_mem_nil⟩
  | cons part parts inductionHypothesis =>
      rw [List.foldlM_cons, Option.bind_eq_bind, Option.bind_eq_some_iff] at leads
      obtain ⟨next, first, rest⟩ := leads
      obtain ⟨nextThere, later⟩ := inductionHypothesis rest
      rw [step_eq] at first
      split at first
      · cases first
      · next passes =>
          obtain rfl := Option.some.inj first
          rw [entered]
          by_cases moves : (stays part || part = "..") = true
          · rw [if_pos moves]
            rw [moves, Bool.true_and, Bool.not_eq_true', Bool.not_eq_false] at passes
            exact ⟨passes, later⟩
          · rw [if_neg moves]
            have next : enter location part = location ++ [part] := by simp_all [enter]
            rw [next] at nextThere later
            refine ⟨?_, List.forall_mem_cons.mpr ⟨nextThere, later⟩⟩
            simpa using tree.hasDirectory_dropLast nextThere

/-! ### Growing -/

/-- A directory may be added in a directory where no file is. -/
theorem addDirectory
    (tree : disk.IsTree)
    (below : disk.hasDirectory location.dropLast = true)
    (free : disk.hasFile location = false) :
    (disk.addDirectory location).IsTree := by
  have grows : ∀ place, disk.hasDirectory place = true →
      (disk.addDirectory location).hasDirectory place = true := fun place there => by
    rw [hasDirectory_addDirectory, there, Bool.true_or]
  refine ⟨fun file member => ?_, fun place member => ?_, fun file member => ?_, ?_⟩
  · rw [files_addDirectory] at member
    rw [hasDirectory_addDirectory, tree.sound file member, Bool.false_or]
    refine beq_false_of_ne fun same => ?_
    rw [← same, hasFile_of_mem_files member] at free
    cases free
  · unfold Disk.addDirectory at member
    split at member
    · exact grows _ (tree.directories place member)
    · rcases List.mem_append.mp member with old | new
      · exact grows _ (tree.directories place old)
      · rw [List.mem_singleton.mp new]
        exact grows _ below
  · rw [files_addDirectory] at member
    exact grows _ (tree.files file member)
  · rw [workingDirectory_addDirectory]
    exact grows _ tree.start

/-- Parts that enter no file may be made directories. -/
theorem withDirectories_entered
    (tree : disk.IsTree)
    (here : disk.hasDirectory location = true)
    (free : ∀ place ∈ entered location parts, disk.hasFile place = false) :
    (disk.withDirectories (entered location parts)).IsTree := by
  induction parts generalizing disk location with
  | nil => exact tree
  | cons part parts inductionHypothesis =>
      rw [entered] at free ⊢
      by_cases moves : (stays part || part = "..") = true
      · rw [if_pos moves] at free ⊢
        refine inductionHypothesis tree ?_ free
        rw [enter]
        split
        · exact here
        · next up =>
            have up : part = ".." := by simpa [up] using moves
            rw [if_pos up]
            exact tree.hasDirectory_dropLast here
      · rw [if_neg moves] at free ⊢
        obtain ⟨freeHere, free⟩ := List.forall_mem_cons.mp free
        have added := tree.addDirectory (by simpa using here) freeHere
        refine inductionHypothesis added ?_ fun place member => ?_
        · rw [hasDirectory_addDirectory, beq_self_eq_true, Bool.or_true]
        · rw [hasFile, content?, files_addDirectory]
          exact free place member

/-- A file may be put in a directory where no directory is. -/
theorem withContent
    (tree : disk.IsTree)
    (below : disk.hasDirectory location.dropLast = true)
    (free : disk.hasDirectory location = false) :
    (disk.withContent location content).IsTree := by
  refine ⟨fun file member => ?_, tree.directories, fun file member => ?_, tree.start⟩
  · rcases mem_putContent member with rfl | old
    · exact free
    · exact tree.sound file old
  · rcases mem_putContent member with rfl | old
    · exact below
    · exact tree.files file old

theorem makeDirectory?
    (tree : disk.IsTree)
    (made : disk.makeDirectory? path = some other) :
    other.IsTree := by
  rw [makeDirectory?_eq] at made
  split at made
  · cases made
  · next free =>
      rw [← Option.some.inj made]
      refine tree.withDirectories_entered (tree.hasDirectory_start path) fun place member => ?_
      exact Bool.eq_false_iff.mpr fun file => free (List.any_eq_true.mpr ⟨place, member, file⟩)

theorem write?
    (tree : disk.IsTree)
    (written : disk.write? path content = some other) :
    other.IsTree := by
  obtain ⟨_, free, below, rfl⟩ := write?_eq_some_iff.mp written
  exact tree.withContent below free

end IsTree

/-! ## Refusals -/

/-- Why a file cannot be written, if it cannot. -/
def refusal? (disk : Disk) (path : String) : Option BuildError :=
  if (disk.parents path).any disk.hasFile then some (.write ((parent? path).getD ""))
  else if disk.hasDirectory (disk.locate path) ||
      (disk.parents path).contains (disk.locate path) then some (.write path)
  else none

variable {disk other : Disk} {path name : String} {front : List String} {content : ByteArray}

/-- Before a path is written its directories are made, those that it enters in front of its
name. -/
theorem parents_eq
    (split : parts path = front ++ [name])
    (named : isName name = true)
    (disk : Disk) :
    disk.parents path = entered (disk.start path) front := by
  obtain ⟨directory, parent, entered⟩ := exists_parent?_eq split named
  rw [parents, parent, Option.map_some, Option.getD_some, entered]

theorem locate_eq
    (split : parts path = front ++ [name])
    (named : isName name = true)
    (disk : Disk) :
    disk.locate path = front.foldl enter (disk.start path) ++ [name] := by
  rw [locate, split, List.foldl_append, List.foldl_cons, List.foldl_nil, enter_of_isName named]

/-- When its directories are there, a path leads to its location, and that is in one of them. -/
theorem IsTree.resolve?_eq
    (tree : disk.IsTree)
    (split : parts path = front ++ [name])
    (named : isName name = true)
    (ready : ∀ place ∈ disk.parents path, disk.hasDirectory place = true) :
    disk.resolve? path = some (disk.locate path) ∧
      disk.hasDirectory (disk.locate path).dropLast = true := by
  rw [parents_eq split named] at ready
  obtain ⟨leads, there⟩ := tree.foldlM_step (tree.hasDirectory_start path) ready
  rw [locate_eq split named, List.dropLast_concat]
  refine ⟨?_, there⟩
  have nonempty : path.isEmpty = false := by
    refine Bool.eq_false_iff.mpr fun blank => ?_
    rw [String.isEmpty_iff.mp blank] at split
    have last := congrArg List.getLast? split
    rw [List.getLast?_concat] at last
    obtain rfl : "" = name := Option.some.inj last
    cases named
  rw [resolve?, nonempty, if_neg Bool.false_ne_true, split, List.foldlM_append]
  change (front.foldlM disk.step (disk.start path) >>= _) = _
  rw [leads, Option.bind_eq_bind, Option.bind_some, List.foldlM_cons, step_eq,
    stays_of_isName named, Bool.false_or, decide_eq_false (ne_up_of_isName named), Bool.false_and,
    if_neg Bool.false_ne_true, enter_of_isName named]
  rfl

/-- What is read can be written. -/
theorem IsTree.refusal?_of_read?
    (tree : disk.IsTree)
    (split : parts path = front ++ [name])
    (named : isName name = true)
    (read : disk.read? path = some content) :
    disk.refusal? path = none := by
  obtain ⟨location, leads, found⟩ := Option.bind_eq_some_iff.mp read
  obtain rfl := eq_locate leads
  have file : disk.hasFile (disk.locate path) = true := Option.isSome_iff_exists.mpr ⟨_, found⟩
  have below := tree.hasDirectory_of_hasFile file
  have free := tree.sound.hasDirectory file
  have passed : ∀ place ∈ disk.parents path, disk.hasDirectory place = true := by
    unfold resolve? at leads
    dsimp only at leads
    split at leads
    · cases leads
    · rw [split, List.foldlM_append, Option.bind_eq_bind, Option.bind_eq_some_iff] at leads
      obtain ⟨before, leads, _⟩ := leads
      have before_eq := eq_foldl_enter leads
      rw [locate_eq split named, List.dropLast_concat] at below
      rw [parents_eq split named]
      exact (tree.hasDirectory_of_foldlM leads (before_eq ▸ below)).2
  have noFile : (disk.parents path).any disk.hasFile = false := by
    rw [List.any_eq_false]
    intro place member file
    have there := passed place member
    rw [tree.sound.hasDirectory file] at there
    cases there
  have noDirectory : (disk.parents path).contains (disk.locate path) = false := by
    refine Bool.eq_false_iff.mpr fun member => ?_
    have there := passed _ (List.contains_iff_mem.mp member)
    rw [free] at there
    cases there
  rw [refusal?, noFile, free, noDirectory]
  rfl

/-- The same refusal on a disk where nothing has changed that the path needs. -/
theorem refusal?_congr
    (grows : disk.Grows other)
    (files : ∀ place ∈ disk.parents path, other.hasFile place = disk.hasFile place)
    (free : other.hasDirectory (disk.locate path) = disk.hasDirectory (disk.locate path)) :
    other.refusal? path = disk.refusal? path := by
  have blocked : (disk.parents path).any other.hasFile = (disk.parents path).any disk.hasFile := by
    rw [Bool.eq_iff_iff, List.any_eq_true, List.any_eq_true]
    exact exists_congr fun place => and_congr_right fun member => by rw [files place member]
  rw [refusal?, refusal?, grows.parents, grows.locate, blocked, free]

end Disk

namespace Workspace

open MailPress.Path

variable {space : Workspace} {place path name : String} {front : List String}
  {content : ByteArray}

theorem isTree_store (tree : space.disk.IsTree) (path : String) (content : ByteArray) :
    (space.store path content).2.disk.IsTree := by
  unfold store
  dsimp only
  cases parent : parent? path with
  | none =>
      rw [Option.elim_none]
      dsimp only
      split
      · exact tree
      · next written => exact tree.write? written
  | some directory =>
      rw [Option.elim_some]
      split
      · exact tree
      · next ready made =>
          split
          · exact tree.makeDirectory? made
          · next written => exact (tree.makeDirectory? made).write? written

theorem isTree_write (tree : space.disk.IsTree) (place : String) (content : ByteArray) :
    (space.write place content).2.disk.IsTree := by
  rcases write_cases space place content with ⟨eq, _⟩ | ⟨eq, _⟩ | ⟨eq, _⟩ <;> rw [eq]
  · exact tree
  · exact tree
  · exact isTree_store tree _ content

/-- On a tree a file is stored unless it is refused. -/
theorem store_fst
    (tree : space.disk.IsTree)
    (split : parts path = front ++ [name])
    (named : isName name = true)
    (content : ByteArray) :
    (space.store path content).1 =
      match space.disk.refusal? path with
      | some error => .error error
      | none => .ok .written := by
  obtain ⟨directory, parent, _⟩ := exists_parent?_eq split named
  have parents : space.disk.enteredBy directory = space.disk.parents path := by
    rw [Disk.parents, parent, Option.map_some, Option.getD_some]
  unfold store Disk.refusal?
  dsimp only
  rw [parent, Option.elim_some, Option.getD_some, Disk.makeDirectory?_eq, parents]
  cases blocked : (space.disk.parents path).any space.disk.hasFile with
  | true => rfl
  | false =>
      simp only [Bool.false_eq_true, if_false]
      have grows := space.disk.grows_withDirectories (space.disk.parents path)
      have made : space.disk.makeDirectory? directory =
          some (space.disk.withDirectories (space.disk.parents path)) := by
        rw [Disk.makeDirectory?_eq, parents, blocked, if_neg Bool.false_ne_true]
      have tree := tree.makeDirectory? made
      obtain ⟨leads, below⟩ := tree.resolve?_eq split named fun other member => by
        rw [grows.parents] at member
        rw [Disk.hasDirectory_withDirectories, List.contains_iff_mem.mpr member, Bool.or_true]
      have writes := write?_eq_none_iff leads content
      rw [below, grows.locate, Disk.hasDirectory_withDirectories] at writes
      generalize space.disk.withDirectories (space.disk.parents path) = ready at writes ⊢
      cases written : ready.write? path content with
      | none =>
          have refused := writes.mp written
          simp only [Bool.true_eq_false, or_false] at refused
          rw [if_pos refused]
      | some done =>
          have free := mt writes.mpr (written ▸ Option.some_ne_none done)
          simp only [Bool.true_eq_false, or_false] at free
          rw [if_neg free]

/-- On a tree, when what is remembered of a file is what it holds, a file is written or left as it
is unless it is refused. -/
theorem write_fst
    (tree : space.disk.IsTree)
    (honest : ∀ old, space.writer.remembered? (join space.writer.root place) = some old →
      space.disk.read? (join space.writer.root place) = some old)
    (split : parts (join space.writer.root place) = front ++ [name])
    (named : isName name = true)
    (content : ByteArray) :
    (∃ error, space.disk.refusal? (join space.writer.root place) = some error ∧
        (space.write place content).1 = .error error) ∨
      space.disk.refusal? (join space.writer.root place) = none ∧
        ∃ outcome, (space.write place content).1 = .ok outcome := by
  have read (there : space.disk.read? (join space.writer.root place) = some content) :=
    tree.refusal?_of_read? split named there
  rcases write_cases space place content with ⟨eq, known⟩ | ⟨eq, there, _⟩ | ⟨eq, _⟩ <;> rw [eq]
  · exact .inr ⟨read (honest content known), _, rfl⟩
  · exact .inr ⟨read (Disk.read?_of_look? there), _, rfl⟩
  · rw [store_fst tree split named]
    cases space.disk.refusal? (join space.writer.root place) with
    | some error => exact .inl ⟨error, rfl, rfl⟩
    | none => exact .inr ⟨rfl, _, rfl⟩

end Workspace
end MailPress
