import MailPress.Image.Sizer
import MailPress.Proofs.Disk.Tree
import MailPress.Proofs.Text.Ascii
import MailPress.Proofs.Text.Search
import MailPress.Style.Compilation

/-!
# Where the files of a template go

A build writes three files under the name of each template, compiled style sheets, and copies of
images. No two of them share a place by accident: the three files end in other letters than style
sheets and images do, and two templates with different names have different files.
-/

namespace MailPress
namespace Path

open Text

variable {path other : String} {disk : Disk}

/-- Two paths with different components, which lead to different locations on every disk. -/
def IsAside (path other : String) : Prop :=
  components path ≠ components other ∧ ∀ disk : Disk, disk.locate path ≠ disk.locate other

/-- Parts that are no components do not move. -/
theorem foldl_enter_components (location : List String) (path : String) :
    (parts path).foldl enter location = (components path).foldl enter location := by
  unfold components
  induction parts path generalizing location with
  | nil => rfl
  | cons part parts inductionHypothesis =>
      have counts : (!part.isEmpty && part != ".") = !stays part := by
        simp [stays, bne, Bool.beq_eq_decide_eq]
      rw [List.foldl_cons, inductionHypothesis, List.filter_cons, counts]
      cases still : stays part with
      | true => rw [enter, still, if_pos rfl, Bool.not_true, if_neg Bool.false_ne_true]
      | false => rw [Bool.not_false, if_pos rfl, List.foldl_cons]

theorem locate_eq_concat
    {name : String}
    (last : (components path).getLast? = some name)
    (named : name ≠ "..")
    (disk : Disk) :
    ∃ front, disk.locate path = front ++ [name] := by
  have moves : stays name = false := by
    obtain ⟨front, eq⟩ := List.getLast?_eq_some_iff.mp last
    have member : name ∈ components path := eq ▸ List.mem_append_right _ List.mem_cons_self
    simpa [stays] using (List.mem_filter.mp member).2
  obtain ⟨front, eq⟩ := List.getLast?_eq_some_iff.mp last
  refine ⟨front.foldl enter (disk.start path), ?_⟩
  rw [Disk.locate, foldl_enter_components, eq, List.foldl_append, List.foldl_cons, List.foldl_nil,
    enter, moves, if_neg Bool.false_ne_true, if_neg named]

/-- Where a path leads is told by its components, and by whether it is absolute. -/
theorem locate_congr
    (absolute : isAbsolute path = isAbsolute other)
    (same : components path = components other)
    (disk : Disk) :
    disk.locate path = disk.locate other := by
  rw [Disk.locate, Disk.locate, foldl_enter_components, foldl_enter_components, same, Disk.start,
    Disk.start, absolute]

/-- Paths below the same directory have the same components when the rests have. -/
theorem components_join_eq_iff
    (absolute : isAbsolute path = isAbsolute other)
    (root : String) :
    components (join root path) = components (join root other) ↔
      components path = components other := by
  cases kind : isAbsolute path with
  | true => rw [join, if_pos kind, join, if_pos (absolute ▸ kind)]
  | false => rw [components_join kind, components_join (absolute ▸ kind), List.append_cancel_left_eq]

theorem isAbsolute_join_congr
    (absolute : isAbsolute path = isAbsolute other)
    (root : String) :
    isAbsolute (join root path) = isAbsolute (join root other) := by
  cases kind : isAbsolute path with
  | true => rw [join, if_pos kind, join, if_pos (absolute ▸ kind), absolute]
  | false => rw [isAbsolute_join kind, isAbsolute_join (absolute ▸ kind)]

/-! ## The last letter of a path -/

/-- The last character of the last component of a path, in lower case. -/
def lastLetter? (path : String) : Option Char :=
  (components path).getLast?.bind fun name => name.toList.getLast?.map lowerChar

theorem isAside_of_lastLetter?
    {first second : Char}
    (letter : lastLetter? path = some first)
    (otherLetter : lastLetter? other = some second)
    (different : first ≠ second)
    (plain : first ≠ '.')
    (otherPlain : second ≠ '.') :
    IsAside path other := by
  refine ⟨fun same => different ?_, fun disk same => different ?_⟩
  · rw [lastLetter?, same] at letter
    exact Option.some.inj (letter.symm.trans otherLetter)
  · obtain ⟨name, last, letter⟩ := Option.bind_eq_some_iff.mp letter
    obtain ⟨otherName, otherLast, otherLetter⟩ := Option.bind_eq_some_iff.mp otherLetter
    have named : name ≠ ".." := by
      rintro rfl
      exact plain (Option.some.inj letter).symm
    have otherNamed : otherName ≠ ".." := by
      rintro rfl
      exact otherPlain (Option.some.inj otherLetter).symm
    obtain ⟨front, leads⟩ := locate_eq_concat last named disk
    obtain ⟨otherFront, otherLeads⟩ := locate_eq_concat otherLast otherNamed disk
    rw [leads, otherLeads] at same
    obtain rfl : name = otherName := by simpa using (List.append_inj' same rfl).2
    exact Option.some.inj (letter.symm.trans otherLetter)

/-- What a text ends with is in its last piece, if it has no separator. -/
theorem splitAtEach_append
    {isSeparator : Char → Bool}
    {ending : List Char}
    (plain : ∀ c ∈ ending, isSeparator c = false)
    (front : List Char) :
    ∃ pieces last, splitAtEach isSeparator (front ++ ending) = pieces ++ [last ++ ending] := by
  induction front with
  | nil => exact ⟨[], [], by rw [List.nil_append, splitAtEach_eq_singleton plain]; rfl⟩
  | cons c front inductionHypothesis =>
      obtain ⟨pieces, last, split⟩ := inductionHypothesis
      rw [List.cons_append]
      cases kind : isSeparator c with
      | true =>
          rw [splitAtEach_cons_of_separator kind, split]
          exact ⟨[] :: pieces, last, rfl⟩
      | false =>
          rw [splitAtEach_cons_of_not_separator kind, split]
          cases pieces with
          | nil => exact ⟨[], c :: last, rfl⟩
          | cons piece pieces => exact ⟨(c :: piece) :: pieces, last, rfl⟩

theorem lastLetter?_of_toList_eq
    {front ending : List Char}
    {letter : Char}
    (ends : path.toList = front ++ ending)
    (plain : ∀ c ∈ ending, (c == '/') = false)
    (last : ending.getLast? = some letter)
    (named : letter ≠ '.') :
    lastLetter? path = some (lowerChar letter) := by
  obtain ⟨pieces, piece, split⟩ := splitAtEach_append plain front
  have toList : (piece ++ ending).getLast? = some letter := by
    rw [List.getLast?_append, last, Option.some_or]
  have kept : (!(String.ofList (piece ++ ending)).isEmpty &&
      String.ofList (piece ++ ending) != ".") = true := by
    rw [Bool.and_eq_true, Bool.not_eq_true', Bool.eq_false_iff, ne_eq, bne_iff_ne,
      String.isEmpty_iff, ← String.toList_eq_nil_iff, String.toList_ofList]
    refine ⟨fun empty => by simp [empty] at toList, fun dot => ?_⟩
    have dot := congrArg String.toList dot
    rw [String.toList_ofList] at dot
    rw [dot] at toList
    exact named (Option.some.inj toList).symm
  rw [lastLetter?, components, parts, ends, split, List.map_append, List.map_cons, List.map_nil,
    List.filter_append, List.filter_cons, if_pos kept, List.filter_nil, List.getLast?_append]
  simp only [List.getLast?_singleton, Option.some_or, Option.bind_some, String.toList_ofList,
    toList, Option.map_some]

theorem toList_join (root place : String) :
    ∃ front, (join root place).toList = front ++ place.toList := by
  unfold join
  split
  · exact ⟨[], rfl⟩
  · split
    · exact ⟨root.toList, String.toList_append⟩
    · exact ⟨root.toList ++ ['/'], by simp⟩

theorem lastLetter?_join_of_toList_eq
    {place : String}
    {front ending : List Char}
    {letter : Char}
    (ends : place.toList = front ++ ending)
    (plain : ∀ c ∈ ending, (c == '/') = false)
    (last : ending.getLast? = some letter)
    (named : letter ≠ '.')
    (root : String) :
    lastLetter? (join root place) = some (lowerChar letter) := by
  obtain ⟨before, joined⟩ := toList_join root place
  have all : (join root place).toList = (before ++ front) ++ ending := by
    rw [joined, ends, List.append_assoc]
  exact lastLetter?_of_toList_eq all plain last named

/-- The last component of a path below a root is that of the path, if it has one. -/
theorem getLast?_components_join
    {place : String}
    (nonempty : components place ≠ [])
    (root : String) :
    (components (join root place)).getLast? = (components place).getLast? := by
  cases relative : isAbsolute place with
  | true => rw [join, if_pos relative]
  | false => rw [components_join relative, List.getLast?_append_of_ne_nil _ nonempty]

/-- A file name with an ending ends in the last letter of its ending. -/
theorem getLast?_of_ending?
    {name ending : String}
    {letter : Char}
    (cut : ending? name = some ending)
    (last : ending.toList.getLast? = some letter) :
    name.toList.getLast? = some letter := by
  unfold ending? splitName at cut
  cases split : splitLast ['.'] name.toList with
  | none => simp [split] at cut
  | some parts =>
      obtain ⟨stem, rest⟩ := parts
      simp only [split] at cut
      split at cut
      · cases cut
      · obtain rfl : String.ofList rest = ending := by simpa using cut
        rw [String.toList_ofList] at last
        rw [eq_append_of_splitLast split, List.getLast?_append, List.getLast?_cons, last]
        rfl

end Path

namespace Template

open MailPress.Path

variable {template other : Template} {suffix otherSuffix : String}

/-- The endings of the three files that are built of a template. -/
def suffixes : List String :=
  ["html", "dev.html", "txt"]

/-- A template as it is found in its directory. -/
def IsFound (template : Template) : Prop :=
  template = ofDirectory template.directory

instance (template : Template) : Decidable template.IsFound :=
  inferInstanceAs (Decidable (template = _))

theorem lastLetter?_artifact
    (member : suffix ∈ suffixes)
    (template : Template)
    (root : String) :
    ∃ letter ∈ ['l', 't'], lastLetter? (join root (template.artifact suffix)) = some letter := by
  obtain ⟨front, joined⟩ := toList_join template.name (template.name ++ "." ++ suffix)
  have ends : (template.artifact suffix).toList =
      (front ++ template.name.toList ++ ['.']) ++ suffix.toList := by
    rw [artifact, joined]
    simp
  have letter := fun {letter} => @lastLetter?_join_of_toList_eq _ _ _ letter ends
  simp only [suffixes, List.mem_cons, List.not_mem_nil, or_false] at member
  rcases member with rfl | rfl | rfl
  · exact ⟨'l', by decide, letter (by simp) rfl (by decide) root⟩
  · exact ⟨'l', by decide, letter (by simp) rfl (by decide) root⟩
  · exact ⟨'t', by decide, letter (by simp) rfl (by decide) root⟩

/-- A path that ends in another letter is aside from the files of a template. -/
theorem isAside_artifact
    {path : String}
    {letter : Char}
    (last : lastLetter? path = some letter)
    (different : letter ∉ ['l', 't', '.'])
    (member : suffix ∈ suffixes)
    (template : Template)
    (root : String) :
    IsAside path (join root (template.artifact suffix)) := by
  obtain ⟨artifactLetter, either, artifactLast⟩ := lastLetter?_artifact member template root
  simp only [List.mem_cons, List.not_mem_nil, or_false, not_or] at different either
  refine isAside_of_lastLetter? last artifactLast ?_ different.2.2 ?_ <;>
    rcases either with rfl | rfl
  · exact different.1
  · exact different.2.1
  · decide
  · decide

/-! ## Style sheets and images -/

theorem toList_cssFileName (name : String) :
    ∃ front, (Style.cssFileName name).toList = front ++ ".css".toList := by
  unfold Style.cssFileName
  split <;> exact ⟨_, String.toList_append⟩

/-- A compiled style sheet is aside from the files of a template. -/
theorem isAside_css
    (member : suffix ∈ suffixes)
    (root directory name : String)
    (template : Template) :
    IsAside (join root (join directory (Style.cssFileName name)))
      (join root (template.artifact suffix)) := by
  obtain ⟨before, css⟩ := toList_cssFileName name
  obtain ⟨front, joined⟩ := toList_join directory (Style.cssFileName name)
  have ends : (join directory (Style.cssFileName name)).toList =
      (front ++ before) ++ ".css".toList := by rw [joined, css, List.append_assoc]
  exact isAside_artifact (lastLetter?_join_of_toList_eq ends (by simp) rfl (by decide) root)
    (by decide) member template root

theorem getLast?_of_format
    {ending : String}
    {format : Image.Format}
    (known : Image.Format.ofEnding? ending = some format) :
    ∃ letter ∈ ['g', 'f', 'p'], ending.toList.getLast?.map Text.lowerChar = some letter := by
  have listed := List.find?_some known
  have lowered : (Text.lower ending).toList.getLast? =
      ending.toList.getLast?.map Text.lowerChar := by
    rw [Text.toList_lower, List.getLast?_map]
  rw [List.contains_iff_mem] at listed
  have every : ∀ format : Image.Format, ∀ ending ∈ format.endings,
      ∃ letter ∈ ['g', 'f', 'p'], ending.toList.getLast? = some letter := by
    intro format ending member
    cases format <;>
      simp only [Image.Format.endings, List.mem_cons, List.not_mem_nil, or_false] at member
    · rcases member with rfl | rfl <;> exact ⟨'g', by decide, rfl⟩
    · rcases member with rfl | rfl | rfl
      · exact ⟨'g', by decide, rfl⟩
      · exact ⟨'g', by decide, rfl⟩
      · exact ⟨'f', by decide, rfl⟩
    · exact ⟨'f', by decide, member ▸ rfl⟩
    · exact ⟨'p', by decide, member ▸ rfl⟩
    · exact ⟨'p', by decide, member ▸ rfl⟩
  obtain ⟨letter, either, last⟩ := every format _ listed
  exact ⟨letter, either, lowered ▸ last⟩

theorem isAbsolute_localPath (source : String) : isAbsolute (Image.localPath source) = false := by
  rw [isAbsolute_eq, Image.localPath, String.toList_ofList]
  generalize Image.dropPairs _ _ _ = text
  cases kept : text.dropWhile (· == '/') with
  | nil => rfl
  | cons c rest =>
      have first := List.head?_dropWhile_not (· == '/') text
      rw [kept] at first
      simpa using first

/-- A path of single dots, which is a directory wherever it leads, is no image. -/
theorem measure_ne_ok_of_components_eq_nil
    {disk : Disk}
    {source : String}
    (sound : disk.IsSound)
    (blank : components (Image.localPath source) = [])
    (directory : String)
    (size : Image.Size) :
    Image.measure disk source (join directory (Image.localPath source)) ≠ .ok size := by
  have relative := isAbsolute_localPath source
  have still : ∀ part ∈ parts (Image.localPath source), stays part = true := by
    intro part member
    have dropped := List.filter_eq_nil_iff.mp blank part member
    simpa [stays, imp_iff_not_or] using dropped
  have nonempty : parts (Image.localPath source) ≠ [] := by
    simpa [parts] using Text.splitAtEach_ne_nil _ _
  have split := List.dropLast_append_getLast nonempty
  have joined : parts (join directory (Image.localPath source)) =
      (front directory ++ (parts (Image.localPath source)).dropLast) ++
        [(parts (Image.localPath source)).getLast nonempty] := by
    rw [parts_join relative, List.append_assoc, split]
  have noFile : disk.isFile (join directory (Image.localPath source)) = false := by
    cases leads : disk.resolve? (join directory (Image.localPath source)) with
    | none => rw [Disk.isFile, leads, Option.any_none]
    | some location =>
        have there := Disk.hasDirectory_of_stays joined (still _ (List.getLast_mem nonempty)) leads
        rw [Disk.isFile, leads, Option.any_some]
        exact Bool.eq_false_iff.mpr fun file => by simp [sound.hasDirectory file] at there
  simp [Image.measure, noFile]

/-- The copy of an image that was measured is aside from the files of a template. -/
theorem isAside_copy
    {disk : Disk}
    {source : String}
    {size : Image.Size}
    (sound : disk.IsSound)
    (measured : Image.measure disk source
      (join other.directory (Image.localPath source)) = .ok size)
    (member : suffix ∈ suffixes)
    (root : String)
    (template : Template) :
    IsAside (join root (join other.name (Image.localPath source)))
      (join root (template.artifact suffix)) := by
  have relative := isAbsolute_localPath source
  have nonempty : components (Image.localPath source) ≠ [] := fun blank =>
    measure_ne_ok_of_components_eq_nil sound blank other.directory size measured
  obtain ⟨format, known⟩ : ∃ format, ((fileName? (join other.directory (Image.localPath source))).bind
      ending?).bind Image.Format.ofEnding? = some format := by
    unfold Image.measure at measured
    split at measured
    · cases measured
    · dsimp only at measured
      split at measured
      · next format _ known _ => exact ⟨format, known⟩
      · cases measured
  obtain ⟨ending, ends, known⟩ := Option.bind_eq_some_iff.mp known
  obtain ⟨name, named, cut⟩ := Option.bind_eq_some_iff.mp ends
  obtain ⟨letter, either, lowered⟩ := getLast?_of_format known
  obtain ⟨c, last, rfl⟩ := Option.map_eq_some_iff.mp lowered
  have below := getLast?_components_join nonempty other.name
  have final := (Option.filter_eq_some_iff.mp named).1
  rw [getLast?_components_join nonempty] at final
  have some : components (join other.name (Image.localPath source)) ≠ [] := by
    intro blank
    rw [blank, final] at below
    cases below
  have letter : lastLetter? (join root (join other.name (Image.localPath source))) =
      .some (Text.lowerChar c) := by
    rw [lastLetter?, getLast?_components_join some, below, final, Option.bind_some,
      getLast?_of_ending? cut last, Option.map_some]
  refine isAside_artifact letter ?_ member template root
  simp only [List.mem_cons, List.not_mem_nil, or_false] at either
  rcases either with eq | eq | eq <;> rw [eq] <;> decide

/-! ## The three files -/

theorem isName_of_mem_components
    {path name : String}
    (member : name ∈ components path)
    (named : name ≠ "..") :
    isName name = true := by
  obtain ⟨part, kept⟩ := List.mem_filter.mp member
  obtain ⟨piece, listed, rfl⟩ := List.mem_map.mp part
  have plain : '/' ∉ piece := fun slash => by
    simpa using Text.not_separator_of_mem_splitAtEach listed '/' slash
  simp_all [isName]

/-- The names that lead to a file of a template, below the output directory. -/
def artifactNames (template : Template) (suffix : String) : List String :=
  (if template.name.isEmpty then [] else [template.name]) ++ [template.name ++ "." ++ suffix]

theorem IsFound.isName
    (found : template.IsFound)
    (named : template.name ≠ "") :
    isName template.name = true := by
  have eq : template.name = (fileName? template.directory).getD "" := congrArg name found
  rw [eq] at named ⊢
  cases file : fileName? template.directory with
  | none => simp [file] at named
  | some name =>
      obtain ⟨last, up⟩ := Option.filter_eq_some_iff.mp file
      exact isName_of_mem_components (List.mem_of_getLast? last) (by simpa using up)

theorem isName_artifactName
    {name : String}
    (plain : '/' ∉ name.toList)
    (member : suffix ∈ suffixes) :
    isName (name ++ "." ++ suffix) = true := by
  have ends : (name ++ "." ++ suffix).toList = name.toList ++ '.' :: suffix.toList := by simp
  have length : 3 ≤ suffix.toList.length ∧ '/' ∉ suffix.toList := by
    simp only [suffixes, List.mem_cons, List.not_mem_nil, or_false] at member
    rcases member with rfl | rfl | rfl <;> decide
  have ne {other : String} (short : other.toList.length < 4) : name ++ "." ++ suffix ≠ other := by
    rintro rfl
    rw [ends, List.length_append, List.length_cons] at short
    omega
  have noSlash : '/' ∉ (name ++ "." ++ suffix).toList := by
    rw [ends]
    simp [plain, length.2]
  have nonempty : name ++ "." ++ suffix ≠ "" := ne (by decide)
  have noDot : name ++ "." ++ suffix ≠ "." := ne (by decide)
  have noUp : name ++ "." ++ suffix ≠ ".." := ne (by decide)
  generalize name ++ "." ++ suffix = file at noSlash nonempty noDot noUp
  simp [isName, noSlash, nonempty, noDot, noUp]

theorem IsFound.noSlash (found : template.IsFound) : '/' ∉ template.name.toList := by
  by_cases blank : template.name = ""
  · simp [blank]
  · exact fun slash => by simpa using noSlash_of_isName (found.isName blank) '/' slash

theorem isPlace_artifactNames
    (found : template.IsFound)
    (member : suffix ∈ suffixes) :
    IsPlace (template.artifactNames suffix) := by
  have file := isName_artifactName found.noSlash member
  refine ⟨by simp [artifactNames], fun name listed => ?_⟩
  rcases List.mem_append.mp listed with directory | last
  · split at directory
    · cases directory
    · next named =>
        rw [List.mem_singleton.mp directory]
        exact found.isName (by simpa using named)
  · exact List.mem_singleton.mp last ▸ file

theorem artifact_eq
    (found : template.IsFound)
    (member : suffix ∈ suffixes) :
    template.artifact suffix = ofComponents (template.artifactNames suffix) := by
  have file := isName_artifactName found.noSlash member
  have relative : isAbsolute (template.name ++ "." ++ suffix) = false := by
    have named : ∀ name ∈ [template.name ++ "." ++ suffix], isName name = true := by simpa using file
    simpa [ofComponents] using isAbsolute_ofComponents named
  unfold artifact artifactNames join
  rw [if_neg (by simp [relative])]
  by_cases blank : template.name = ""
  · rw [blank]
    simp [ofComponents]
  · have noEnd : Text.hasEnd "/" template.name = false := by
      refine Bool.eq_false_iff.mpr fun ends => found.noSlash ?_
      obtain ⟨front, split⟩ := (hasEnd_slash_iff template.name).mp ends
      simp [split]
    simp [ofComponents, blank, noEnd, String.intercalate_cons_cons]

/-- Files of templates with different names, and different files of one template, are aside. -/
theorem isAside_artifact_artifact
    (found : template.IsFound)
    (otherFound : other.IsFound)
    (member : suffix ∈ suffixes)
    (otherMember : otherSuffix ∈ suffixes)
    (different : template.name ≠ other.name ∨ suffix ≠ otherSuffix)
    (root : String) :
    IsAside (join root (template.artifact suffix)) (join root (other.artifact otherSuffix)) := by
  have place := isPlace_artifactNames found member
  have otherPlace := isPlace_artifactNames otherFound otherMember
  have names : template.artifactNames suffix ≠ other.artifactNames otherSuffix := by
    intro same
    obtain ⟨directories, files⟩ := List.append_inj' same rfl
    have name : template.name = other.name := by
      by_cases blank : template.name = "" <;> by_cases otherBlank : other.name = "" <;>
        simp_all
    rw [name] at files
    have suffix : suffix = otherSuffix := by simpa using files
    exact different.elim (· name) (· suffix)
  rw [artifact_eq found member, artifact_eq otherFound otherMember]
  refine ⟨fun same => names (place.eq_of_components_join_eq otherPlace same), fun disk same => ?_⟩
  rw [place.locate_join, otherPlace.locate_join] at same
  exact names (List.append_cancel_left same)

end Template
end MailPress
