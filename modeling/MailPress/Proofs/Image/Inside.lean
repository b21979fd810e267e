import MailPress.Proofs.Image.AnyOrder
import MailPress.Proofs.Project.Places

/-!
# Which copies stay inside the output directory

The copy of an image lies below the output directory where the image lies below its template. The
parts of its source may lead up again, past the directory of the template. What counts is how far
they lead up, and whether they come down by the names that they passed.
-/

namespace MailPress
namespace Path

/-- A way to another location: up by some levels, and then down by some names. -/
structure Way where
  /-- How many levels the way leads up. -/
  up : Nat
  /-- The names that it leads down by. -/
  down : List String
  deriving DecidableEq, Repr

namespace Way

/-- The way on by one more part. -/
def follow (way : Way) (part : String) : Way :=
  if stays part then way
  else if part = ".." then
    if way.down.isEmpty then { way with up := way.up + 1 }
    else { way with down := way.down.dropLast }
  else { way with down := way.down ++ [part] }

/-- The way that parts lead. -/
def along (parts : List String) : Way :=
  parts.foldl follow ⟨0, []⟩

/-- Where a way leads from a location. -/
def goal (way : Way) (location : List String) : List String :=
  location.take (location.length - way.up) ++ way.down

theorem goal_follow (way : Way) (part : String) (location : List String) :
    (way.follow part).goal location = enter (way.goal location) part := by
  unfold follow enter
  split
  · rfl
  · split
    · split
      · next blank =>
          simp only [goal, List.isEmpty_iff.mp blank, List.append_nil, List.dropLast_eq_take,
            List.take_take, List.length_take]
          congr 1
          omega
      · next named => simp [goal, List.dropLast_append_of_ne_nil, List.isEmpty_iff.not.mp named]
    · simp [goal]

/-- Parts lead to the goal of their way. -/
theorem goal_along (location parts : List String) :
    (along parts).goal location = parts.foldl enter location := by
  have onward (way : Way) :
      (parts.foldl follow way).goal location = parts.foldl enter (way.goal location) := by
    induction parts generalizing way with
    | nil => rfl
    | cons part parts inductionHypothesis =>
        rw [List.foldl_cons, inductionHypothesis, goal_follow, List.foldl_cons]
  rw [along, onward, goal, Nat.sub_zero, List.take_length, List.append_nil]

/-- A way from a directory of a base leads below the base if it leads down by the names that it
passed above the directory. -/
def ComesBack (way : Way) (base : List String) : Prop :=
  base.drop (base.length - (way.up - 1)) <+: way.down

instance (way : Way) (base : List String) : Decidable (way.ComesBack base) :=
  inferInstanceAs (Decidable (_ <+: _))

theorem prefix_goal_concat_iff (way : Way) (base : List String) (name : String) :
    base <+: way.goal (base ++ [name]) ↔ way.ComesBack base := by
  obtain ⟨up, down⟩ := way
  unfold ComesBack goal
  cases up with
  | zero =>
      rw [Nat.sub_zero, List.take_length]
      simp
  | succ more =>
      have kept : (base ++ [name]).take ((base ++ [name]).length - (more + 1)) =
          base.take (base.length - more) := by
        rw [List.length_append, List.length_singleton, Nat.add_sub_add_right,
          List.take_append_of_le_length (Nat.sub_le _ _)]
      have split := List.take_append_drop (base.length - more) base
      dsimp only
      rw [kept, Nat.add_sub_cancel]
      nth_rewrite 1 [← split]
      exact List.prefix_append_right_inj _

end Way

theorem front_of_isName {name : String} (named : isName name = true) : front name = [name] := by
  have alone : ∀ other ∈ [name], isName other = true := by simpa using named
  have single : parts name = [name] := by
    simpa [ofComponents] using parts_ofComponents alone (by simp)
  have noEnd : Text.hasEnd "/" name = false := by
    refine Bool.eq_false_iff.mpr fun ends => ?_
    obtain ⟨front, split⟩ := (hasEnd_slash_iff name).mp ends
    simpa using noSlash_of_isName named '/' (by simp [split])
  have nonempty : name.isEmpty = false := by
    refine Bool.eq_false_iff.mpr fun blank => ?_
    rw [String.isEmpty_iff.mp blank] at named
    cases named
  rw [front, nonempty, noEnd, if_neg Bool.false_ne_true, if_neg Bool.false_ne_true, single]

end Path

/-- A root is at the location that the paths below it lead on from. -/
theorem Disk.base_eq_locate (disk : Disk) (root : String) : disk.base root = disk.locate root := by
  unfold base locate Path.front
  split
  · next blank =>
      rw [String.isEmpty_iff.mp blank]
      rfl
  · split
    · next finished =>
        obtain ⟨front, chars⟩ := (Path.hasEnd_slash_iff root).mp finished
        have split := @Text.splitAtEach_append_cons (· == '/') '/' rfl front []
        simp [Path.parts, chars, split, Text.splitAtEach, Path.enter, Path.stays]
    · rfl

namespace Workspace

theorem writes_copy (space : Workspace) (source place : String) :
    Disk.Writes (Path.join space.writer.root place) space.disk
      (space.copy source place).2.disk := by
  unfold copy
  split
  · exact ⟨[], List.nil_subset _, .inl rfl⟩
  · exact space.writes_write place _

@[simp] theorem root_copy (space : Workspace) (source place : String) :
    (space.copy source place).2.writer.root = space.writer.root := by
  unfold copy
  split
  · rfl
  · exact space.root_write place _

end Workspace

namespace Image

open MailPress.Path

/-- The source of an image leads back into an output directory: it leads up no further than out
of the directory of its template, or down again by the names that it passed. -/
def ComesBack (base : List String) (source : String) : Prop :=
  (Way.along (parts (localPath source))).ComesBack base

instance (base : List String) (source : String) : Decidable (ComesBack base source) :=
  inferInstanceAs (Decidable (Way.ComesBack _ _))

namespace Search

variable {template : Template}

/-- The copy of an image has its place below the output directory when its source leads back. -/
theorem prefix_locate_copyPath_iff
    (found : template.IsFound)
    (named : template.name ≠ "")
    (search : Search)
    (source : String)
    (disk : Disk) :
    disk.locate search.space.writer.root <+: disk.locate (search.copyPath template source) ↔
      ComesBack (disk.locate search.space.writer.root) source := by
  have isName := found.isName named
  have relative : isAbsolute template.name = false := by
    simpa [ofComponents] using @isAbsolute_ofComponents [template.name] (by simpa using isName)
  have place (base : List String) : (parts (template.imagePlace source)).foldl enter base =
      (Way.along (parts (localPath source))).goal (base ++ [template.name]) := by
    rw [Way.goal_along, Template.imagePlace, parts_join (Template.isAbsolute_localPath source),
      List.foldl_append, front_of_isName isName, List.foldl_cons, List.foldl_nil,
      enter_of_isName isName]
  rw [copyPath, Disk.locate_join, place, ← Disk.base_eq_locate, Way.prefix_goal_concat_iff,
    ComesBack]
  rw [Template.imagePlace, isAbsolute_join (Template.isAbsolute_localPath source), relative]

/-- A local image is copied, or nothing is done. -/
theorem copyLocal_cases (search : Search) (template : Template) (source : String) :
    search.copyLocal template source = search ∨
      (search.copyLocal template source).space = (search.space.copy (template.imagePath source)
          (template.imagePlace source)).2 ∧
        (search.copyLocal template source).sizer.cache = search.sizer.cache := by
  unfold copyLocal Template.imagePath Template.imagePlace
  dsimp only
  generalize search.space.copy _ _ = copied
  split
  · exact .inl rfl
  · exact .inr ⟨rfl, rfl⟩

/-- A search that follows another one: no more was written than the cache file and the copies of
some images. -/
structure Follows
    (first : Search)
    (template : Template)
    (sources : List String)
    (search : Search) :
    Prop where
  /-- Only these files were written. -/
  disk : first.space.disk.Evolves (first.written template sources) search.space.disk
  /-- The cache file is the same. -/
  path : search.sizer.cache.path = first.sizer.cache.path
  /-- The output directory is the same. -/
  root : search.space.writer.root = first.space.writer.root

/-- A search goes on to follow another one when it finds the size of an image, if the image is a
remote one or its copy may be written. -/
theorem Follows.after_find
    {first search : Search}
    {sources : List String}
    {source : String}
    (follows : first.Follows template sources search)
    (listed : address? source = none → source ∈ sources)
    (network : Network) :
    first.Follows template sources (search.find network template source).2 := by
  have cached (size : Size) := search.sizer.cache.writes_save search.space.disk source size
  have copied := search.space.writes_copy (template.imagePath source) (template.imagePlace source)
  rw [follows.path] at cached
  rw [follows.root] at copied
  suffices natural : first.Follows template sources
      (search.findNatural network template source).2 by
    unfold find
    generalize search.findNatural network template source = answer at natural
    obtain ⟨fault | size, after⟩ := answer
    · exact ⟨natural.disk, natural.path, natural.root⟩
    · exact ⟨natural.disk, natural.path, natural.root⟩
  unfold findNatural
  split
  · exact follows
  · split
    · unfold findRemote
      split
      · exact follows
      · dsimp only
        split
        · exact ⟨follows.disk, follows.path, follows.root⟩
        · exact ⟨follows.disk.write List.mem_cons_self (cached _), follows.path, follows.root⟩
    · next isLocal =>
        have member := List.mem_map_of_mem (f := first.copyPath template) (listed isLocal)
        unfold findLocal
        dsimp only
        split
        · exact follows
        · rcases search.copyLocal_cases template source with same | ⟨space, cache⟩
          · rw [same]
            exact follows
          · refine ⟨?_, ?_, ?_⟩
            · rw [space]
              exact follows.disk.write (List.mem_cons_of_mem _ member) copied
            · rw [cache, follows.path]
            · rw [space, Workspace.root_copy, follows.root]

theorem Follows.after_sizeAll
    {first search : Search}
    {sources left : List String}
    (follows : first.Follows template sources search)
    (listed : ∀ source ∈ left, address? source = none → source ∈ sources)
    (network : Network)
    (sizes : List (String × Size)) :
    first.Follows template sources (Session.sizeAll network template left (sizes, search)).2 := by
  induction left generalizing sizes search with
  | nil => exact follows
  | cons source left inductionHypothesis =>
      obtain ⟨here, rest⟩ := List.forall_mem_cons.mp listed
      exact inductionHypothesis (follows.after_find here network) rest _

end Search

/-- Finding the sizes of the images of a document writes the cache file and the copies of its
local images at most. -/
theorem evolves_resolve
    (network : Network)
    (sizer : Sizer)
    (space : Workspace)
    (document : Markup.Document)
    (template : Template) :
    space.disk.Evolves
      (Search.written ⟨sizer, space, []⟩ template
        ((unsizedSources document).filter fun source => (address? source).isNone))
      (resolve network sizer space document template).2.2.disk := by
  have start : Search.Follows ⟨sizer, space, []⟩ template
      ((unsizedSources document).filter fun source => (address? source).isNone)
      ⟨sizer, space, []⟩ :=
    ⟨.refl _ _, rfl, rfl⟩
  have follows := start.after_sizeAll (fun source member isLocal =>
    List.mem_filter.mpr ⟨member, by simp [isLocal]⟩) network []
  have found := Session.resolve_eq network sizer space document template
  dsimp only at found
  rw [found]
  exact follows.disk

/-- The copy of an image stays inside the output directory exactly if its source leads back. When
the sources of all local images of a document do, finding their sizes changes no file outside the
output directory but that of the cache. -/
theorem copies_stay_inside_iff
    {template : Template}
    (found : template.IsFound)
    (named : template.name ≠ "")
    (network : Network)
    (sizer : Sizer)
    (space : Workspace)
    (document : Markup.Document) :
    let output := space.disk.locate space.writer.root
    (∀ source, output <+: space.disk.locate (Path.join space.writer.root
        (template.imagePlace source)) ↔ ComesBack output source) ∧
      ((∀ source ∈ unsizedSources document, address? source = none → ComesBack output source) →
        ∀ location, ¬ output <+: location → location ≠ space.disk.locate sizer.cache.path →
          (resolve network sizer space document template).2.2.disk.content? location =
            space.disk.content? location) := by
  have inside := Search.prefix_locate_copyPath_iff found named ⟨sizer, space, []⟩
  refine ⟨fun source => inside source space.disk, fun back location outside uncached => ?_⟩
  refine (evolves_resolve network sizer space document template).content? fun path member => ?_
  rcases List.mem_cons.mp member with rfl | copy
  · exact Ne.symm uncached
  · obtain ⟨source, listed, rfl⟩ := List.mem_map.mp copy
    obtain ⟨listed, isLocal⟩ := List.mem_filter.mp listed
    rintro rfl
    exact outside ((inside source space.disk).mpr
      (back source listed (Option.isNone_iff_eq_none.mp isLocal)))

/-- The images of the gallery lie next to the template. -/
theorem copies_stay_inside_iff_gallery :
    galleryTemplate.IsFound ∧ galleryTemplate.name ≠ "" ∧
      ∀ location, ¬ ["out"] <+: location → location ≠ ["sizes.json"] →
        (resolve .silent gallerySearch.sizer gallery (twoImages "a.gif" "./b.gif?x")
          galleryTemplate).2.2.disk.content? location = gallery.disk.content? location := by
  have found : galleryTemplate.IsFound := by decide
  have named : galleryTemplate.name ≠ "" := by decide
  have sources : unsizedSources (twoImages "a.gif" "./b.gif?x") = ["./b.gif?x", "a.gif"] := by cbv
  have output : gallery.disk.locate gallery.writer.root = ["out"] := by decide +kernel
  have cache : gallery.disk.locate gallerySearch.sizer.cache.path = ["sizes.json"] := by
    decide +kernel
  have stay := (copies_stay_inside_iff found named .silent gallerySearch.sizer gallery
    (twoImages "a.gif" "./b.gif?x")).2
  rw [output, cache, sources] at stay
  exact ⟨found, named, stay (by decide)⟩

/-- An image two levels above its template is copied to a place next to the output directory. -/
theorem copy_outside :
    let disk := (Disk.empty.put "src/c.gif" smallImage).put "src/templates/welcome/html.tpl" .empty
    let search : Search := ⟨.start disk "sizes.json" true, ⟨disk, .new "build"⟩, []⟩
    let template : Template := ⟨"welcome", "src/templates/welcome"⟩
    ¬ disk.locate "build" <+: disk.locate (search.copyPath template "../../c.gif") ∧
      disk.hasFile ["c.gif"] = false ∧
        (search.findLocal template "../../c.gif").2.space.disk.hasFile ["c.gif"] = true := by
  decide +kernel

end Image
end MailPress
