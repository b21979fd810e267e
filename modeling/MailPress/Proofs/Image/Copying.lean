import Mathlib.Data.List.Nodup
import MailPress.Proofs.Image.Order
import MailPress.Proofs.Project.Places

/-!
# Which images are copied

Errands share the set of files that were copied. The first errand to name a file copies it, gives
a warning about its own source, and leaves nothing to do for the others.

An account of what has been done lists the sources whose images were copied. It is kept while
errands take turns, and when all of them have ended it tells the files and the warnings.
-/

namespace MailPress

open MailPress.Path

namespace Template

variable {template : Template} {source other : String}

theorem components_imagePath_eq_iff :
    components (template.imagePath source) = components (template.imagePath other) ↔
      components (Image.localPath source) = components (Image.localPath other) :=
  components_join_eq_iff (by rw [isAbsolute_localPath, isAbsolute_localPath]) _

/-- Two sources name the same file when they name the same place of a copy. -/
theorem components_copyPath_eq_iff (first : Image.Search) :
    components (first.copyPath template source) = components (first.copyPath template other) ↔
      components (template.imagePath source) = components (template.imagePath other) := by
  have absolute : isAbsolute (Image.localPath source) = isAbsolute (Image.localPath other) := by
    rw [isAbsolute_localPath, isAbsolute_localPath]
  rw [components_imagePath_eq_iff, Image.Search.copyPath, Image.Search.copyPath, imagePlace,
    imagePlace, components_join_eq_iff (isAbsolute_join_congr absolute _),
    components_join_eq_iff absolute]

/-- Sources that name the same file name copies at the same location. -/
theorem locate_copyPath_congr
    (first : Image.Search)
    (same : components (template.imagePath source) = components (template.imagePath other))
    (disk : Disk) :
    disk.locate (first.copyPath template source) = disk.locate (first.copyPath template other) := by
  have absolute : isAbsolute (Image.localPath source) = isAbsolute (Image.localPath other) := by
    rw [isAbsolute_localPath, isAbsolute_localPath]
  exact locate_congr (isAbsolute_join_congr (isAbsolute_join_congr absolute _) _)
    ((components_copyPath_eq_iff first).mpr same) disk

theorem locate_imagePath_congr
    (same : components (template.imagePath source) = components (template.imagePath other))
    (disk : Disk) :
    disk.locate (template.imagePath source) = disk.locate (template.imagePath other) :=
  locate_congr (isAbsolute_join_congr (by rw [isAbsolute_localPath, isAbsolute_localPath]) _) same
    disk

end Template

namespace Image

/-- What has been done about the images at some sources since a search began: the images at the
sources that are written were copied, each the first to name its file. -/
structure Accounted
    (network : Network)
    (first : Search)
    (template : Template)
    (sources written : List String)
    (affairs : Affairs) :
    Prop where
  /-- There is one errand for each source. -/
  images : affairs.errands.map Errand.image = sources.map fun source => (source, template)
  /-- The cache file is the same. -/
  path : affairs.search.sizer.cache.path = first.sizer.cache.path
  /-- The output directory is the same. -/
  root : affairs.search.space.writer.root = first.space.writer.root
  /-- Whether images are copied is the same. -/
  copyLocal : affairs.search.sizer.copyLocal = first.sizer.copyLocal
  /-- The errands are on their way. -/
  foresees : ∀ errand ∈ affairs.errands, errand.Foresees network first affairs.search
  /-- The files that are marked as copied are those that were copied or are about to be. -/
  marked : affairs.search.sizer.copied.Perm
    ((written ++ affairs.errands.filterMap Errand.copying?).map
        (fun source => components (template.imagePath source)) ++
      first.sizer.copied)
  /-- No file is copied twice. -/
  once : ((written ++ affairs.errands.filterMap Errand.copying?).map
    fun source => components (template.imagePath source)).Nodup
  /-- Only images that are to be copied are. -/
  wanted : ∀ source ∈ written ++ affairs.errands.filterMap Errand.copying?,
    first.Copies template source
  /-- An errand that has copied its image knows what there is to know. -/
  settled : ∀ source ∈ written,
    ∃ errand ∈ affairs.errands, errand.source = source ∧ errand.progress.isOver = true
  /-- An image that is to be copied is marked when its errand knows what there is to know. -/
  claimed : ∀ errand ∈ affairs.errands, errand.progress.isOver = true →
    first.Copies template errand.source →
      components (template.imagePath errand.source) ∈ affairs.search.sizer.copied
  /-- Nothing else was written. -/
  disk : first.space.disk.Evolves (first.written template written) affairs.search.space.disk
  /-- What is remembered of other paths is the same. -/
  memory : ∀ path, (∀ source ∈ written,
      components path ≠ components (first.copyPath template source)) →
    affairs.search.space.writer.remembered? path = first.space.writer.remembered? path
  /-- The copies hold what the images hold. -/
  files : ∀ source ∈ written,
    affairs.search.space.disk.content? (first.space.disk.locate (first.copyPath template source)) =
      first.space.disk.read? (template.imagePath source)
  /-- There is a warning about each image that was copied, and errands that have ended have given
  theirs. -/
  warnings : affairs.search.warnings.Perm
    (first.warnings ++
      (written.map Search.localWarning ++ affairs.errands.flatMap Errand.said))

namespace Affairs

variable {affairs : Affairs} {network : Network} {index : Nat} {errand : Errand}

/-- The errands around one that takes a step. -/
theorem exists_around
    (here : affairs.errands[index]? = some errand)
    (network : Network) :
    ∃ before after, affairs.errands = before ++ errand :: after ∧
      (affairs.turn network index errand).errands = before ++
        { errand with progress := (errand.advance network affairs.search).1 } :: after := by
  obtain ⟨inside, found⟩ := List.getElem?_eq_some_iff.mp here
  refine ⟨affairs.errands.take index, affairs.errands.drop (index + 1), ?_, ?_⟩
  · rw [← found, List.getElem_cons_drop, List.take_append_drop]
  · rw [turn, List.set_eq_take_append_cons_drop, if_pos inside]

end Affairs

namespace Accounted

variable {network : Network} {first : Search} {template : Template} {sources written : List String}
  {affairs : Affairs} {index : Nat} {errand : Errand}

theorem mem_sources
    (accounted : Accounted network first template sources written affairs)
    (member : errand ∈ affairs.errands) :
    errand.source ∈ sources ∧ errand.template = template := by
  have image := List.mem_map_of_mem (f := Errand.image) member
  rw [accounted.images] at image
  obtain ⟨source, listed, same⟩ := List.mem_map.mp image
  obtain ⟨rfl, rfl⟩ := Prod.mk.inj same
  exact ⟨listed, rfl⟩

theorem map_source (accounted : Accounted network first template sources written affairs) :
    affairs.errands.map (·.source) = sources := by
  have images := congrArg (List.map Prod.fst) accounted.images
  simpa [Function.comp_def, Errand.image] using images

/-- The errands around another one are about other sources. -/
theorem ne_source
    (accounted : Accounted network first template sources written affairs)
    (distinct : sources.Nodup)
    {before after : List Errand}
    (around : affairs.errands = before ++ errand :: after)
    {other : Errand}
    (member : other ∈ before ++ after) :
    other.source ≠ errand.source := by
  rw [← accounted.map_source, around, List.map_append, List.map_cons,
    List.nodup_middle, ← List.map_append, List.nodup_cons] at distinct
  exact fun same => distinct.1 (same ▸ List.mem_map_of_mem member)

/-- A source that is written or about to be belongs to an errand. -/
theorem mem_of_wanted
    (accounted : Accounted network first template sources written affairs)
    {source : String}
    (member : source ∈ written ++ affairs.errands.filterMap Errand.copying?) :
    source ∈ sources := by
  rcases List.mem_append.mp member with done | begun
  · obtain ⟨errand, listed, rfl, _⟩ := accounted.settled source done
    exact (accounted.mem_sources listed).1
  · obtain ⟨errand, listed, copies⟩ := List.mem_filterMap.mp begun
    unfold Errand.copying? at copies
    split at copies
    · obtain rfl := Option.some.inj copies
      exact (accounted.mem_sources listed).1
    · cases copies

theorem written_subset (accounted : Accounted network first template sources written affairs) :
    first.written template written ⊆
      first.written template (sources.filter (first.Copies template)) := by
  refine List.cons_subset_cons _ (List.map_subset _ fun source member => ?_)
  have member := List.mem_append_left (affairs.errands.filterMap Errand.copying?) member
  exact List.mem_filter.mpr
    ⟨accounted.mem_of_wanted member, decide_eq_true (accounted.wanted source member)⟩

/-- An image is measured as it was at the beginning. -/
theorem measure_eq
    (accounted : Accounted network first template sources written affairs)
    (placed : first.IsPlaced template sources)
    (member : errand ∈ affairs.errands)
    (isLocal : address? errand.source = none) :
    measure affairs.search.space.disk errand.source (errand.template.imagePath errand.source) =
      measure first.space.disk errand.source (errand.template.imagePath errand.source) := by
  obtain ⟨listed, rfl⟩ := accounted.mem_sources member
  exact measure_congr (accounted.disk.mono accounted.written_subset)
    (placed.reads _ listed isLocal) _

/-- The errands go on being on their way. -/
theorem foresees_turn
    (accounted : Accounted network first template sources written affairs)
    (distinct : sources.Nodup)
    (placed : first.IsPlaced template sources)
    (here : affairs.errands[index]? = some errand) :
    ∀ other ∈ (affairs.turn network index errand).errands,
      other.Foresees network first (affairs.turn network index errand).search := by
  obtain ⟨before, after, around, turned⟩ := Affairs.exists_around here network
  have member := List.mem_of_getElem? here
  intro other listed
  rw [turned] at listed
  rcases List.mem_append.mp listed with front | rest
  · exact Errand.foresees_advance_of_ne
      (accounted.foresees other (around ▸ List.mem_append_left _ front))
      (accounted.ne_source distinct around (List.mem_append_left _ front))
  · rcases List.mem_cons.mp rest with rfl | back
    · exact Errand.foresees_advance (accounted.foresees errand member)
        (accounted.measure_eq placed member)
    · exact Errand.foresees_advance_of_ne
        (accounted.foresees other
          (around ▸ List.mem_append_right _ (List.mem_cons_of_mem _ back)))
        (accounted.ne_source distinct around (List.mem_append_right _ back))

/-- An errand that has copied its image goes on knowing what there is to know. -/
theorem settled_turn
    (accounted : Accounted network first template sources written affairs)
    (here : affairs.errands[index]? = some errand)
    (network : Network) :
    ∀ source ∈ written, ∃ other ∈ (affairs.turn network index errand).errands,
      other.source = source ∧ other.progress.isOver = true := by
  obtain ⟨before, after, around, turned⟩ := Affairs.exists_around here network
  intro source member
  obtain ⟨other, listed, mine, settled⟩ := accounted.settled source member
  rw [turned]
  rw [around] at listed
  rcases List.mem_append.mp listed with front | rest
  · exact ⟨other, List.mem_append_left _ front, mine, settled⟩
  · rcases List.mem_cons.mp rest with rfl | back
    · refine ⟨_, List.mem_append_right _ List.mem_cons_self, mine, ?_⟩
      obtain ⟨source, template, progress⟩ := other
      cases progress with
      | found answer => rfl
      | done answer => rfl
      | _ => cases settled
    · exact ⟨other, List.mem_append_right _ (List.mem_cons_of_mem _ back), mine, settled⟩

/-- Images of errands that know what there is to know go on being marked. -/
theorem claimed_turn
    (accounted : Accounted network first template sources written affairs)
    (here : affairs.errands[index]? = some errand)
    (kept : affairs.search.sizer.copied ⊆
      (affairs.turn network index errand).search.sizer.copied)
    (own : (errand.advance network affairs.search).1.isOver = true →
      first.Copies errand.template errand.source →
        components (template.imagePath errand.source) ∈
          (affairs.turn network index errand).search.sizer.copied) :
    ∀ other ∈ (affairs.turn network index errand).errands, other.progress.isOver = true →
      first.Copies template other.source →
        components (template.imagePath other.source) ∈
          (affairs.turn network index errand).search.sizer.copied := by
  obtain ⟨before, after, around, turned⟩ := Affairs.exists_around here network
  obtain ⟨_, same⟩ := accounted.mem_sources (List.mem_of_getElem? here)
  intro other listed settled copies
  have old (member : other ∈ affairs.errands) :
      components (template.imagePath other.source) ∈
        (affairs.turn network index errand).search.sizer.copied :=
    kept (accounted.claimed other member settled copies)
  rw [turned] at listed
  rcases List.mem_append.mp listed with front | rest
  · exact old (around ▸ List.mem_append_left _ front)
  · rcases List.mem_cons.mp rest with rfl | back
    · exact own settled (same ▸ copies)
    · exact old (around ▸ List.mem_append_right _ (List.mem_cons_of_mem _ back))

/-- An errand takes a step before it sees whether its image is to be copied. -/
theorem turn_of_quiet
    (accounted : Accounted network first template sources written affairs)
    (distinct : sources.Nodup)
    (placed : first.IsPlaced template sources)
    (here : affairs.errands[index]? = some errand)
    (quiet : errand.progress.isQuiet = true) :
    Accounted network first template sources written (affairs.turn network index errand) := by
  obtain ⟨before, after, around, turned⟩ := Affairs.exists_around here network
  have member := List.mem_of_getElem? here
  obtain ⟨copied, copyLocal, path, writer, warnings, disk⟩ :=
    errand.quiet_advance quiet network affairs.search
  have idle : (affairs.turn network index errand).errands.filterMap Errand.copying? =
      affairs.errands.filterMap Errand.copying? := by
    rw [turned, around, List.filterMap_append, List.filterMap_append,
      List.filterMap_cons_none (Errand.idle_advance_of_quiet quiet network _).1,
      List.filterMap_cons_none (Errand.idle_of_quiet quiet).1]
  have silent : (affairs.turn network index errand).errands.flatMap Errand.said =
      affairs.errands.flatMap Errand.said := by
    rw [turned, around, List.flatMap_append, List.flatMap_append, List.flatMap_cons,
      List.flatMap_cons, (Errand.idle_advance_of_quiet quiet network _).2,
      (Errand.idle_of_quiet quiet).2]
  exact
    { images := (Affairs.map_image_turn here).trans accounted.images
      path := path.trans accounted.path
      root := (congrArg Writer.root writer).trans accounted.root
      copyLocal := copyLocal.trans accounted.copyLocal
      foresees := accounted.foresees_turn distinct placed here
      marked := by
        rw [idle]
        exact (List.Perm.of_eq copied).trans accounted.marked
      once := by rw [idle]; exact accounted.once
      wanted := by rw [idle]; exact accounted.wanted
      settled := accounted.settled_turn here network
      claimed := accounted.claimed_turn here (fun _ => copied ▸ id) fun settled copies =>
        absurd copies (Errand.not_copies_of_quiet quiet (accounted.foresees errand member)
          (accounted.measure_eq placed member) settled)
      disk := by
        rcases disk with same | writes
        · exact same ▸ accounted.disk
        · rw [accounted.path] at writes
          exact accounted.disk.write List.mem_cons_self writes
      memory := fun path apart => (congrArg (·.remembered? path) writer).trans
        (accounted.memory path apart)
      files := fun source member => by
        refine .trans ?_ (accounted.files source member)
        rcases disk with same | writes
        · exact congrArg (fun disk : Disk =>
            disk.content? (first.space.disk.locate (first.copyPath template source))) same
        · refine writes.content? fun there => ?_
          rw [accounted.path, accounted.disk.locate] at there
          have listed := List.mem_append_left (affairs.errands.filterMap Errand.copying?) member
          exact (placed.cache source (accounted.mem_of_wanted listed)
            (accounted.wanted source listed)).2 there
      warnings := by
        rw [silent]
        exact (List.Perm.of_eq warnings).trans accounted.warnings }

/-- An errand sees that its image is not to be copied. -/
theorem turn_of_marked
    {source : String}
    {size : Size}
    (accounted : Accounted network first template sources written affairs)
    (distinct : sources.Nodup)
    (placed : first.IsPlaced template sources)
    (here : affairs.errands[index]? = some ⟨source, template, .claiming size⟩)
    (left : (!affairs.search.sizer.copyLocal || affairs.search.sizer.copied.contains
      (components (template.imagePath source))) = true) :
    Accounted network first template sources written
      (affairs.turn network index ⟨source, template, .claiming size⟩) := by
  obtain ⟨before, after, around, turned⟩ := Affairs.exists_around here network
  have step : Errand.advance network ⟨source, template, .claiming size⟩ affairs.search =
      (.found (.ok size), affairs.search) := by
    simp only [Errand.advance, left, if_true]
  have search : (affairs.turn network index ⟨source, template, .claiming size⟩).search =
      affairs.search := by rw [Affairs.turn, step]
  rw [step] at turned
  have idle : (affairs.turn network index ⟨source, template, .claiming size⟩).errands.filterMap
      Errand.copying? = affairs.errands.filterMap Errand.copying? := by
    rw [turned, around]
    simp only [List.filterMap_append, List.filterMap_cons, Errand.copying?]
  have silent : (affairs.turn network index ⟨source, template, .claiming size⟩).errands.flatMap
      Errand.said = affairs.errands.flatMap Errand.said := by
    rw [turned, around]
    simp only [List.flatMap_append, List.flatMap_cons, Errand.said]
  exact
    { images := (Affairs.map_image_turn here).trans accounted.images
      path := search ▸ accounted.path
      root := search ▸ accounted.root
      copyLocal := search ▸ accounted.copyLocal
      foresees := accounted.foresees_turn distinct placed here
      marked := by rw [idle, search]; exact accounted.marked
      once := idle ▸ accounted.once
      wanted := idle ▸ accounted.wanted
      settled := accounted.settled_turn here network
      claimed := accounted.claimed_turn here (search ▸ List.Subset.refl _) fun _ copies => by
        rw [accounted.copyLocal, copies.2.2.2.1] at left
        rw [search]
        simpa using left
      disk := search ▸ accounted.disk
      memory := search ▸ accounted.memory
      files := search ▸ accounted.files
      warnings := by rw [silent, search]; exact accounted.warnings }

/-- An errand marks the file of its image, which is to be copied. -/
theorem turn_of_unmarked
    {source : String}
    {size : Size}
    (accounted : Accounted network first template sources written affairs)
    (distinct : sources.Nodup)
    (placed : first.IsPlaced template sources)
    (here : affairs.errands[index]? = some ⟨source, template, .claiming size⟩)
    (copyLocal : affairs.search.sizer.copyLocal = true)
    (unmarked : components (template.imagePath source) ∉ affairs.search.sizer.copied) :
    Accounted network first template sources written
      (affairs.turn network index ⟨source, template, .claiming size⟩) := by
  obtain ⟨before, after, around, turned⟩ := Affairs.exists_around here network
  obtain ⟨unkept, isLocal, answer⟩ := accounted.foresees _ (List.mem_of_getElem? here)
  dsimp only at unkept isLocal answer
  have left : (!affairs.search.sizer.copyLocal || affairs.search.sizer.copied.contains
      (components (template.imagePath source))) = false := by
    simpa [copyLocal] using unmarked
  have step : Errand.advance network ⟨source, template, .claiming size⟩ affairs.search =
      (.copying size, { affairs.search with sizer := { affairs.search.sizer with
        copied := components (template.imagePath source) :: affairs.search.sizer.copied } }) := by
    simp only [Errand.advance, left, Bool.false_eq_true, if_false]
  have search : (affairs.turn network index ⟨source, template, .claiming size⟩).search =
      { affairs.search with sizer := { affairs.search.sizer with
        copied := components (template.imagePath source) :: affairs.search.sizer.copied } } := by
    rw [Affairs.turn, step]
  rw [step] at turned
  have begun : (written ++ (affairs.turn network index
      ⟨source, template, .claiming size⟩).errands.filterMap Errand.copying?).Perm
        (source :: (written ++ affairs.errands.filterMap Errand.copying?)) := by
    rw [turned, around]
    simp only [List.filterMap_append, List.filterMap_cons, Errand.copying?, ← List.append_assoc]
    exact List.perm_middle
  have silent : (affairs.turn network index ⟨source, template, .claiming size⟩).errands.flatMap
      Errand.said = affairs.errands.flatMap Errand.said := by
    rw [turned, around]
    simp only [List.flatMap_append, List.flatMap_cons, Errand.said]
  have unwritten : components (template.imagePath source) ∉
      (written ++ affairs.errands.filterMap Errand.copying?).map
          (fun source => components (template.imagePath source)) ++ first.sizer.copied :=
    fun member => unmarked (accounted.marked.mem_iff.mpr member)
  have copies : first.Copies template source := by
    have natural : first.natural network template source =
        measure first.space.disk source (template.imagePath source) :=
      Search.natural_of_isLocal unkept isLocal
    refine ⟨unkept, isLocal, ?_, accounted.copyLocal ▸ copyLocal,
      fun member => unwritten (List.mem_append_right _ member)⟩
    rw [← natural, answer]
    rfl
  have marks : (components (template.imagePath source) :: affairs.search.sizer.copied).Perm
      ((written ++ (affairs.turn network index
        ⟨source, template, .claiming size⟩).errands.filterMap Errand.copying?).map
          (fun source => components (template.imagePath source)) ++ first.sizer.copied) := by
    have lists := (begun.map fun source => components (template.imagePath source)).append_right
      first.sizer.copied
    rw [List.map_cons, List.cons_append] at lists
    exact (accounted.marked.cons (components (template.imagePath source))).trans lists.symm
  exact
    { images := (Affairs.map_image_turn here).trans accounted.images
      path := search ▸ accounted.path
      root := search ▸ accounted.root
      copyLocal := search ▸ accounted.copyLocal
      foresees := accounted.foresees_turn distinct placed here
      marked := by rw [search]; exact marks
      once := by
        rw [(begun.map _).nodup_iff, List.map_cons, List.nodup_cons]
        exact ⟨fun member => unwritten (List.mem_append_left _ member), accounted.once⟩
      wanted := fun other member => by
        rcases List.mem_cons.mp (begun.mem_iff.mp member) with rfl | old
        · exact copies
        · exact accounted.wanted other old
      settled := accounted.settled_turn here network
      claimed := accounted.claimed_turn here (search ▸ List.subset_cons_self _ _) fun settled => by
        rw [step] at settled
        cases settled
      disk := search ▸ accounted.disk
      memory := search ▸ accounted.memory
      files := search ▸ accounted.files
      warnings := by rw [silent, search]; exact accounted.warnings }

/-! ### Copying -/

/-- The image that an errand is about to copy is one that is to be copied, and its file was not
copied yet. -/
theorem of_copying
    {source : String}
    {size : Size}
    (accounted : Accounted network first template sources written affairs)
    (member : ⟨source, template, .copying size⟩ ∈ affairs.errands) :
    first.Copies template source ∧ source ∈ sources ∧
      ∀ other ∈ written,
        components (template.imagePath source) ≠ components (template.imagePath other) := by
  have listed : source ∈ affairs.errands.filterMap Errand.copying? :=
    List.mem_filterMap.mpr ⟨_, member, rfl⟩
  have wanted := accounted.wanted source (List.mem_append_right _ listed)
  refine ⟨wanted, (accounted.mem_sources member).1, fun other done same => ?_⟩
  have once := accounted.once
  rw [List.map_append, List.nodup_append] at once
  exact once.2.2 _ (List.mem_map_of_mem done) _ (List.mem_map_of_mem listed) same.symm

/-- Nothing that was written is in the way of another copy. -/
theorem isClear
    {source : String}
    (accounted : Accounted network first template sources written affairs)
    (placed : first.IsPlaced template sources)
    (listed : source ∈ sources)
    (copies : first.Copies template source)
    (fresh : ∀ other ∈ written,
      components (template.imagePath source) ≠ components (template.imagePath other)) :
    first.space.disk.IsClear (first.written template written) (first.copyPath template source) ∧
      ∀ path ∈ first.written template written,
        first.space.disk.locate path ≠
          first.space.disk.locate (first.copyPath template source) := by
  obtain ⟨cache, away⟩ := placed.cache source listed copies
  have aside (other : String) (member : other ∈ written) :=
    have wanted := List.mem_append_left (affairs.errands.filterMap Errand.copying?) member
    placed.aside source listed copies other (accounted.mem_of_wanted wanted)
      (accounted.wanted other wanted) (fresh other member)
  have every {motive : String → Prop} (saved : motive first.sizer.cache.path)
      (copied : ∀ other ∈ written, motive (first.copyPath template other)) :
      ∀ path ∈ first.written template written, motive path := by
    intro path member
    rcases List.mem_cons.mp member with rfl | copy
    · exact saved
    · obtain ⟨other, done, rfl⟩ := List.mem_map.mp copy
      exact copied other done
  exact
    ⟨{ leads := cache.leads
       below := cache.below
       files := every (cache.files _ List.mem_cons_self) fun other done =>
         (aside other done).1.files _ List.mem_cons_self
       free := every (cache.free _ List.mem_cons_self) fun other done =>
         (aside other done).1.free _ List.mem_cons_self },
      every away fun other done => (aside other done).2⟩

/-- What becomes of the files and of the memory when an image is copied. -/
theorem copy_spec
    {source : String}
    {size : Size}
    (accounted : Accounted network first template sources written affairs)
    (placed : first.IsPlaced template sources)
    (member : ⟨source, template, .copying size⟩ ∈ affairs.errands) :
    let copied := affairs.search.space.copy (template.imagePath source)
      (template.imagePlace source)
    (∃ outcome, copied.1 = .ok outcome) ∧
      copied.2.writer.root = first.space.writer.root ∧
        first.space.disk.Evolves (first.written template (written ++ [source])) copied.2.disk ∧
          (∀ path, components path ≠ components (first.copyPath template source) →
            copied.2.writer.remembered? path = affairs.search.space.writer.remembered? path) ∧
            copied.2.disk.content? (first.space.disk.locate (first.copyPath template source)) =
                first.space.disk.read? (template.imagePath source) ∧
              ∀ location, first.space.disk.locate (first.copyPath template source) ≠ location →
                copied.2.disk.content? location =
                  affairs.search.space.disk.content? location := by
  obtain ⟨copies, listed, fresh⟩ := accounted.of_copying member
  obtain ⟨clear, away⟩ := accounted.isClear placed listed copies fresh
  have evolves := accounted.disk
  have root := accounted.root
  have path : join affairs.search.space.writer.root (template.imagePlace source) =
      first.copyPath template source := by rw [root]; rfl
  have image : affairs.search.space.disk.read? (template.imagePath source) =
      first.space.disk.read? (template.imagePath source) :=
    (evolves.mono accounted.written_subset).read? (placed.reads source listed copies.2.1)
  have memory : affairs.search.space.writer.remembered? (first.copyPath template source) =
      first.space.writer.remembered? (first.copyPath template source) :=
    accounted.memory _ fun other done same =>
      fresh other done ((Template.components_copyPath_eq_iff first).mp same)
  obtain ⟨outcome, succeeds⟩ := placed.copied source listed copies
  obtain ⟨content, held, success⟩ : ∃ content,
      first.space.disk.read? (template.imagePath source) = some content ∧
        (first.space.write (template.imagePlace source) content).1 = .ok outcome := by
    unfold Workspace.copy at succeeds
    split at succeeds
    · cases succeeds
    · next content held => exact ⟨content, held, succeeds⟩
  have copied : affairs.search.space.copy (template.imagePath source)
      (template.imagePlace source) =
        affairs.search.space.write (template.imagePlace source) content := by
    rw [Workspace.copy, image, held]
  obtain ⟨done, holds⟩ := Workspace.write_of_isClear evolves root memory clear away
    (placed.honest source listed copies) success
  have writes := affairs.search.space.writes_write (template.imagePlace source) content
  rw [path] at writes
  have written := List.mem_map_of_mem (f := first.copyPath template)
    (List.mem_append_right written (List.mem_singleton_self source))
  rw [copied]
  refine ⟨⟨outcome, done⟩, (Workspace.root_write ..).trans root, ?_, ?_, holds.trans held.symm, ?_⟩
  · exact (evolves.mono (List.cons_subset_cons _ (List.map_subset _
      (List.subset_append_left _ [source])))).write (List.mem_cons_of_mem _ written) writes
  · intro other different
    refine Workspace.remembered?_write_of_ne ?_
    rw [path]
    exact different
  · intro location different
    refine writes.content? ?_
    rw [evolves.locate]
    exact different

/-- An errand copies its image and gives a warning about it. -/
theorem turn_of_copying
    {source : String}
    {size : Size}
    (accounted : Accounted network first template sources written affairs)
    (distinct : sources.Nodup)
    (placed : first.IsPlaced template sources)
    (here : affairs.errands[index]? = some ⟨source, template, .copying size⟩) :
    Accounted network first template sources (written ++ [source])
      (affairs.turn network index ⟨source, template, .copying size⟩) := by
  have member := List.mem_of_getElem? here
  obtain ⟨before, after, around, turned⟩ := Affairs.exists_around here network
  obtain ⟨copies, listed, fresh⟩ := accounted.of_copying member
  obtain ⟨⟨outcome, success⟩, root, disk, memory, file, files⟩ := accounted.copy_spec placed member
  have step : Errand.advance network ⟨source, template, .copying size⟩ affairs.search =
      (.found (.ok size),
        { affairs.search with
          space := (affairs.search.space.copy (template.imagePath source)
            (template.imagePlace source)).2
          warnings := affairs.search.warnings ++ [Search.localWarning source] }) := by
    simp only [Errand.advance, success, copyWarning]
  have foresees := accounted.foresees_turn distinct placed here
  have settled := accounted.settled_turn here network
  have claimed := accounted.claimed_turn here
  have images : (affairs.turn network index ⟨source, template, .copying size⟩).errands.map
      Errand.image = _ := (Affairs.map_image_turn here).trans accounted.images
  rw [Affairs.turn] at turned foresees settled claimed images ⊢
  rw [step] at turned foresees settled claimed images ⊢
  dsimp only at turned foresees settled claimed images ⊢
  generalize affairs.search.space.copy (template.imagePath source) (template.imagePlace source) =
    copied at *
  have ends : (written ++ [source] ++ (affairs.errands.set index
      ⟨source, template, .found (.ok size)⟩).filterMap Errand.copying?).Perm
        (written ++ affairs.errands.filterMap Errand.copying?) := by
    rw [turned, around]
    simp only [List.filterMap_append, List.filterMap_cons, Errand.copying?, List.append_assoc,
      List.singleton_append]
    exact List.perm_middle.symm.append_left written
  have silent : (affairs.errands.set index ⟨source, template, .found (.ok size)⟩).flatMap
      Errand.said = affairs.errands.flatMap Errand.said := by
    rw [turned, around]
    simp only [List.flatMap_append, List.flatMap_cons, Errand.said]
  have marks : components (template.imagePath source) ∈ affairs.search.sizer.copied :=
    accounted.marked.mem_iff.mpr (List.mem_append_left _ (List.mem_map_of_mem
      (List.mem_append_right _ (List.mem_filterMap.mpr ⟨_, member, rfl⟩))))
  exact
    { images := images
      path := accounted.path
      root := root
      copyLocal := accounted.copyLocal
      foresees := foresees
      marked := accounted.marked.trans ((ends.map _).append_right _).symm
      once := ((ends.map _).nodup_iff).mpr accounted.once
      wanted := fun other named => accounted.wanted other (ends.mem_iff.mp named)
      settled := fun other named => by
        rcases List.mem_append.mp named with old | new
        · exact settled other old
        · obtain rfl := List.mem_singleton.mp new
          refine ⟨⟨other, template, .found (.ok size)⟩, ?_, rfl, rfl⟩
          rw [turned]
          exact List.mem_append_right _ List.mem_cons_self
      claimed := claimed (List.Subset.refl _) fun _ _ => marks
      disk := disk
      memory := fun path apart => (memory path (apart source (by simp))).trans
        (accounted.memory path fun other named => apart other (List.mem_append_left _ named))
      files := fun other named => by
        rcases List.mem_append.mp named with old | new
        · have clear := (accounted.isClear placed listed copies fresh).2 _
            (List.mem_cons_of_mem _ (List.mem_map_of_mem old))
          exact (files _ (Ne.symm clear)).trans (accounted.files other old)
        · obtain rfl := List.mem_singleton.mp new
          exact file
      warnings := by
        have before := accounted.warnings.append_right [Search.localWarning source]
        rw [List.append_assoc, List.append_assoc] at before
        rw [silent, List.map_append, List.append_assoc, List.map_singleton]
        exact before.trans ((List.perm_append_comm.append_left _).append_left _) }

/-- An errand gives the warnings about what it has found out. -/
theorem turn_of_found
    {source : String}
    {answer : Except Fault Size}
    (accounted : Accounted network first template sources written affairs)
    (distinct : sources.Nodup)
    (placed : first.IsPlaced template sources)
    (here : affairs.errands[index]? = some ⟨source, template, .found answer⟩) :
    Accounted network first template sources written
      (affairs.turn network index ⟨source, template, .found answer⟩) := by
  obtain ⟨before, after, around, turned⟩ := Affairs.exists_around here network
  have member := List.mem_of_getElem? here
  have idle : (affairs.turn network index ⟨source, template, .found answer⟩).errands.filterMap
      Errand.copying? = affairs.errands.filterMap Errand.copying? := by
    rw [turned, around]
    simp only [List.filterMap_append, List.filterMap_cons, Errand.copying?, Errand.advance]
  have said : ((affairs.turn network index ⟨source, template, .found answer⟩).errands.flatMap
      Errand.said).Perm (affairs.errands.flatMap Errand.said ++ warningsAbout source answer) := by
    rw [turned, around]
    simp only [List.flatMap_append, List.flatMap_cons, Errand.said, Errand.advance,
      List.nil_append, List.append_assoc]
    exact List.perm_append_comm.append_left _
  exact
    { images := (Affairs.map_image_turn here).trans accounted.images
      path := accounted.path
      root := accounted.root
      copyLocal := accounted.copyLocal
      foresees := accounted.foresees_turn distinct placed here
      marked := by rw [idle]; exact accounted.marked
      once := by rw [idle]; exact accounted.once
      wanted := by rw [idle]; exact accounted.wanted
      settled := accounted.settled_turn here network
      claimed := accounted.claimed_turn here (List.Subset.refl _) fun _ =>
        accounted.claimed _ member rfl
      disk := accounted.disk
      memory := accounted.memory
      files := accounted.files
      warnings := by
        have all := accounted.warnings.append_right (warningsAbout source answer)
        rw [List.append_assoc, List.append_assoc] at all
        exact all.trans ((said.symm.append_left _).append_left _) }

/-- Every step keeps the account. -/
theorem turn
    {limit : Nat}
    (accounted : Accounted network first template sources written affairs)
    (distinct : sources.Nodup)
    (placed : first.IsPlaced template sources)
    (here : affairs.errands[index]? = some errand)
    (ready : errand.IsReady limit affairs.search affairs.errands) :
    ∃ more, Accounted network first template sources (written ++ more)
      (affairs.turn network index errand) := by
  have same := (accounted.mem_sources (List.mem_of_getElem? here)).2
  obtain ⟨source, mine, progress⟩ := errand
  obtain rfl : mine = template := same
  have still (kept : Accounted network first mine sources written
      (affairs.turn network index ⟨source, mine, progress⟩)) :
      ∃ more, Accounted network first mine sources (written ++ more)
        (affairs.turn network index ⟨source, mine, progress⟩) :=
    ⟨[], (List.append_nil written).symm ▸ kept⟩
  cases progress with
  | claiming size =>
      cases left : !affairs.search.sizer.copyLocal || affairs.search.sizer.copied.contains
          (components (mine.imagePath source)) with
      | true => exact still (accounted.turn_of_marked distinct placed here left)
      | false =>
          have unmarked : affairs.search.sizer.copyLocal = true ∧
              components (mine.imagePath source) ∉ affairs.search.sizer.copied := by
            simpa using left
          exact still (accounted.turn_of_unmarked distinct placed here unmarked.1 unmarked.2)
  | copying size => exact ⟨[source], accounted.turn_of_copying distinct placed here⟩
  | found answer => exact still (accounted.turn_of_found distinct placed here)
  | done answer => exact ready.elim
  | _ => exact still (accounted.turn_of_quiet distinct placed here rfl)

/-- The account is kept while errands take turns. -/
theorem turns
    {limit : Nat}
    {later : Affairs}
    (accounted : Accounted network first template sources written affairs)
    (distinct : sources.Nodup)
    (placed : first.IsPlaced template sources)
    (turns : Affairs.Turns limit network affairs later) :
    ∃ more, Accounted network first template sources (written ++ more) later := by
  induction turns with
  | refl => exact ⟨[], by rw [List.append_nil]; exact accounted⟩
  | tail _ next inductionHypothesis =>
      obtain ⟨more, before⟩ := inductionHypothesis
      obtain ⟨index, errand, here, ready, rfl⟩ := next
      obtain ⟨further, after⟩ := before.turn distinct placed here ready
      exact ⟨more ++ further, List.append_assoc written more further ▸ after⟩

/-- When nothing has been done, nothing is written. -/
theorem start (first : Search) (network : Network) (template : Template) (sources : List String) :
    Accounted network first template sources []
      ⟨[], first, sources.map fun source => ⟨source, template, .queued⟩⟩ := by
  have idle : (sources.map fun source => (⟨source, template, .queued⟩ : Errand)).filterMap
      Errand.copying? = [] := by
    rw [List.filterMap_map]
    exact List.filterMap_eq_nil_iff.mpr fun _ _ => rfl
  have silent : (sources.map fun source => (⟨source, template, .queued⟩ : Errand)).flatMap
      Errand.said = [] := by
    rw [List.flatMap_map]
    exact List.flatMap_eq_nil_iff.mpr fun _ _ => rfl
  exact
    { images := by rw [List.map_map]; rfl
      path := rfl
      root := rfl
      copyLocal := rfl
      foresees := by
        intro errand member
        obtain ⟨source, _, rfl⟩ := List.mem_map.mp member
        exact ⟨rfl, rfl⟩
      marked := by rw [idle]; exact .refl _
      once := by rw [idle]; exact .nil
      wanted := by rw [idle]; intro source member; cases member
      settled := by intro source member; cases member
      claimed := by
        intro errand member settled
        obtain ⟨source, _, rfl⟩ := List.mem_map.mp member
        cases settled
      disk := .refl _ _
      memory := fun _ _ => rfl
      files := by intro source member; cases member
      warnings := by rw [silent]; simp }

end Accounted
end Image
end MailPress
