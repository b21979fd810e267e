import Mathlib
import MailPress.Proofs.Image.Copying
import MailPress.Proofs.Project.Stage

/-!
# Any order of errands

The sizes of the images of a document are found by errands that take turns in any order. Searching
for one image after the other is one such order.

Whatever the order is, the same sizes are found, and the same files are copied with the same
content. The warnings are the same in every order just when no two sources name one file that is
copied. When two do, the one that comes first is the one that is warned about.
-/

namespace MailPress

open MailPress.Path

namespace Image

/-! ## One errand after the other -/

theorem pairwise_insertSource
    {sources : List String}
    (sorted : sources.Pairwise (· < ·))
    (source : String) :
    (insertSource source sources).Pairwise (· < ·) := by
  have subset (sources : List String) : insertSource source sources ⊆ source :: sources := by
    induction sources with
    | nil => exact List.Subset.refl _
    | cons other others inductionHypothesis =>
        unfold insertSource
        split
        · exact List.Subset.refl _
        · split
          · exact List.subset_cons_self _ _
          · intro name member
            rcases List.mem_cons.mp member with rfl | rest
            · simp
            · have := inductionHypothesis rest
              simp only [List.mem_cons] at this ⊢
              tauto
  induction sorted with
  | nil => exact List.pairwise_singleton _ _
  | @cons other others before sorted inductionHypothesis =>
      unfold insertSource
      split
      · next less =>
          refine .cons (fun name member => ?_) (.cons before sorted)
          rcases List.mem_cons.mp member with rfl | rest
          · exact less
          · exact less.trans (before name rest)
      · split
        · exact .cons before sorted
        · next notLess different =>
            refine .cons (fun name member => ?_) inductionHypothesis
            rcases List.mem_cons.mp (subset others member) with rfl | rest
            · exact lt_of_le_of_ne (not_lt.mp notLess) (Ne.symm different)
            · exact before name rest

/-- No source is listed twice. -/
theorem nodup_unsizedSources (document : Markup.Document) : (unsizedSources document).Nodup := by
  have sorted : ∀ (images : List (Nat × String)) (sources : List String),
      sources.Pairwise (· < ·) →
        (images.foldl (fun sources image => insertSource image.2 sources) sources).Pairwise
          (· < ·) := by
    intro images
    induction images with
    | nil => exact fun _ sorted => sorted
    | cons image images inductionHypothesis =>
        exact fun sources sorted =>
          inductionHypothesis _ (pairwise_insertSource sorted image.2)
  exact (sorted _ [] .nil).imp fun less => less.ne

/-- An errand can take its next step when no other one is under way. -/
theorem Errand.isReady_of_idle
    {before after : List Errand}
    {errand : Errand}
    (idle : ∀ other ∈ before ++ after, other.progress.isActive = false)
    (left : errand.progress.isDone = false)
    {limit : Nat}
    (positive : 0 < limit)
    (search : Search) :
    errand.IsReady limit search (before ++ errand :: after) := by
  have others : ∀ other ∈ before ++ errand :: after,
      other = errand ∨ other.progress.isActive = false := by
    intro other member
    rcases List.mem_append.mp member with front | rest
    · exact .inr (idle other (List.mem_append_left _ front))
    · rcases List.mem_cons.mp rest with rfl | back
      · exact .inl rfl
      · exact .inr (idle other (List.mem_append_right _ back))
  unfold IsReady
  split
  · next queued =>
      rw [List.countP_eq_zero.mpr]
      · exact positive
      · intro other member
        rcases others other member with rfl | still
        · simp [queued, Progress.isActive]
        · simp [still]
  · next waits =>
      intro _ other member _
      rcases others other member with rfl | still
      · simp [waits, Progress.isAsking]
      · cases progress : other.progress <;>
          simp [progress, Progress.isActive, Progress.isAsking] at still ⊢
  · next settled => simp [settled, Progress.isDone] at left
  · trivial

/-- The size that an errand has found, as it is shown. -/
def Errand.size? (errand : Errand) : Option (String × Size) :=
  match errand.progress with
  | .done answer => (shown? errand.source answer).map fun size => (errand.source, size)
  | _ => none

namespace Affairs

/-- The errands for a document, of which none has begun. -/
def opening (search : Search) (document : Markup.Document) (template : Template) : Affairs :=
  ⟨[], search, Errand.ofDocument document template⟩

variable {network : Network} {limit : Nat}

/-- The steps of one errand are turns as long as no other one is under way. -/
theorem exists_turns_of_alone
    {source : String}
    {template : Template}
    {state next : Progress × Search}
    {before after : List Errand}
    (alone : Errand.Alone network source template state next)
    (positive : 0 < limit)
    (idle : ∀ errand ∈ before ++ after, errand.progress.isActive = false)
    (log : List Event) :
    ∃ later, Turns limit network
      ⟨log, state.2, before ++ ⟨source, template, state.1⟩ :: after⟩
      ⟨later, next.2, before ++ ⟨source, template, next.1⟩ :: after⟩ := by
  induction alone using Relation.ReflTransGen.head_induction_on generalizing log with
  | refl => exact ⟨log, .refl⟩
  | @head state step forward _ inductionHypothesis =>
      subst forward
      obtain ⟨progress, search⟩ := state
      dsimp only at inductionHypothesis ⊢
      cases settled : progress.isDone with
      | true =>
          obtain ⟨answer, rfl⟩ : ∃ answer, progress = .done answer := by
            cases progress <;> first | exact ⟨_, rfl⟩ | cases settled
          exact inductionHypothesis log
      | false =>
          let affairs : Affairs := ⟨log, search, before ++ ⟨source, template, progress⟩ :: after⟩
          have here : affairs.errands[before.length]? = some ⟨source, template, progress⟩ := by
            simp [affairs]
          have ready : Errand.IsReady limit search affairs.errands ⟨source, template, progress⟩ :=
            Errand.isReady_of_idle idle settled positive search
          have moved : affairs.turn network before.length ⟨source, template, progress⟩ =
              ⟨log ++ Errand.events network ⟨source, template, progress⟩ search,
                (Errand.advance network ⟨source, template, progress⟩ search).2,
                before ++ ⟨source, template,
                  (Errand.advance network ⟨source, template, progress⟩ search).1⟩ :: after⟩ := by
            simp [turn, affairs]
          obtain ⟨later, turns⟩ := inductionHypothesis
            (log ++ Errand.events network ⟨source, template, progress⟩ search)
          exact ⟨later, .head ⟨before.length, _, here, ready, rfl⟩ (moved ▸ turns)⟩

/-- Searching for sizes one after the other is an order in which errands take turns. -/
theorem exists_turns_sizeAll
    (positive : 0 < limit)
    (network : Network)
    (template : Template)
    (sources : List String)
    (finished : List Errand)
    (settled : ∀ errand ∈ finished, errand.progress.isDone = true)
    (log : List Event)
    (sizes : List (String × Size))
    (search : Search) :
    let found := Session.sizeAll network template sources (sizes, search)
    ∃ later ended, Turns limit network
        ⟨log, search, finished ++ sources.map fun source => ⟨source, template, .queued⟩⟩
        ⟨later, found.2, finished ++ ended⟩ ∧
      (∀ errand ∈ ended, errand.progress.isDone = true) ∧
        found.1 = (ended.filterMap Errand.size?).reverse ++ sizes := by
  induction sources generalizing finished log sizes search with
  | nil => exact ⟨log, [], .refl, by simp, rfl⟩
  | cons source sources inductionHypothesis =>
      let ended : Errand :=
        ⟨source, template, .done (search.findNatural network template source).1⟩
      have idle : ∀ errand ∈ finished ++
          sources.map fun source => (⟨source, template, .queued⟩ : Errand),
            errand.progress.isActive = false := by
        intro errand member
        rcases List.mem_append.mp member with done | queued
        · have done := settled errand done
          cases progress : errand.progress <;>
            simp [progress, Progress.isDone, Progress.isActive] at done ⊢
        · obtain ⟨_, _, rfl⟩ := List.mem_map.mp queued
          rfl
      have alone : Errand.Alone network source template (.queued, search)
          (ended.progress, (search.find network template source).2) := Errand.Alone.find
      obtain ⟨middle, first⟩ := exists_turns_of_alone alone positive idle log
      have settled : ∀ errand ∈ finished ++ [ended], errand.progress.isDone = true := by
        intro errand member
        rcases List.mem_append.mp member with old | new
        · exact settled errand old
        · exact List.mem_singleton.mp new ▸ rfl
      obtain ⟨later, more, rest, isSettled, sized⟩ := inductionHypothesis _ settled middle
        (((search.find network template source).1.map fun size => (source, size)).toList ++ sizes)
        (search.find network template source).2
      refine ⟨later, ended :: more, ?_, ?_, ?_⟩
      · rw [List.append_assoc, List.singleton_append, List.append_assoc, List.singleton_append]
          at rest
        exact first.trans rest
      · exact List.forall_mem_cons.mpr ⟨rfl, isSettled⟩
      · refine sized.trans ?_
        rw [Errand.find_fst, List.filterMap_cons]
        cases found : shown? source (search.findNatural network template source).1 with
        | none => simp only [ended, Errand.size?, found, Option.map_none, Option.toList_none,
            List.nil_append]
        | some size =>
            simp only [ended, Errand.size?, found, Option.map_some, Option.toList_some,
              List.reverse_cons, List.append_assoc]

end Affairs

/-! ## What is left when all errands have ended -/

namespace Accounted

variable {network : Network} {first : Search} {template : Template}
  {sources written others : List String} {affairs other : Affairs}

/-- Errands have ended with what a search finds out before anything else is done. -/
theorem errands_eq
    (accounted : Accounted network first template sources written affairs)
    (settled : ∀ errand ∈ affairs.errands, errand.progress.isDone = true) :
    affairs.errands = sources.map fun source =>
      ⟨source, template, .done (first.natural network template source)⟩ := by
  have each : affairs.errands.map id = affairs.errands.map fun errand =>
      ⟨errand.source, template, .done (first.natural network template errand.source)⟩ := by
    refine List.map_congr_left fun errand member => ?_
    obtain ⟨_, rfl⟩ := accounted.mem_sources member
    have foresees := accounted.foresees errand member
    have done := settled errand member
    obtain ⟨source, template, progress⟩ := errand
    cases progress with
    | done answer =>
        obtain rfl : first.natural network template source = answer := foresees
        rfl
    | _ => cases done
  rw [List.map_id] at each
  rw [each, ← accounted.map_source, List.map_map]
  rfl

theorem copying_eq_nil
    (accounted : Accounted network first template sources written affairs)
    (settled : ∀ errand ∈ affairs.errands, errand.progress.isDone = true) :
    affairs.errands.filterMap Errand.copying? = [] := by
  rw [accounted.errands_eq settled, List.filterMap_map]
  exact List.filterMap_eq_nil_iff.mpr fun _ _ => rfl

/-- The file of every image that was to be copied is one that was copied, perhaps for another
source. -/
theorem exists_written
    {source : String}
    (accounted : Accounted network first template sources written affairs)
    (idle : affairs.errands.filterMap Errand.copying? = [])
    {errand : Errand}
    (member : errand ∈ affairs.errands)
    (mine : errand.source = source)
    (settled : errand.progress.isOver = true)
    (copies : first.Copies template source) :
    ∃ other ∈ written, components (template.imagePath other) =
      components (template.imagePath source) := by
  have marked := accounted.marked.mem_iff.mp
    (accounted.claimed errand member settled (mine ▸ copies))
  rw [idle, List.append_nil, mine] at marked
  rcases List.mem_append.mp marked with now | before
  · obtain ⟨other, listed, same⟩ := List.mem_map.mp now
    exact ⟨other, listed, same⟩
  · exact absurd before copies.2.2.2.2

theorem exists_written_of_settled
    {source : String}
    (accounted : Accounted network first template sources written affairs)
    (settled : ∀ errand ∈ affairs.errands, errand.progress.isDone = true)
    (listed : source ∈ sources)
    (copies : first.Copies template source) :
    ∃ other ∈ written, components (template.imagePath other) =
      components (template.imagePath source) := by
  have member : ⟨source, template, .done (first.natural network template source)⟩ ∈
      affairs.errands := by
    rw [accounted.errands_eq settled]
    exact List.mem_map_of_mem listed
  exact accounted.exists_written (accounted.copying_eq_nil settled) member rfl rfl copies

/-- Only images that are to be copied were. -/
theorem of_written
    {source : String}
    (accounted : Accounted network first template sources written affairs)
    (member : source ∈ written) :
    source ∈ sources ∧ first.Copies template source :=
  have member := List.mem_append_left (affairs.errands.filterMap Errand.copying?) member
  ⟨accounted.mem_of_wanted member, accounted.wanted source member⟩

theorem copied_iff
    (accounted : Accounted network first template sources written affairs)
    (settled : ∀ errand ∈ affairs.errands, errand.progress.isDone = true)
    (names : List String) :
    names ∈ affairs.search.sizer.copied ↔ names ∈ first.sizer.copied ∨
      ∃ source ∈ sources, first.Copies template source ∧
        components (template.imagePath source) = names := by
  rw [accounted.marked.mem_iff, accounted.copying_eq_nil settled, List.append_nil, List.mem_append,
    or_comm]
  refine or_congr_right ⟨fun member => ?_, fun ⟨source, listed, copies, same⟩ => ?_⟩
  · obtain ⟨source, done, same⟩ := List.mem_map.mp member
    obtain ⟨listed, copies⟩ := accounted.of_written done
    exact ⟨source, listed, copies, same⟩
  · obtain ⟨other, done, also⟩ := accounted.exists_written_of_settled settled listed copies
    exact List.mem_map.mpr ⟨other, done, also.trans same⟩

/-- What the images hold is the same for sources that name the same file. -/
theorem read?_congr
    {source same : String}
    (placed : first.IsPlaced template sources)
    (listed : source ∈ sources)
    (copies : first.Copies template source)
    (also : same ∈ sources)
    (copiesToo : first.Copies template same)
    (names : components (template.imagePath source) = components (template.imagePath same)) :
    first.space.disk.read? (template.imagePath source) =
      first.space.disk.read? (template.imagePath same) := by
  have held {source : String} (listed : source ∈ sources) (copies : first.Copies template source) :
      first.space.disk.read? (template.imagePath source) =
        first.space.disk.content? (first.space.disk.locate (template.imagePath source)) := by
    obtain ⟨outcome, success⟩ := placed.copied source listed copies
    unfold Workspace.copy Disk.read? at success
    unfold Disk.read?
    cases leads : first.space.disk.resolve? (template.imagePath source) with
    | none =>
        rw [leads] at success
        cases success
    | some location => rw [Option.bind_some, ← Disk.eq_locate leads]
  rw [held listed copies, held also copiesToo, Template.locate_imagePath_congr names]

/-- Files hold the same in whatever order errands took turns, the cache file excepted. -/
theorem content?_congr
    (accounted : Accounted network first template sources written affairs)
    (settled : ∀ errand ∈ affairs.errands, errand.progress.isDone = true)
    (accountedToo : Accounted network first template sources others other)
    (settledToo : ∀ errand ∈ other.errands, errand.progress.isDone = true)
    (placed : first.IsPlaced template sources)
    {location : List String}
    (away : first.space.disk.locate first.sizer.cache.path ≠ location) :
    affairs.search.space.disk.content? location = other.search.space.disk.content? location := by
  have copied {written others : List String} {affairs other : Affairs} {source : String}
      (accounted : Accounted network first template sources written affairs)
      (accountedToo : Accounted network first template sources others other)
      (settledToo : ∀ errand ∈ other.errands, errand.progress.isDone = true)
      (member : source ∈ written)
      (here : first.space.disk.locate (first.copyPath template source) = location) :
      affairs.search.space.disk.content? location =
          other.search.space.disk.content? location ∧
        ∃ source ∈ others, first.space.disk.locate (first.copyPath template source) = location := by
    obtain ⟨listed, copies⟩ := accounted.of_written member
    obtain ⟨same, done, names⟩ := accountedToo.exists_written_of_settled settledToo listed copies
    obtain ⟨also, copiesToo⟩ := accountedToo.of_written done
    have there := (Template.locate_copyPath_congr first names first.space.disk).trans here
    have one := accounted.files source member
    have two := accountedToo.files same done
    rw [here] at one
    rw [there] at two
    exact ⟨one.trans ((read?_congr placed also copiesToo listed copies names).symm.trans two.symm),
      same, done, there⟩
  by_cases some : ∃ source ∈ written,
      first.space.disk.locate (first.copyPath template source) = location
  · obtain ⟨source, member, here⟩ := some
    exact (copied accounted accountedToo settledToo member here).1
  · by_cases also : ∃ source ∈ others,
        first.space.disk.locate (first.copyPath template source) = location
    · obtain ⟨source, member, here⟩ := also
      exact absurd (copied accountedToo accounted settled member here).2 some
    · have still {written : List String} {affairs : Affairs}
          (accounted : Accounted network first template sources written affairs)
          (none : ¬ ∃ source ∈ written,
            first.space.disk.locate (first.copyPath template source) = location) :
          affairs.search.space.disk.content? location = first.space.disk.content? location := by
        refine accounted.disk.content? fun path member => ?_
        rcases List.mem_cons.mp member with rfl | copy
        · exact away
        · obtain ⟨source, done, rfl⟩ := List.mem_map.mp copy
          exact fun here => none ⟨source, done, here⟩
      rw [still accounted some, still accountedToo also]

/-- The warnings are those about copies and those about what was found out. -/
theorem warnings_perm
    (accounted : Accounted network first template sources written affairs)
    (settled : ∀ errand ∈ affairs.errands, errand.progress.isDone = true) :
    affairs.search.warnings.Perm
      (first.warnings ++ (written.map Search.localWarning ++ sources.flatMap fun source =>
        warningsAbout source (first.natural network template source))) := by
  have warnings := accounted.warnings
  rw [accounted.errands_eq settled, List.flatMap_map] at warnings
  exact warnings

/-- When no two sources name the same file, the images that were copied are those that were to
be. -/
theorem written_perm
    (accounted : Accounted network first template sources written affairs)
    (distinct : sources.Nodup)
    (settled : ∀ errand ∈ affairs.errands, errand.progress.isDone = true)
    (apart : ∀ source ∈ sources, ∀ other ∈ sources, first.Copies template source →
      first.Copies template other →
        components (template.imagePath source) = components (template.imagePath other) →
          source = other) :
    written.Perm (sources.filter (first.Copies template)) := by
  have once := accounted.once
  rw [accounted.copying_eq_nil settled, List.append_nil] at once
  refine (List.perm_ext_iff_of_nodup once.of_map (distinct.filter _)).mpr fun source => ?_
  rw [List.mem_filter, decide_eq_true_iff]
  refine ⟨accounted.of_written, fun ⟨listed, copies⟩ => ?_⟩
  obtain ⟨other, done, same⟩ := accounted.exists_written_of_settled settled listed copies
  obtain ⟨also, copiesToo⟩ := accounted.of_written done
  exact apart other also source listed copiesToo copies same ▸ done

end Accounted

theorem localWarning_injective : Function.Injective Search.localWarning := by
  intro source other same
  have chars := congrArg String.toList same
  simp only [Search.localWarning, String.toList_append, List.append_assoc,
    List.append_cancel_left_eq, List.append_cancel_right_eq] at chars
  exact String.toList_inj.mp chars

namespace Affairs

variable {limit : Nat} {network : Network} {first : Search} {template : Template}
  {sources : List String}

/-- Errands can take turns so that a given image is copied, unless its file was copied before. -/
theorem exists_turns_written
    {source : String}
    (positive : 0 < limit)
    (network : Network)
    (distinct : sources.Nodup)
    (placed : first.IsPlaced template sources)
    (listed : source ∈ sources)
    (copies : first.Copies template source) :
    ∃ later written, Turns limit network
        ⟨[], first, sources.map fun source => ⟨source, template, .queued⟩⟩ later ∧
      (∀ errand ∈ later.errands, errand.progress.isDone = true) ∧
        Accounted network first template sources written later ∧ source ∈ written := by
  obtain ⟨before, after, rfl⟩ := List.append_of_mem listed
  let queued (source : String) : Errand := ⟨source, template, .queued⟩
  have idle : ∀ errand ∈ before.map queued ++ after.map queued,
      errand.progress.isActive = false := by
    intro errand member
    rw [← List.map_append] at member
    obtain ⟨_, _, rfl⟩ := List.mem_map.mp member
    rfl
  have finds : Errand.Alone network source template (.queued, first) _ := Errand.Alone.find
  obtain ⟨log, alone⟩ := exists_turns_of_alone finds positive idle []
  rw [show before.map queued ++ ⟨source, template, .queued⟩ :: after.map queued =
    (before ++ source :: after).map queued by simp [queued]] at alone
  obtain ⟨written, accounted⟩ :=
    (Accounted.start first network template _).turns distinct placed alone
  rw [List.nil_append] at accounted
  -- The file of the image is marked, and no other errand can have marked it.
  have noneCopying : (before.map queued ++
      ⟨source, template, .done (first.findNatural network template source).1⟩ ::
        after.map queued).filterMap Errand.copying? = [] := by
    rw [List.filterMap_append, List.filterMap_cons, List.filterMap_map, List.filterMap_map]
    simp [Errand.copying?, queued, Function.comp_def]
  obtain ⟨other, done, same⟩ := accounted.exists_written noneCopying
    (List.mem_append_right _ List.mem_cons_self) rfl rfl copies
  obtain rfl : other = source := by
    obtain ⟨errand, among, mine, settled⟩ := accounted.settled other done
    rcases List.mem_append.mp among with front | rest
    · obtain ⟨_, _, rfl⟩ := List.mem_map.mp front
      cases settled
    · rcases List.mem_cons.mp rest with rfl | back
      · exact mine.symm
      · obtain ⟨_, _, rfl⟩ := List.mem_map.mp back
        cases settled
  obtain ⟨later, rest, settled, _⟩ := exists_turns_done limit positive network _
  obtain ⟨more, accounted⟩ := accounted.turns distinct placed rest
  exact ⟨later, written ++ more, alone.trans rest, settled, accounted,
    List.mem_append_left _ done⟩

/-- What comes of the images of a document is what a search finds that takes one image after the
other. -/
structure EndsAs (affairs : Affairs) (cachePath : List String)
    (found : Resolved × Sizer × Workspace) : Prop where
  /-- The same sizes are found. -/
  sizes : ∀ errand ∈ affairs.errands, ∃ answer, errand.progress = .done answer ∧
    shown? errand.source answer = found.1.get? errand.source
  /-- The same files are copied. -/
  copied : ∀ names, names ∈ affairs.search.sizer.copied ↔ names ∈ found.2.1.copied
  /-- All files hold the same, the cache file excepted. -/
  files : ∀ location, cachePath ≠ location →
    affairs.search.space.disk.content? location = found.2.2.disk.content? location

end Affairs

/-- Looking up what was found for each source in a list without repetitions. -/
theorem lookup_filterMap
    {sources : List String}
    (distinct : sources.Nodup)
    (size? : String → Option Size)
    (source : String) :
    (sources.filterMap fun source => (size? source).map fun size => (source, size)).lookup source =
      if source ∈ sources then size? source else none := by
  induction distinct with
  | nil => rfl
  | @cons other sources fresh _ inductionHypothesis =>
      have absent : other ∉ sources := fun member => fresh other member rfl
      rw [List.filterMap_cons]
      by_cases same : source = other
      · subst same
        rw [if_pos List.mem_cons_self]
        cases found : size? source with
        | none => simpa [absent, found] using inductionHypothesis
        | some size => simp
      · have rest : (source ∈ other :: sources) = (source ∈ sources) := by simp [same]
        cases found : size? other with
        | none => simpa [rest] using inductionHypothesis
        | some size =>
            simpa [List.lookup_cons, beq_false_of_ne same, rest] using inductionHypothesis

/-- Searching for one image after the other is one of the orders in which errands take turns. -/
theorem exists_turns_resolve
    {limit : Nat}
    (positive : 0 < limit)
    (network : Network)
    (sizer : Sizer)
    (space : Workspace)
    (document : Markup.Document)
    (template : Template)
    (placed : Search.IsPlaced ⟨sizer, space, []⟩ template (unsizedSources document)) :
    let first : Search := ⟨sizer, space, []⟩
    let found := resolve network sizer space document template
    ∃ last written, Affairs.Turns limit network (.opening first document template) last ∧
      (∀ errand ∈ last.errands, errand.progress.isDone = true) ∧
        Accounted network first template (unsizedSources document) written last ∧
          (∀ source ∈ unsizedSources document,
            found.1.get? source = shown? source (first.natural network template source)) ∧
            found.1.warnings =
                (last.search.warnings.mergeSort fun first second => first ≤ second) ∧
              found.2 = (last.search.sizer, last.search.space) := by
  intro first found
  have distinct := nodup_unsizedSources document
  obtain ⟨log, ended, turns, settled, sizes⟩ :=
    Affairs.exists_turns_sizeAll positive network template (unsizedSources document)
      [] (by simp) [] [] first
  rw [List.nil_append, List.nil_append] at turns
  obtain ⟨written, accounted⟩ :=
    (Accounted.start first network template _).turns distinct placed turns
  refine ⟨_, _, turns, settled, accounted, fun source listed => ?_, rfl, rfl⟩
  have sized : ended.filterMap Errand.size? = (unsizedSources document).filterMap fun source =>
      (shown? source (first.natural network template source)).map fun size => (source, size) := by
    rw [show ended = _ from accounted.errands_eq settled, List.filterMap_map]
    rfl
  rw [sized, List.append_nil, ← List.filterMap_reverse] at sizes
  rw [show found.1.get? source = List.lookup source _ from congrArg (List.lookup source) sizes,
    lookup_filterMap (List.nodup_reverse.mpr distinct), if_pos (List.mem_reverse.mpr listed)]

/-- Sorted texts are the same when there are the same ones. -/
theorem mergeSort_eq_iff (texts others : List String) :
    (texts.mergeSort fun first second => first ≤ second) =
        (others.mergeSort fun first second => first ≤ second) ↔
      texts.Perm others := by
  have sorted (texts : List String) :
      (texts.mergeSort fun first second => first ≤ second).Pairwise (· ≤ ·) := by
    have transitive (first second third : String) (one : decide (first ≤ second) = true)
        (two : decide (second ≤ third) = true) : decide (first ≤ third) = true :=
      decide_eq_true (le_trans (of_decide_eq_true one) (of_decide_eq_true two))
    have total (first second : String) :
        (decide (first ≤ second) || decide (second ≤ first)) = true := by
      simpa using le_total first second
    simpa using List.pairwise_mergeSort transitive total texts
  refine ⟨fun same => ?_, fun perm => ?_⟩
  · exact (List.mergeSort_perm texts _).symm.trans (same ▸ List.mergeSort_perm others _)
  · exact List.Perm.eq_of_pairwise' (sorted texts) (sorted others)
      ((List.mergeSort_perm texts _).trans (perm.trans (List.mergeSort_perm others _).symm))

/-- In whatever order errands take turns, the same sizes are found and the same files are copied.
All orders give the same warnings just when no two sources name the same file that is to be
copied. -/
theorem resolve_any_order
    (limit : Nat)
    (positive : 0 < limit)
    (network : Network)
    (sizer : Sizer)
    (space : Workspace)
    (document : Markup.Document)
    (template : Template)
    (placed : Search.IsPlaced ⟨sizer, space, []⟩ template (unsizedSources document)) :
    let first : Search := ⟨sizer, space, []⟩
    let found := resolve network sizer space document template
    (∀ later, Affairs.Turns limit network (.opening first document template) later →
      (∀ errand ∈ later.errands, errand.progress.isDone = true) →
        later.EndsAs (space.disk.locate sizer.cache.path) found) ∧
      ((∀ later, Affairs.Turns limit network (.opening first document template) later →
          (∀ errand ∈ later.errands, errand.progress.isDone = true) →
            (later.search.warnings.mergeSort fun first second => first ≤ second) =
              found.1.warnings) ↔
        ∀ source ∈ unsizedSources document, ∀ other ∈ unsizedSources document,
          first.Copies template source → first.Copies template other →
            components (template.imagePath source) = components (template.imagePath other) →
              source = other) := by
  intro first found
  have distinct := nodup_unsizedSources document
  have start := Accounted.start first network template (unsizedSources document)
  obtain ⟨last, written, _, settled, accounted, sizes, warnings, left⟩ :=
    exists_turns_resolve positive network sizer space document template placed
  refine ⟨fun later turns ended => ?_, fun alike source listed other also copies copiesToo names =>
    ?_, fun apart later turns ended => ?_⟩
  · obtain ⟨more, counted⟩ := start.turns distinct placed turns
    refine ⟨fun errand member => ?_, fun names => ?_, fun location away => ?_⟩
    · rw [counted.errands_eq ended] at member
      obtain ⟨source, listed, rfl⟩ := List.mem_map.mp member
      exact ⟨_, rfl, (sizes source listed).symm⟩
    · rw [show found.2 = _ from left, counted.copied_iff ended, accounted.copied_iff settled]
    · rw [show found.2 = _ from left]
      exact counted.content?_congr ended accounted settled placed away
  · -- Each of two sources that name one file is the one that is warned about in some order.
    obtain ⟨later, written, turns, ended, counted, done⟩ :=
      Affairs.exists_turns_written positive network distinct placed listed copies
    obtain ⟨laterToo, others, turnsToo, endedToo, countedToo, doneToo⟩ :=
      Affairs.exists_turns_written positive network distinct placed also copiesToo
    have same := (alike later turns ended).trans (alike laterToo turnsToo endedToo).symm
    have perm := (counted.warnings_perm ended).symm.trans
      (((mergeSort_eq_iff _ _).mp same).trans (countedToo.warnings_perm endedToo))
    rw [List.perm_append_left_iff, List.perm_append_right_iff,
      List.map_perm_map_iff localWarning_injective] at perm
    have once := counted.once
    rw [counted.copying_eq_nil ended, List.append_nil] at once
    exact List.inj_on_of_nodup_map once done (perm.mem_iff.mpr doneToo) names
  · obtain ⟨more, counted⟩ := start.turns distinct placed turns
    rw [show found.1.warnings = _ from warnings, mergeSort_eq_iff]
    refine (counted.warnings_perm ended).trans (.trans ?_ (accounted.warnings_perm settled).symm)
    exact (((counted.written_perm distinct ended apart).trans
      (accounted.written_perm distinct settled apart).symm).map _ |>.append_right _).append_left _

/-! ## Two images and one image -/

/-- A document with two images. -/
def twoImages (source other : String) : Markup.Document :=
  ⟨#[⟨.root, none, [1, 2]⟩, ⟨.element ⟨"img", [⟨"src", source⟩], false⟩, some 0, []⟩,
    ⟨.element ⟨"img", [⟨"src", other⟩], false⟩, some 0, []⟩]⟩

/-- An image of four by two pixels. -/
def smallImage : ByteArray :=
  "GIF89a\x04\x00\x02\x00\x00\x00\x00;".toUTF8

/-- Two images of a template. -/
def gallery : Workspace where
  disk := (Disk.empty.put "templates/welcome/a.gif" smallImage).put "templates/welcome/b.gif"
    smallImage
  writer := .new "out"

/-- A search in which nothing is known yet. -/
def gallerySearch : Search :=
  ⟨.start gallery.disk "sizes.json" true, gallery, []⟩

/-- A template with two images. -/
def galleryTemplate : Template :=
  ⟨"welcome", "templates/welcome"⟩

theorem isPlaced_gallery : gallerySearch.IsPlaced galleryTemplate ["a.gif", "b.gif"] where
  reads := by decide +kernel
  copied source member _ := by
    have written : ∀ source ∈ ["a.gif", "b.gif"],
        (gallerySearch.space.copy (galleryTemplate.imagePath source)
          (galleryTemplate.imagePlace source)).1 = .ok .written := by decide +kernel
    exact ⟨_, written source member⟩
  honest source _ _ old remembered := by cases remembered
  cache := by decide +kernel
  aside := by decide +kernel

/-- The two images have different files, so all orders give the same warnings. -/
theorem resolve_any_order_gallery :
    gallerySearch.IsPlaced galleryTemplate (unsizedSources (twoImages "a.gif" "b.gif")) ∧
      ∀ later, Affairs.Turns 2 .silent
          (.opening gallerySearch (twoImages "a.gif" "b.gif") galleryTemplate) later →
        (∀ errand ∈ later.errands, errand.progress.isDone = true) →
          (later.search.warnings.mergeSort fun first second => first ≤ second) =
            (resolve .silent gallerySearch.sizer gallery (twoImages "a.gif" "b.gif")
              galleryTemplate).1.warnings := by
  have sources : unsizedSources (twoImages "a.gif" "b.gif") = ["a.gif", "b.gif"] := by cbv
  have placed : gallerySearch.IsPlaced galleryTemplate
      (unsizedSources (twoImages "a.gif" "b.gif")) := sources ▸ isPlaced_gallery
  refine ⟨placed, (resolve_any_order 2 (by decide) .silent gallerySearch.sizer gallery
    (twoImages "a.gif" "b.gif") galleryTemplate placed).2.mpr ?_⟩
  rw [sources]
  decide +kernel

/-- Two sources that name one file: the errand that comes first is the one that gives a warning,
which tells its own source. -/
theorem warnings_depend_on_order :
    ∃ later other,
      Affairs.Turns 2 .silent
          (.opening gallerySearch (twoImages "a.gif" "a.gif?x") galleryTemplate) later ∧
        Affairs.Turns 2 .silent
            (.opening gallerySearch (twoImages "a.gif" "a.gif?x") galleryTemplate) other ∧
          later.errands.map (·.progress.isDone) = [true, true] ∧
            other.errands.map (·.progress.isDone) = [true, true] ∧
              later.search.warnings = [Search.localWarning "a.gif"] ∧
                other.search.warnings = [Search.localWarning "a.gif?x"] ∧
                  (later.search.warnings.mergeSort fun first second => first ≤ second) ≠
                    other.search.warnings.mergeSort fun first second => first ≤ second := by
  have sources : unsizedSources (twoImages "a.gif" "a.gif?x") = ["a.gif", "a.gif?x"] := by cbv
  rw [Affairs.opening, Errand.ofDocument, sources]
  have played :
      (Affairs.play? 2 .silent [0, 0, 0, 0, 0, 0, 1, 1, 1, 1, 1] ⟨[], gallerySearch,
        ["a.gif", "a.gif?x"].map fun source => ⟨source, galleryTemplate, .queued⟩⟩).map
          (fun affairs => (affairs.errands.map (·.progress.isDone), affairs.search.warnings)) =
        some ([true, true], [Search.localWarning "a.gif"]) := by
    decide +kernel
  have playedToo :
      (Affairs.play? 2 .silent [1, 1, 1, 1, 1, 1, 0, 0, 0, 0, 0] ⟨[], gallerySearch,
        ["a.gif", "a.gif?x"].map fun source => ⟨source, galleryTemplate, .queued⟩⟩).map
          (fun affairs => (affairs.errands.map (·.progress.isDone), affairs.search.warnings)) =
        some ([true, true], [Search.localWarning "a.gif?x"]) := by
    decide +kernel
  obtain ⟨later, plays, ends⟩ := Option.map_eq_some_iff.mp played
  obtain ⟨other, playsToo, endsToo⟩ := Option.map_eq_some_iff.mp playedToo
  obtain ⟨done, warnings⟩ := Prod.mk.inj ends
  obtain ⟨doneToo, warningsToo⟩ := Prod.mk.inj endsToo
  refine ⟨later, other, Affairs.turns_of_play? plays, Affairs.turns_of_play? playsToo, done,
    doneToo, warnings, warningsToo, ?_⟩
  rw [warnings, warningsToo, List.mergeSort_singleton, List.mergeSort_singleton]
  decide +kernel

end Image
end MailPress
