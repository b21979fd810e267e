import MailPress.Proofs.Image.Request
import MailPress.Proofs.Image.Upkeep

/-!
# The order in which errands take turns

The errands for one document are let loose on a cache, a network and the files. What each of them
finds out is what a search finds out before anything else is done, and the images that are copied
are the same ones, as long as no image lies where something is written.

What is accounted for are the sources whose images were copied. Each of them was the first one to
name its file.
-/

namespace MailPress

open MailPress.Path

namespace Image
namespace Search

/-- What is found out about an image when nothing else is done before. -/
def natural
    (first : Search)
    (network : Network)
    (template : Template)
    (source : String) :
    Except Fault Size :=
  (first.findNatural network template source).1

/-- An image is to be copied when it is a local one that is found, and its file was not copied
before. -/
def Copies (first : Search) (template : Template) (source : String) : Prop :=
  first.sizer.cache.get? source = none ∧ address? source = none ∧
    (measure first.space.disk source (template.imagePath source)).toOption.isSome = true ∧
      first.sizer.copyLocal = true ∧
        components (template.imagePath source) ∉ first.sizer.copied

instance (first : Search) (template : Template) (source : String) :
    Decidable (first.Copies template source) :=
  inferInstanceAs (Decidable (_ ∧ _))

/-- The path of the copy of an image. -/
def copyPath (first : Search) (template : Template) (source : String) : String :=
  join first.space.writer.root (template.imagePlace source)

/-- The paths that are written when the sizes of some images are searched for. -/
def written (first : Search) (template : Template) (sources : List String) : List String :=
  first.sizer.cache.path :: sources.map (first.copyPath template)

variable {first : Search} {network : Network} {template : Template} {source : String}

theorem natural_of_get? {size : Size} (kept : first.sizer.cache.get? source = some size) :
    first.natural network template source = .ok size := by
  rw [natural, findNatural, kept]

theorem natural_of_asked
    {address : String}
    {answer : Except Fault Size}
    (unkept : first.sizer.cache.get? source = none)
    (remote : address? source = some address)
    (asked : first.sizer.asked.lookup source = some answer) :
    first.natural network template source = answer := by
  rw [natural, findNatural, unkept, remote]
  simp only [findRemote, asked]

theorem natural_of_unasked
    {address : String}
    (unkept : first.sizer.cache.get? source = none)
    (remote : address? source = some address)
    (unasked : first.sizer.asked.lookup source = none) :
    first.natural network template source = fetch network address := by
  rw [natural, findNatural, unkept, remote]
  simp only [findRemote, unasked]
  cases fetch network address with
  | error fault => rfl
  | ok size => simp only

theorem natural_of_isLocal
    (unkept : first.sizer.cache.get? source = none)
    (isLocal : address? source = none) :
    first.natural network template source =
      measure first.space.disk source (template.imagePath source) := by
  unfold natural findNatural
  rw [unkept, isLocal]
  dsimp only
  unfold findLocal Template.imagePath
  dsimp only
  cases measure first.space.disk source (join template.directory (localPath source)) <;> rfl

/-- The images of a template are well placed when what is written lies elsewhere: neither the cache
file nor a copy is on the way to an image, nor on the way to another copy. -/
structure IsPlaced (first : Search) (template : Template) (sources : List String) : Prop where
  /-- Nothing is written where an image is read. -/
  reads : ∀ source ∈ sources, address? source = none →
    first.space.disk.IsApart (first.written template (sources.filter (first.Copies template)))
      (template.imagePath source)
  /-- No copy fails. -/
  copied : ∀ source ∈ sources, first.Copies template source →
    ∃ outcome,
      (first.space.copy (template.imagePath source) (template.imagePlace source)).1 = .ok outcome
  /-- What is remembered of the place of a copy is there. -/
  honest : ∀ source ∈ sources, first.Copies template source → ∀ old,
    first.space.writer.remembered? (first.copyPath template source) = some old →
      first.space.disk.read? (first.copyPath template source) = some old
  /-- The cache file is not in the way of a copy. -/
  cache : ∀ source ∈ sources, first.Copies template source →
    first.space.disk.IsClear [first.sizer.cache.path] (first.copyPath template source) ∧
      first.space.disk.locate first.sizer.cache.path ≠
        first.space.disk.locate (first.copyPath template source)
  /-- No copy is in the way of that of another file. -/
  aside : ∀ source ∈ sources, first.Copies template source →
    ∀ other ∈ sources, first.Copies template other →
      components (template.imagePath source) ≠ components (template.imagePath other) →
        first.space.disk.IsClear [first.copyPath template other]
            (first.copyPath template source) ∧
          first.space.disk.locate (first.copyPath template other) ≠
            first.space.disk.locate (first.copyPath template source)

end Search

/-! ## What errands find out -/

/-- What is found out about an image in its file is the same as long as nothing is written on the
way to it. -/
theorem measure_congr
    {disk other : Disk}
    {paths : List String}
    {path : String}
    (evolves : disk.Evolves paths other)
    (apart : disk.IsApart paths path)
    (source : String) :
    measure other source path = measure disk source path := by
  unfold measure
  rw [evolves.isFile apart, evolves.read? apart]

namespace Errand

/-- Nothing was found out about the source of an errand yet. -/
def IsFresh (first search : Search) (source : String) : Prop :=
  search.sizer.cache.get? source = first.sizer.cache.get? source ∧
    search.sizer.asked.lookup source = first.sizer.asked.lookup source

/-- An errand is on the way to what a search finds out before anything else is done. -/
def Foresees (network : Network) (first search : Search) (errand : Errand) : Prop :=
  let natural := first.natural network errand.template errand.source
  let kept := first.sizer.cache.get? errand.source
  match errand.progress with
  | .queued | .looking => IsFresh first search errand.source
  | .waiting address =>
      IsFresh first search errand.source ∧ kept = none ∧ address? errand.source = some address
  | .asking address =>
      kept = none ∧ address? errand.source = some address ∧
        first.sizer.asked.lookup errand.source = none
  | .answered answer | .settling answer =>
      (address? errand.source).isSome ∧ natural = answer
  | .measuring => kept = none ∧ address? errand.source = none
  | .claiming size | .copying size =>
      kept = none ∧ address? errand.source = none ∧ natural = .ok size
  | .found answer | .done answer => natural = answer

variable {network : Network} {first search : Search} {errand other : Errand}

/-- A step of an errand changes what is known about its own source only. -/
theorem isFresh_advance
    {source : String}
    (fresh : IsFresh first search source)
    (different : source ≠ errand.source)
    (network : Network) :
    IsFresh first (errand.advance network search).2 source := by
  obtain ⟨asked, cache⟩ := known_advance network errand search
  constructor
  · rw [cache]
    split
    · exact (lookup_putSize_of_ne different _ _).trans fresh.1
    · exact fresh.1
  · rw [asked]
    split
    · rw [List.lookup_cons, beq_false_of_ne different]
      exact fresh.2
    · exact fresh.2

/-- Other errands go on being on their way. -/
theorem foresees_advance_of_ne
    (foresees : other.Foresees network first search)
    (different : other.source ≠ errand.source) :
    other.Foresees network first (errand.advance network search).2 := by
  unfold Foresees at foresees ⊢
  split at foresees
  · exact isFresh_advance foresees different network
  · exact isFresh_advance foresees different network
  · exact ⟨isFresh_advance foresees.1 different network, foresees.2⟩
  all_goals exact foresees

/-- An errand goes on being on its way. -/
theorem foresees_advance
    (foresees : errand.Foresees network first search)
    (measured : address? errand.source = none →
      measure search.space.disk errand.source (errand.template.imagePath errand.source) =
        measure first.space.disk errand.source (errand.template.imagePath errand.source)) :
    ({ errand with progress := (errand.advance network search).1 } : Errand).Foresees network first
      (errand.advance network search).2 := by
  obtain ⟨source, template, progress⟩ := errand
  cases progress with
  | queued => exact foresees
  | looking =>
      have fresh : IsFresh first search source := foresees
      dsimp only [advance]
      cases kept : search.sizer.cache.get? source with
      | some size => exact Search.natural_of_get? (fresh.1.symm.trans kept)
      | none =>
          have unkept : first.sizer.cache.get? source = none := fresh.1.symm.trans kept
          cases remote : address? source with
          | some address => exact ⟨fresh, unkept, remote⟩
          | none => exact ⟨unkept, remote⟩
  | waiting address =>
      obtain ⟨fresh, unkept, remote⟩ := foresees
      dsimp only [advance]
      cases asked : search.sizer.asked.lookup source with
      | some answer => exact Search.natural_of_asked unkept remote (fresh.2.symm.trans asked)
      | none => exact ⟨unkept, remote, fresh.2.symm.trans asked⟩
  | asking address =>
      obtain ⟨unkept, remote, unasked⟩ := foresees
      exact ⟨by rw [remote]; rfl, Search.natural_of_unasked unkept remote unasked⟩
  | answered answer =>
      cases answer with
      | error fault => exact foresees
      | ok size =>
          exact foresees
  | settling answer => exact foresees.2
  | measuring =>
      have unkept : first.sizer.cache.get? source = none := foresees.1
      have isLocal : address? source = none := foresees.2
      have natural : first.natural network template source =
          measure first.space.disk source (template.imagePath source) :=
        Search.natural_of_isLocal unkept isLocal
      rw [← measured isLocal] at natural
      dsimp only [advance]
      cases answer : measure search.space.disk source (template.imagePath source) with
      | error fault => exact natural.trans answer
      | ok size => exact ⟨unkept, isLocal, natural.trans answer⟩
  | claiming size =>
      dsimp only [advance]
      split
      · exact foresees.2.2
      · exact foresees
  | copying size => exact foresees.2.2
  | found answer => exact foresees
  | done answer => exact foresees

/-! ## What errands do to the files -/

/-- An errand that is about to copy its image. -/
def copying? (errand : Errand) : Option String :=
  match errand.progress with
  | .copying _ => some errand.source
  | _ => none

/-- The warnings that an errand gives about what it has found out. -/
def said (errand : Errand) : List String :=
  match errand.progress with
  | .done answer => warningsAbout errand.source answer
  | _ => []

end Errand

namespace Progress

/-- Whether an errand knows what there is to know. -/
def isOver : Progress → Bool
  | .found _ | .done _ => true
  | _ => false

/-- Whether an errand has yet to see whether its image is to be copied. -/
def isQuiet : Progress → Bool
  | .claiming _ | .copying _ | .found _ | .done _ => false
  | _ => true

end Progress

namespace Errand

variable {network : Network} {first search : Search} {errand : Errand}

/-- An errand that has yet to see whether its image is to be copied writes the cache file at
most. -/
theorem quiet_advance
    (quiet : errand.progress.isQuiet = true)
    (network : Network)
    (search : Search) :
    let after := (errand.advance network search).2
    after.sizer.copied = search.sizer.copied ∧
      after.sizer.copyLocal = search.sizer.copyLocal ∧
        after.sizer.cache.path = search.sizer.cache.path ∧
          after.space.writer = search.space.writer ∧
            after.warnings = search.warnings ∧
              (after.space.disk = search.space.disk ∨
                Disk.Writes search.sizer.cache.path search.space.disk after.space.disk) := by
  obtain ⟨source, template, progress⟩ := errand
  have still : search.sizer.copied = search.sizer.copied ∧
      search.sizer.copyLocal = search.sizer.copyLocal ∧
        search.sizer.cache.path = search.sizer.cache.path ∧
          search.space.writer = search.space.writer ∧ search.warnings = search.warnings ∧
            (search.space.disk = search.space.disk ∨
              Disk.Writes search.sizer.cache.path search.space.disk search.space.disk) :=
    ⟨rfl, rfl, rfl, rfl, rfl, .inl rfl⟩
  dsimp only [advance]
  cases progress with
  | looking =>
      dsimp only
      split
      · exact still
      · split <;> exact still
  | waiting address => dsimp only; split <;> exact still
  | answered answer =>
      cases answer with
      | error fault => exact still
      | ok size =>
          exact ⟨rfl, rfl, rfl, rfl, rfl, .inr (search.sizer.cache.writes_save _ source size)⟩
  | measuring => dsimp only; split <;> exact still
  | claiming size => cases quiet
  | copying size => cases quiet
  | found answer => cases quiet
  | done answer => cases quiet
  | _ => exact still

/-- An errand that has yet to see whether its image is to be copied does not end, unless it is not
to be copied. -/
theorem not_copies_of_quiet
    (quiet : errand.progress.isQuiet = true)
    (foresees : errand.Foresees network first search)
    (measured : address? errand.source = none →
      measure search.space.disk errand.source (errand.template.imagePath errand.source) =
        measure first.space.disk errand.source (errand.template.imagePath errand.source))
    (settled : (errand.advance network search).1.isOver = true) :
    ¬ first.Copies errand.template errand.source := by
  rintro ⟨unkept, isLocal, found, _⟩
  obtain ⟨source, template, progress⟩ := errand
  dsimp only at *
  cases progress with
  | looking =>
      have fresh : IsFresh first search source := foresees
      simp only [advance, fresh.1.trans unkept, isLocal] at settled
      cases settled
  | waiting address => cases isLocal.symm.trans foresees.2.2
  | asking address => cases isLocal.symm.trans foresees.2.1
  | answered answer => cases answer <;> cases settled
  | settling answer =>
      have remote : (address? source).isSome = true := foresees.1
      rw [isLocal] at remote
      cases remote
  | measuring =>
      simp only [advance, measured isLocal] at settled
      cases answer : measure first.space.disk source (template.imagePath source) with
      | error fault => rw [answer] at found; cases found
      | ok size => rw [answer] at settled; cases settled
  | queued => cases settled
  | claiming size => cases quiet
  | copying size => cases quiet
  | found answer => cases quiet
  | done answer => cases quiet

theorem idle_of_quiet (quiet : errand.progress.isQuiet = true) :
    errand.copying? = none ∧ errand.said = [] := by
  obtain ⟨source, template, progress⟩ := errand
  cases progress with
  | copying size => cases quiet
  | done answer => cases quiet
  | _ => exact ⟨rfl, rfl⟩

/-- After a step that does not see whether the image is to be copied, it is not about to be. -/
theorem idle_advance_of_quiet
    (quiet : errand.progress.isQuiet = true)
    (network : Network)
    (search : Search) :
    let next : Errand := { errand with progress := (errand.advance network search).1 }
    next.copying? = none ∧ next.said = [] := by
  obtain ⟨source, template, progress⟩ := errand
  dsimp only [advance]
  cases progress with
  | looking =>
      dsimp only
      split
      · exact ⟨rfl, rfl⟩
      · split <;> exact ⟨rfl, rfl⟩
  | waiting address => dsimp only; split <;> exact ⟨rfl, rfl⟩
  | answered answer => cases answer <;> exact ⟨rfl, rfl⟩
  | measuring => dsimp only; split <;> exact ⟨rfl, rfl⟩
  | claiming size => cases quiet
  | copying size => cases quiet
  | found answer => cases quiet
  | done answer => cases quiet
  | _ => exact ⟨rfl, rfl⟩

end Errand
end Image
end MailPress
