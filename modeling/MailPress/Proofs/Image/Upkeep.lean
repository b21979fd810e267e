import MailPress.Image.Sizer
import MailPress.Proofs.Disk.Change
import MailPress.Proofs.Image.Cache

/-!
# The cache and its file hold the same

Saving a size writes the cache file and nothing else, whether that can be written or not.

A size that is recorded is known at once and goes to the file later: it waits in a queue, and the
sizes in the queue are saved one after the other, each into what the file holds then. When the
queue is empty, opening the file gives the cache that is in memory.

So it does not matter where the size of an image comes from. What is kept is the size that was
read from the image; it is scaled for dense screens when it is shown, and only then.
-/

namespace MailPress
namespace Image

/-! ## Saving a size on any disk -/

namespace Cache

variable {cache : Cache} {disk : Disk} {source : String} {size : Size}

/-- Saving makes directories that the cache file needs, and perhaps writes it. -/
theorem save_cases (cache : Cache) (disk : Disk) (source : String) (size : Size) :
    ∃ made, made ⊆ disk.parents cache.path ∧
      (cache.save disk source size = disk.withDirectories made ∨
        (disk.withDirectories made).resolve? cache.path =
            some ((disk.withDirectories made).locate cache.path) ∧
          cache.save disk source size =
            (disk.withDirectories made).withContent ((disk.withDirectories made).locate cache.path)
              (writeSizes (putSize source size (sizesAt disk cache.path))).toUTF8) := by
  obtain ⟨made, within, ready⟩ : ∃ made, made ⊆ disk.parents cache.path ∧
      cache.ready disk = disk.withDirectories made := by
    unfold ready Disk.parents
    cases Path.parent? cache.path with
    | none => exact ⟨[], List.nil_subset _, rfl⟩
    | some parent =>
        cases made : disk.makeDirectory? parent with
        | none => exact ⟨[], List.nil_subset _, by rw [Option.bind_some, made]; rfl⟩
        | some other =>
            refine ⟨_, List.Subset.refl _, ?_⟩
            rw [Option.bind_some, made]
            exact Disk.makeDirectory?_eq_some made
  refine ⟨made, within, ?_⟩
  unfold save
  dsimp only
  rw [← Cache.ready, ready]
  cases written : (disk.withDirectories made).write? cache.path
      (writeSizes (putSize source size (sizesAt disk cache.path))).toUTF8 with
  | none => exact .inl rfl
  | some other =>
      obtain ⟨leads, _, _, rfl⟩ := Disk.write?_eq_some_iff.mp written
      exact .inr ⟨leads, rfl⟩

theorem writes_save (cache : Cache) (disk : Disk) (source : String) (size : Size) :
    Disk.Writes cache.path disk (cache.save disk source size) := by
  obtain ⟨made, within, eq | ⟨_, eq⟩⟩ := cache.save_cases disk source size <;> rw [eq]
  · exact ⟨made, within, .inl rfl⟩
  · rw [(Disk.grows_withDirectories disk made).locate]
    exact ⟨made, within, .inr ⟨_, rfl⟩⟩

/-- A file that a path leads to holds the same sizes while other files are written. -/
theorem sizesAt_eq
    {path : String}
    {other : Disk}
    (leads : disk.resolve? path = some (disk.locate path))
    (grows : disk.Grows other)
    (same : other.content? (disk.locate path) = disk.content? (disk.locate path)) :
    sizesAt other path = sizesAt disk path := by
  rw [sizesAt, sizesAt, Disk.readText?, Disk.readText?, Disk.read?, Disk.read?, leads,
    grows.resolve? leads, Option.bind_some, Option.bind_some, same]

/-- After saving, the file holds the size too, unless it cannot be written. -/
theorem sizesAt_save_cases
    (leads : disk.resolve? cache.path = some (disk.locate cache.path))
    (source : String)
    (fits : size.Fits) :
    sizesAt (cache.save disk source size) cache.path =
        putSize source size (sizesAt disk cache.path) ∨
      sizesAt (cache.save disk source size) cache.path = sizesAt disk cache.path := by
  have table := (isTable_sizesAt disk cache.path).put source fits
  obtain ⟨made, within, eq | ⟨leads', eq⟩⟩ := cache.save_cases disk source size <;> rw [eq]
  · exact .inr (sizesAt_eq leads (Disk.grows_withDirectories disk made)
      (Disk.content?_withDirectories disk made _))
  · refine .inl ?_
    rw [sizesAt, Disk.readText?, Disk.read?_withContent leads', Option.bind_some,
      fromUTF8?_toUTF8, Option.bind_some, readSizes?_writeSizes table, Option.getD_some]

end Cache

/-! ## Sizes that wait to be saved -/

namespace Cache

/-- Remember a size in memory. -/
def remember (cache : Cache) (source : String) (size : Size) : Cache :=
  { cache with sizes := putSize source size cache.sizes }

theorem record_eq (cache : Cache) (disk : Disk) (source : String) (size : Size) :
    cache.record disk source size =
      (cache.remember source size, (cache.remember source size).save disk source size) := rfl

end Cache

/-- The cache in memory, the sizes that have yet to be saved, and the disk. -/
structure Upkeep where
  /-- The cache in memory. -/
  cache : Cache
  /-- The sizes that wait to be saved, the oldest first. -/
  queue : List (String × Size)
  /-- The disk. -/
  disk : Disk

namespace Upkeep

/-- What becomes of a cache that is opened over a disk, with the sizes that were recorded. Sizes
are saved in the order they were recorded, and nobody else changes the cache file. -/
inductive Reached (first : Disk) (path : String) : List (String × Size) → Upkeep → Prop
  /-- The file is opened. -/
  | load : Reached first path [] ⟨.load first path, [], first⟩
  /-- A size is recorded. -/
  | record {records : List (String × Size)} {state : Upkeep}
      (reached : Reached first path records state)
      (source : String)
      {size : Size}
      (fits : size.Fits) :
      Reached first path (records ++ [(source, size)])
        ⟨state.cache.remember source size, state.queue ++ [(source, size)], state.disk⟩
  /-- The size that has waited longest is saved. -/
  | save {records queue : List (String × Size)} {cache : Cache} {entry : String × Size}
      {disk : Disk}
      (reached : Reached first path records ⟨cache, entry :: queue, disk⟩)
      (can : cache.CanSave disk) :
      Reached first path records ⟨cache, queue, cache.save disk entry.1 entry.2⟩
  /-- Something else changes on the disk. -/
  | elsewhere {records : List (String × Size)} {state : Upkeep} {disk : Disk}
      (reached : Reached first path records state)
      (same : disk.readText? path = state.disk.readText? path) :
      Reached first path records { state with disk }

namespace Reached

variable {first : Disk} {path : String} {records : List (String × Size)} {state : Upkeep}

theorem path_eq (reached : Reached first path records state) : state.cache.path = path := by
  induction reached with
  | load => rfl
  | record _ _ _ inductionHypothesis => exact inductionHypothesis
  | save _ _ inductionHypothesis => exact inductionHypothesis
  | elsewhere _ _ inductionHypothesis => exact inductionHypothesis

theorem fits (reached : Reached first path records state) :
    ∀ entry ∈ records, entry.2.Fits := by
  induction reached with
  | load => simp
  | record _ _ fits inductionHypothesis =>
      intro entry member
      rcases List.mem_append.mp member with old | new
      · exact inductionHypothesis entry old
      · exact List.mem_singleton.mp new ▸ fits
  | save _ _ inductionHypothesis => exact inductionHypothesis
  | elsewhere _ _ inductionHypothesis => exact inductionHypothesis

/-- The memory holds the sizes of the file that was opened, with all records put to them. -/
theorem sizes_eq (reached : Reached first path records state) :
    state.cache.sizes = putAll (sizesAt first path) records := by
  induction reached with
  | load => rfl
  | record _ source _ inductionHypothesis =>
      rw [putAll_concat, ← inductionHypothesis]
      rfl
  | save _ _ inductionHypothesis => exact inductionHypothesis
  | elsewhere _ _ inductionHypothesis => exact inductionHypothesis

/-- The file holds the records that do not wait any more. -/
theorem sizesAt_eq (reached : Reached first path records state) :
    ∃ saved, records = saved ++ state.queue ∧
      sizesAt state.disk path = putAll (sizesAt first path) saved := by
  induction reached with
  | load => exact ⟨[], rfl, rfl⟩
  | record _ source _ inductionHypothesis =>
      obtain ⟨saved, order, file⟩ := inductionHypothesis
      exact ⟨saved, by rw [order, List.append_assoc], file⟩
  | @save records queue cache entry disk reached can inductionHypothesis =>
      obtain ⟨saved, order, file⟩ := inductionHypothesis
      have fits : entry.2.Fits := reached.fits entry (by simp [order])
      refine ⟨saved ++ [entry], by rw [order, List.append_assoc, List.singleton_append], ?_⟩
      have stored := Cache.sizesAt_save can entry.1 fits
      rw [reached.path_eq] at stored
      rw [stored, file, putAll_concat]
  | elsewhere _ same inductionHypothesis =>
      obtain ⟨saved, order, file⟩ := inductionHypothesis
      exact ⟨saved, order, by rw [sizesAt, same, ← file, sizesAt]⟩

/-- When nothing waits, opening the file gives the cache in memory. -/
theorem load_eq (reached : Reached first path records state) (saved : state.queue = []) :
    Cache.load state.disk path = state.cache := by
  obtain ⟨all, order, file⟩ := reached.sizesAt_eq
  rw [saved, List.append_nil] at order
  rw [Cache.load, file, ← order, ← reached.sizes_eq, ← reached.path_eq]

/-- Recording a size and saving it at once. -/
theorem recordNow
    {cache : Cache}
    {disk : Disk}
    (reached : Reached first path records ⟨cache, [], disk⟩)
    (source : String)
    {size : Size}
    (fits : size.Fits)
    (can : cache.CanSave disk) :
    Reached first path (records ++ [(source, size)])
      ⟨(cache.record disk source size).1, [], (cache.record disk source size).2⟩ := by
  rw [Cache.record_eq]
  exact save (reached.record source fits) can

end Reached
end Upkeep

/-! ## What is reported -/

theorem fits_of_fetch
    {network : Network}
    {address : String}
    {size : Size}
    (answer : fetch network address = .ok size) :
    size.Fits := by
  unfold fetch at answer
  split at answer
  · cases answer
  · split at answer
    · cases answer
    · dsimp only at answer
      split at answer
      · next found =>
          cases answer
          exact allFit_sizeOfBytes? _ _ found
      · cases answer

namespace Search

variable {search : Search} {network : Network} {template : Template} {source : String} {size : Size}

/-- A size that is kept is reported as it is shown, and nothing else is done. -/
theorem find_of_get? (kept : search.sizer.cache.get? source = some size) :
    search.find network template source =
      (some (shownSize source size).1, search.warn (shownSize source size).2) := by
  unfold find findNatural
  rw [kept]

/-- A size that is fetched is reported as it is shown, and kept as it is. -/
theorem find_of_fetch
    {address : String}
    (unknown : search.sizer.cache.get? source = none)
    (remote : address? source = some address)
    (unasked : search.sizer.asked.lookup source = none)
    (answer : fetch network address = .ok size) :
    let found := search.find network template source
    let recorded := search.sizer.cache.record search.space.disk source size
    found.1 = some (shownSize source size).1 ∧
      found.2.warnings = search.warnings ++ (shownSize source size).2 ∧
      found.2.sizer.cache = recorded.1 ∧ found.2.space.disk = recorded.2 := by
  unfold find findNatural findRemote
  simp only [unknown, remote, unasked, answer, warn, and_self]

end Search

/-- The cache and its file never hold different sizes for long. When all records are saved, the
memory holds the sizes of the file that was opened, of which each record replaced one or added
one, and opening the file again gives exactly that. An image whose size is kept is reported with
that size as it is shown, from the memory and from the file that is opened again; and a size that
is fetched is reported likewise, and recorded as it was read. -/
theorem cache_and_file_agree
    (first : Disk)
    (path : String)
    (records : List (String × Size))
    (state : Upkeep)
    (reached : Upkeep.Reached first path records state)
    (saved : state.queue = []) :
    (∀ source, state.cache.get? source =
      (records.reverse.lookup source).or ((sizesAt first path).lookup source)) ∧
    state.cache.sizes = putAll (sizesAt first path) records ∧
    Cache.load state.disk path = state.cache ∧
    (∀ source size, state.cache.get? source = some size →
      ∀ (search : Search) (network : Network) (template : Template),
        search.sizer.cache = state.cache ∨ search.sizer.cache = Cache.load state.disk path →
        search.find network template source =
          (some (shownSize source size).1, search.warn (shownSize source size).2)) ∧
    (∀ (search : Search) (network : Network) (template : Template) (source address : String)
        (size : Size),
      search.sizer.cache = state.cache → search.space.disk = state.disk →
      state.cache.CanSave state.disk → state.cache.get? source = none →
      address? source = some address → search.sizer.asked.lookup source = none →
      fetch network address = .ok size →
      let found := search.find network template source
      found.1 = some (shownSize source size).1 ∧
        found.2.warnings = search.warnings ++ (shownSize source size).2 ∧
        Upkeep.Reached first path (records ++ [(source, size)])
          ⟨found.2.sizer.cache, [], found.2.space.disk⟩) := by
  have reopened := reached.load_eq saved
  refine ⟨fun source => ?_, reached.sizes_eq, reopened, ?_, ?_⟩
  · rw [Cache.get?, reached.sizes_eq, lookup_putAll (isTable_sizesAt first path) reached.fits]
  · intro source size kept search network template same
    rw [reopened, or_self] at same
    exact Search.find_of_get? (same ▸ kept)
  · intro search network template source address size cache disk can unknown remote unasked answer
    obtain ⟨shown, warnings, kept, file⟩ :=
      @Search.find_of_fetch search network template source size address (cache ▸ unknown) remote
        unasked answer
    refine ⟨shown, warnings, ?_⟩
    obtain ⟨stateCache, queue, stateDisk⟩ := state
    dsimp only at saved cache disk can
    subst saved cache disk
    rw [kept, file]
    exact reached.recordNow source (fits_of_fetch answer) can

/-- Two sources, one of them with characters that have to be escaped, and a second size for the
other one. -/
theorem cache_and_file_agree_photo :
    ∃ state : Upkeep,
      state.cache.get? "photo@2x.png" = some ⟨10, 6⟩ ∧
        state.cache.get? "quote\"\x01\\.png" = some ⟨1, 2⟩ ∧
        Cache.load state.disk ".cache/images.json" = state.cache ∧
        ∀ search : Search, search.sizer.cache = Cache.load state.disk ".cache/images.json" →
          ∀ network template, search.find network template "photo@2x.png" =
            (some ⟨5, 3⟩, search.warn []) := by
  have opened : Upkeep.Reached .empty ".cache/images.json" [] _ := .load
  have fits : Size.Fits ⟨8, 4⟩ ∧ Size.Fits ⟨1, 2⟩ ∧ Size.Fits ⟨10, 6⟩ := by decide
  have one := opened.recordNow "photo@2x.png" fits.1 (by decide)
  have two := one.recordNow "quote\"\x01\\.png" fits.2.1 (by decide)
  have three := two.recordNow "photo@2x.png" fits.2.2 (by decide)
  obtain ⟨kept, _, reopened, reported, _⟩ := cache_and_file_agree _ _ _ _ three rfl
  have photo := (kept "photo@2x.png").trans (by decide :
    _ = some (⟨10, 6⟩ : Size))
  have quote := (kept "quote\"\x01\\.png").trans (by decide :
    _ = some (⟨1, 2⟩ : Size))
  refine ⟨_, photo, quote, reopened, fun search same network template => ?_⟩
  rw [reported _ _ photo search network template (.inr same)]
  have shown : shownSize "photo@2x.png" ⟨10, 6⟩ = (⟨5, 3⟩, []) := by decide
  rw [shown]

end Image
end MailPress
