import Mathlib.Data.String.Basic
import MailPress.Image.Cache
import MailPress.Proofs.Disk.Location
import MailPress.Proofs.Image.Header
import MailPress.Proofs.Json.RoundTrip

/-!
# What the cache file keeps

A cache file holds sizes by source, sorted, and a size that was added is found in it when it is
opened again, whatever characters its source has. A file that holds anything else counts as
empty, so nothing of it is left after a size was added.
-/

namespace MailPress
namespace Image

/-- Sizes that a cache file can hold: sorted by source, each source once, with lengths of at most
32 bits. -/
structure IsTable (sizes : List (String × Size)) : Prop where
  /-- The sources come in order. -/
  sorted : sizes.Pairwise fun entry other => entry.1 < other.1
  /-- The lengths fit. -/
  fits : ∀ entry ∈ sizes, entry.2.Fits

theorem isTable_nil : IsTable [] :=
  ⟨.nil, by simp⟩

theorem mem_putSize
    {source : String}
    {size : Size}
    {sizes : List (String × Size)}
    {entry : String × Size}
    (member : entry ∈ putSize source size sizes) :
    entry = (source, size) ∨ entry ∈ sizes := by
  induction sizes with
  | nil => exact .inl (List.mem_singleton.mp member)
  | cons first sizes inductionHypothesis =>
      unfold putSize at member
      split at member
      · exact List.mem_cons.mp member
      · split at member
        · exact (List.mem_cons.mp member).imp_right (List.mem_cons_of_mem first)
        · rcases List.mem_cons.mp member with rfl | later
          · exact .inr List.mem_cons_self
          · exact (inductionHypothesis later).imp_right (List.mem_cons_of_mem first)

theorem IsTable.put
    {sizes : List (String × Size)}
    (table : IsTable sizes)
    (source : String)
    {size : Size}
    (fits : size.Fits) :
    IsTable (putSize source size sizes) := by
  refine ⟨?_, ?_⟩
  · have sorted := table.sorted
    clear table
    induction sizes with
    | nil => exact List.pairwise_singleton _ _
    | cons first sizes inductionHypothesis =>
        obtain ⟨least, others⟩ := List.pairwise_cons.mp sorted
        unfold putSize
        split
        · next before =>
            refine List.pairwise_cons.mpr ⟨fun entry member => ?_, sorted⟩
            rcases List.mem_cons.mp member with rfl | later
            · exact before
            · exact before.trans (least entry later)
        · next notBefore =>
            split
            · next same => exact List.pairwise_cons.mpr ⟨same ▸ least, others⟩
            · next different =>
                refine List.pairwise_cons.mpr ⟨fun entry member => ?_, inductionHypothesis others⟩
                rcases mem_putSize member with rfl | later
                · exact lt_of_le_of_ne (not_lt.mp notBefore) (Ne.symm different)
                · exact least entry later
  · intro entry member
    rcases mem_putSize member with rfl | old
    · exact fits
    · exact table.fits entry old

theorem lookup_putSize_of_ne
    {source other : String}
    (different : other ≠ source)
    (size : Size)
    (sizes : List (String × Size)) :
    (putSize source size sizes).lookup other = sizes.lookup other := by
  induction sizes with
  | nil => rw [putSize, List.lookup_cons, beq_false_of_ne different]
  | cons entry sizes inductionHypothesis =>
      unfold putSize
      split
      · rw [List.lookup_cons, beq_false_of_ne different]
      · split
        · next same =>
            obtain ⟨name, old⟩ := entry
            obtain rfl : source = name := same
            rw [List.lookup_cons, List.lookup_cons, beq_false_of_ne different]
        · rw [List.lookup_cons, List.lookup_cons, inductionHypothesis]

/-- A size that is put is found, and no other size is lost. -/
theorem lookup_putSize
    {sizes : List (String × Size)}
    (table : IsTable sizes)
    (source : String)
    (size : Size)
    (other : String) :
    (putSize source size sizes).lookup other =
      if other = source then some size else sizes.lookup other := by
  have sorted := table.sorted
  clear table
  induction sizes with
  | nil =>
      rw [putSize, List.lookup_cons]
      grind
  | cons first sizes inductionHypothesis =>
      obtain ⟨name, old⟩ := first
      have rest := inductionHypothesis (List.pairwise_cons.mp sorted).2
      unfold putSize
      split
      · rw [List.lookup_cons]
        grind
      · split
        · rw [List.lookup_cons, List.lookup_cons]
          grind
        · rw [List.lookup_cons, List.lookup_cons, rest]
          grind

/-- Put several sizes, one after the other. -/
def putAll (sizes records : List (String × Size)) : List (String × Size) :=
  records.foldl (fun sizes entry => putSize entry.1 entry.2 sizes) sizes

theorem putAll_concat (sizes records : List (String × Size)) (entry : String × Size) :
    putAll sizes (records ++ [entry]) = putSize entry.1 entry.2 (putAll sizes records) := by
  rw [putAll, List.foldl_append]
  rfl

/-- Of several sizes for one source the last one is found, and no other size is lost. -/
theorem lookup_putAll
    {sizes records : List (String × Size)}
    (table : IsTable sizes)
    (fits : ∀ entry ∈ records, entry.2.Fits)
    (source : String) :
    (putAll sizes records).lookup source =
      (records.reverse.lookup source).or (sizes.lookup source) := by
  induction records generalizing sizes with
  | nil => rfl
  | cons entry records inductionHypothesis =>
      have first := fits entry List.mem_cons_self
      rw [putAll, List.foldl_cons]
      refine (inductionHypothesis (table.put entry.1 first)
        fun other member => fits other (List.mem_cons_of_mem entry member)).trans ?_
      rw [lookup_putSize table, List.reverse_cons, List.lookup_append, Option.or_assoc,
        List.lookup_cons, List.lookup_nil]
      grind

theorem putSize_eq_append
    {source : String}
    {sizes : List (String × Size)}
    (before : ∀ entry ∈ sizes, entry.1 < source)
    (size : Size) :
    putSize source size sizes = sizes ++ [(source, size)] := by
  induction sizes with
  | nil => rfl
  | cons first sizes inductionHypothesis =>
      have less := before first List.mem_cons_self
      rw [putSize, if_neg less.not_gt, if_neg less.ne', inductionHypothesis fun other member =>
        before other (List.mem_cons_of_mem first member), List.cons_append]

/-- Sizes that come in order are put as they come. -/
theorem putAll_eq_append
    {sizes records : List (String × Size)}
    (sorted : (sizes ++ records).Pairwise fun entry other => entry.1 < other.1) :
    putAll sizes records = sizes ++ records := by
  induction records generalizing sizes with
  | nil => exact (List.append_nil sizes).symm
  | cons entry records inductionHypothesis =>
      have before : ∀ other ∈ sizes, other.1 < entry.1 := fun other member =>
        (List.pairwise_append.mp sorted).2.2 other member entry List.mem_cons_self
      rw [putAll, List.foldl_cons, putSize_eq_append before]
      refine (inductionHypothesis ?_).trans (by simp)
      simpa using sorted

/-! ## The text of a cache file -/

/-- The value that stands for a size in a cache file. -/
def sizeValue (size : Size) : Json :=
  .obj [("width", .int size.width), ("height", .int size.height)]

theorem readSize_sizeValue {size : Size} (fits : size.Fits) :
    readSize (sizeValue size) = some size := by
  have length {value : Nat} (small : value < 0x100000000) :
      readLength (.int value) = some value := by
    rw [readLength, if_pos (by omega), Int.toNat_natCast]
  have width : onlyMember? "width" [("width", .int size.width), ("height", .int size.height)] =
      some (.int size.width) := by simp [onlyMember?]
  have height : onlyMember? "height" [("width", .int size.width), ("height", .int size.height)] =
      some (.int size.height) := by simp [onlyMember?]
  rw [sizeValue, readSize, width, height, Option.bind_some, Option.bind_some, length fits.1,
    length fits.2]
  rfl

theorem isExact_sizeValue {size : Size} (fits : size.Fits) (depth : Nat) :
    (sizeValue size).isExact (depth + 1) = true := by
  obtain ⟨width, height⟩ := fits
  simp only [sizeValue, Json.isExact, Json.membersAreExact, Json.fits, Bool.and_eq_true,
    decide_eq_true_eq, bne_iff_ne, and_true]
  omega

theorem membersAreExact_sizes
    {sizes : List (String × Size)}
    (fits : ∀ entry ∈ sizes, entry.2.Fits)
    (depth : Nat) :
    Json.membersAreExact (depth + 1) (sizes.map fun entry => (entry.1, sizeValue entry.2)) =
      true := by
  induction sizes with
  | nil => rfl
  | cons entry sizes inductionHypothesis =>
      rw [List.map_cons, Json.membersAreExact, isExact_sizeValue (fits entry List.mem_cons_self),
        inductionHypothesis fun other member => fits other (List.mem_cons_of_mem entry member)]
      rfl

/-- Sizes that are written as values are read and put one after the other. -/
theorem foldlM_readSize
    {records : List (String × Size)}
    (fits : ∀ entry ∈ records, entry.2.Fits)
    (sizes : List (String × Size)) :
    (records.map fun entry => (entry.1, sizeValue entry.2)).foldlM
        (fun sizes member => (readSize member.2).map fun size => putSize member.1 size sizes)
        sizes =
      some (putAll sizes records) := by
  induction records generalizing sizes with
  | nil => rfl
  | cons entry records inductionHypothesis =>
      rw [List.map_cons, List.foldlM_cons, readSize_sizeValue (fits entry List.mem_cons_self)]
      exact inductionHypothesis (fun other member => fits other (List.mem_cons_of_mem entry member)) _

/-- The text of a cache file is read back. -/
theorem readSizes?_writeSizes {sizes : List (String × Size)} (table : IsTable sizes) :
    readSizes? (writeSizes sizes) = some sizes := by
  have exactly : (Json.obj (sizes.map fun entry => (entry.1, sizeValue entry.2))).isExact
      Json.depthLimit = true := by
    rw [Json.isExact, show Json.depthLimit - 1 = 125 + 1 from rfl, membersAreExact_sizes table.fits]
    rfl
  have read := Json.readAsWritten?_writeLines exactly
  have written : writeSizes sizes =
      Json.writeLines 0 (.obj (sizes.map fun entry => (entry.1, sizeValue entry.2))) := rfl
  rw [readSizes?, written, read]
  dsimp only
  rw [foldlM_readSize table.fits, putAll_eq_append (by simpa using table.sorted), List.nil_append]

theorem fits_of_readSize {value : Json} {size : Size} (read : readSize value = some size) :
    size.Fits := by
  have small {value : Json} {length : Nat} (read : readLength value = some length) :
      length < 0x100000000 := by
    unfold readLength at read
    split at read
    · split at read
      · rw [← Option.some.inj read]
        omega
      · cases read
    · cases read
  unfold readSize at read
  split at read
  · simp only [Option.bind_eq_bind, Option.bind_eq_some_iff, Option.some.injEq] at read
    obtain ⟨width, ⟨_, _, wide⟩, height, ⟨_, _, high⟩, rfl⟩ := read
    exact ⟨small wide, small high⟩
  · simp only [Option.bind_eq_bind, Option.bind_eq_some_iff, Option.some.injEq] at read
    obtain ⟨width, wide, height, high, rfl⟩ := read
    exact ⟨small wide, small high⟩
  · cases read

theorem isTable_of_foldlM
    {members : List (String × Json)}
    {first sizes : List (String × Size)}
    (table : IsTable first)
    (read : members.foldlM (fun sizes member =>
      (readSize member.2).map fun size => putSize member.1 size sizes) first = some sizes) :
    IsTable sizes := by
  induction members generalizing first with
  | nil => exact Option.some.inj read ▸ table
  | cons member members inductionHypothesis =>
      rw [List.foldlM_cons, Option.bind_eq_bind, Option.bind_eq_some_iff] at read
      obtain ⟨next, here, later⟩ := read
      obtain ⟨size, found, rfl⟩ := Option.map_eq_some_iff.mp here
      exact inductionHypothesis (table.put member.1 (fits_of_readSize found)) later

/-- What is read from a cache file can be written to one. -/
theorem isTable_of_readSizes?
    {text : String}
    {sizes : List (String × Size)}
    (read : readSizes? text = some sizes) :
    IsTable sizes := by
  unfold readSizes? at read
  split at read
  · exact isTable_of_foldlM isTable_nil read
  · cases read

theorem isTable_sizesAt (disk : Disk) (path : String) : IsTable (sizesAt disk path) := by
  unfold sizesAt
  cases found : (disk.readText? path).bind readSizes? with
  | none => exact isTable_nil
  | some sizes =>
      obtain ⟨text, _, read⟩ := Option.bind_eq_some_iff.mp found
      exact isTable_of_readSizes? read

/-! ## Saving -/

theorem fromUTF8?_toUTF8 (text : String) : String.fromUTF8? text.toUTF8 = some text := by
  have valid : text.toUTF8.IsValidUTF8 := text.isValidUTF8
  rw [String.fromUTF8?, dif_pos valid]
  rfl

namespace Cache

variable {cache : Cache} {disk : Disk}

/-- The disk with the directories of the cache file, if they can be made. -/
def ready (cache : Cache) (disk : Disk) : Disk :=
  ((Path.parent? cache.path).bind disk.makeDirectory?).getD disk

/-- Whether the cache file can be written: its path leads somewhere, its directory is there, and
no directory has its place. -/
def CanSave (cache : Cache) (disk : Disk) : Prop :=
  (cache.ready disk).resolve? cache.path = some ((cache.ready disk).locate cache.path) ∧
    (cache.ready disk).hasDirectory ((cache.ready disk).locate cache.path) = false ∧
    (cache.ready disk).hasDirectory ((cache.ready disk).locate cache.path).dropLast = true

instance (cache : Cache) (disk : Disk) : Decidable (cache.CanSave disk) :=
  inferInstanceAs (Decidable (_ ∧ _ ∧ _))

theorem save_eq (can : cache.CanSave disk) (source : String) (size : Size) :
    cache.save disk source size =
      (cache.ready disk).withContent ((cache.ready disk).locate cache.path)
        (writeSizes (putSize source size (sizesAt disk cache.path))).toUTF8 := by
  obtain ⟨leads, free, inside⟩ := can
  have written (content : ByteArray) := (@Disk.write?_eq_some_iff (cache.ready disk) _ cache.path
    content).mpr ⟨leads, free, inside, rfl⟩
  unfold save
  dsimp only
  rw [← ready, written, Option.getD_some]

/-- A size that was saved is found when the file is read again, and no other size is lost. -/
theorem sizesAt_save
    (can : cache.CanSave disk)
    (source : String)
    {size : Size}
    (fits : size.Fits) :
    sizesAt (cache.save disk source size) cache.path =
      putSize source size (sizesAt disk cache.path) := by
  have table := (isTable_sizesAt disk cache.path).put source fits
  rw [save_eq can, sizesAt, Disk.readText?, Disk.read?_withContent can.1, Option.bind_some,
    fromUTF8?_toUTF8, Option.bind_some, readSizes?_writeSizes table, Option.getD_some]

end Cache
end Image
end MailPress
