import MailPress.Proofs.Image.Upkeep
import MailPress.Proofs.Project.WellPlaced

/-!
# What builds do to each other

Builds share a session. What one of them does to it is a sequence of deeds: something is said, a
compiled reset is remembered, a file is written, a server is asked.

However many deeds were done, the session is faithful to the one at the beginning. What is
remembered of a reset is what the reset compiles to, what the writer remembers of a file is what
the file holds, and the cache in memory goes beyond the cache file only by what servers answered.
-/

namespace MailPress
namespace Session

open Image

variable {first session after : Session} {templates : List Template} {places : List String}
  {network other : Network} {template : Template} {source : String}

/-! ## Deeds -/

/-- One thing that a build does to the session it shares with others: `places` are those that it
may write, and `network` answers what it asks. -/
inductive Deed (first : Session) (places : List String) (network : Network) (session : Session) :
    Session → Prop
  /-- Something is said. -/
  | say (messages : List Console.Message) :
      Deed first places network session (session.say messages)
  /-- The compilations of shared resets are counted. -/
  | count (compilations : Nat) :
      Deed first places network session
        { session with shared := { session.shared with compilations := compilations } }
  /-- A shared reset is remembered. -/
  | keep (reset : Style.Reset) (css : String)
      (compiled : (first.workshop.compileShared first.engines.scss first.settings reset).1 =
        .ok ⟨css, false, Style.cssFileName (reset.fileName first.settings.sheets)⟩) :
      Deed first places network session { session with shared := session.shared.keep reset css }
  /-- A file is written, or found to hold what it should. -/
  | write (place : String) (content : ByteArray) (member : place ∈ places) :
      Deed first places network session
        { session with space := (session.space.write place content).2 }
  /-- Which images were copied is remembered. -/
  | copied (names : List (List String)) :
      Deed first places network session
        { session with sizer := { session.sizer with copied := names } }
  /-- A server is asked for an image, unless that was done before. -/
  | ask (source address : String) (warnings : List String)
      (enabled : first.settings.images.enable = true)
      (unknown : session.sizer.cache.get? source = none)
      (remote : address? source = some address) :
      Deed first places network session
        (session.withSearch (Search.findRemote ⟨session.sizer, session.space, warnings⟩ network
          source address).2)

/-- Any number of deeds. -/
def Deeds (first : Session) (places : List String) (network : Network) :
    Session → Session → Prop :=
  Relation.ReflTransGen (Deed first places network)

theorem Deeds.refl (session : Session) : Deeds first places network session session :=
  Relation.ReflTransGen.refl

theorem Deed.alone (deed : Deed first places network session after) :
    Deeds first places network session after :=
  .single deed

/-- Asking a server, in terms of what it answers. -/
theorem ask_cases
    (session : Session)
    (network : Network)
    (source address : String)
    (warnings : List String) :
    let asked := session.withSearch (Search.findRemote ⟨session.sizer, session.space, warnings⟩
      network source address).2
    (session.sizer.asked.lookup source ≠ none ∧ asked = session) ∨
      session.sizer.asked.lookup source = none ∧
        ((∃ fault, fetch network address = .error fault ∧
            asked = { session with
              sizer := { session.sizer with
                asked := (source, .error fault) :: session.sizer.asked } }) ∨
          ∃ size, fetch network address = .ok size ∧
            asked = { session with
              sizer := { session.sizer with
                asked := (source, .ok size) :: session.sizer.asked
                cache := { session.sizer.cache with
                  sizes := putSize source size session.sizer.cache.sizes } }
              space := { session.space with
                disk := session.sizer.cache.save session.space.disk source size } }) := by
  dsimp only
  unfold Search.findRemote
  cases known : session.sizer.asked.lookup source with
  | some answer => exact .inl ⟨Option.some_ne_none answer, rfl⟩
  | none =>
      refine .inr ⟨rfl, ?_⟩
      cases answer : fetch network address with
      | error fault => exact .inl ⟨fault, rfl, rfl⟩
      | ok size => exact .inr ⟨size, rfl, rfl⟩

/-! ## Faith -/

/-- What is known about images agrees with the cache file. -/
structure KnowsFile (first session : Session) : Prop where
  /-- The cache file is the one of the settings. -/
  path : session.sizer.cache.path = first.settings.imageCache
  /-- The sizes in memory are sorted. -/
  table : IsTable session.sizer.cache.sizes
  /-- A size in the file is known. -/
  filed : ∀ source size,
    (sizesAt session.space.disk first.settings.imageCache).lookup source = some size →
      session.sizer.cache.get? source = some size
  /-- A known size is in the file, or a server answered it. -/
  known : ∀ source size, session.sizer.cache.get? source = some size →
    (sizesAt session.space.disk first.settings.imageCache).lookup source = some size ∨
      session.sizer.asked.lookup source = some (.ok size)
  /-- Servers are asked for remote images only. -/
  asked : ∀ source answer, session.sizer.asked.lookup source = some answer →
    (address? source).isSome

/-- A session that agrees with the first one on everything that a build depends on. -/
structure Faithful (first : Session) (templates : List Template) (session : Session) : Prop where
  /-- The engines are the same. -/
  engines : session.engines = first.engines
  /-- The settings are the same. -/
  settings : session.settings = first.settings
  /-- The renderer is the same. -/
  renderer : session.renderer = first.renderer
  /-- The output directory is the same. -/
  root : session.space.writer.root = first.settings.places.output
  /-- Whether images are copied is as the settings say. -/
  copyLocal : session.sizer.copyLocal = first.settings.images.copyLocal
  /-- Only paths that builds write were written. -/
  disk : first.space.disk.Evolves (first.written templates) session.space.disk
  /-- A shared reset that is remembered is what the reset compiles to. -/
  shared : ∀ reset css, session.shared.get? reset = some css →
    (first.workshop.compileShared first.engines.scss first.settings reset).1 =
      .ok ⟨css, false, Style.cssFileName (reset.fileName first.settings.sheets)⟩
  /-- What is remembered of the files of a template is what they hold. -/
  honest : ∀ template ∈ templates, ∀ suffix ∈ Template.suffixes, ∀ content,
    session.space.writer.remembered? (first.outputPath (template.artifact suffix)) =
        some content →
      session.space.disk.read? (first.outputPath (template.artifact suffix)) = some content
  /-- What is known about images agrees with the cache file. -/
  sizer : first.settings.images.enable = true → first.KnowsFile session

/-- A session that begins with the engines, the settings and the renderer of another one, on a disk
where the other one was at work, is faithful to it. -/
theorem IsNew.faithful
    (isNew : session.IsNew)
    (engines : session.engines = first.engines)
    (settings : session.settings = first.settings)
    (renderer : session.renderer = first.renderer)
    (disk : first.space.disk.Evolves (first.written templates) session.space.disk) :
    Faithful first templates session where
  engines := engines
  settings := settings
  renderer := renderer
  root := by rw [isNew.writer, settings]; rfl
  copyLocal := by rw [isNew.sizer, settings]; rfl
  disk := disk
  shared reset css known := by
    rw [isNew.shared] at known
    cases reset <;> cases known
  honest template _ suffix _ content known := by
    rw [isNew.writer] at known
    cases known
  sizer _ := by
    have path : session.sizer.cache.path = first.settings.imageCache := by
      rw [isNew.sizer, settings]
      rfl
    have sizes : session.sizer.cache.sizes =
        sizesAt session.space.disk first.settings.imageCache := by
      rw [isNew.sizer, settings]
      rfl
    refine ⟨path, sizes ▸ isTable_sizesAt _ _, fun source size filed => ?_,
      fun source size known => .inl ?_, fun source answer asked => ?_⟩
    · rw [Cache.get?, sizes, filed]
    · rw [← known, Cache.get?, sizes]
    · rw [isNew.sizer] at asked
      cases asked

/-! ### A deed keeps the faith -/

namespace KnowsFile

/-- The cache file is as it was when other paths are written. -/
theorem write
    (knows : first.KnowsFile session)
    {space : Workspace}
    (grows : session.space.disk.Grows space.disk)
    (leads : session.space.disk.resolve? first.settings.imageCache =
      some (session.space.disk.locate first.settings.imageCache))
    (same : space.disk.content? (session.space.disk.locate first.settings.imageCache) =
      session.space.disk.content? (session.space.disk.locate first.settings.imageCache)) :
    first.KnowsFile { session with space := space } := by
  have sizes := Cache.sizesAt_eq leads grows same
  refine ⟨knows.path, knows.table, fun source size filed => ?_, fun source size known => ?_,
    knows.asked⟩
  · rw [sizes] at filed
    exact knows.filed source size filed
  · rw [sizes]
    exact knows.known source size known

/-- An answer of a server is remembered, and a size is kept in the cache and its file. -/
theorem ask
    {address : String}
    (knows : first.KnowsFile session)
    (leads : session.space.disk.resolve? first.settings.imageCache =
      some (session.space.disk.locate first.settings.imageCache))
    (unknown : session.sizer.cache.get? source = none)
    (remote : address? source = some address)
    (warnings : List String) :
    first.KnowsFile (session.withSearch
      (Search.findRemote ⟨session.sizer, session.space, warnings⟩ network source address).2) := by
  have asked (answer : Except Fault Size) (other : String) (found : Except Fault Size)
      (known : ((source, answer) :: session.sizer.asked).lookup other = some found) :
      (address? other).isSome := by
    rw [List.lookup_cons] at known
    split at known
    · next same => rw [beq_iff_eq.mp same, remote, Option.isSome_some]
    · exact knows.asked other found known
  have later (answer : Except Fault Size) (other : String) (found : Except Fault Size)
      (unasked : session.sizer.asked.lookup source = none)
      (known : session.sizer.asked.lookup other = some found) :
      ((source, answer) :: session.sizer.asked).lookup other = some found := by
    rw [List.lookup_cons]
    split
    · next same =>
        rw [beq_iff_eq.mp same, unasked] at known
        cases known
    · exact known
  obtain ⟨_, eq⟩ | ⟨unasked, ⟨fault, _, eq⟩ | ⟨size, answer, eq⟩⟩ :=
    ask_cases session network source address warnings <;> rw [eq]
  · exact knows
  · exact ⟨knows.path, knows.table, knows.filed, fun other size known =>
      (knows.known other size known).imp_right (later _ other _ unasked), asked _⟩
  · have fits := fits_of_fetch answer
    have lookup := lookup_putSize knows.table source size
    have file := @Cache.sizesAt_save_cases session.sizer.cache _ _ (knows.path.symm ▸ leads)
      source fits
    rw [knows.path] at file
    have fileLookup := lookup_putSize
      (isTable_sizesAt session.space.disk first.settings.imageCache) source size
    refine ⟨knows.path, knows.table.put source fits, fun other found filed => ?_,
      fun other found known => ?_, asked _⟩
    · refine (lookup other).trans ?_
      by_cases same : other = source
      · rw [if_pos same]
        rcases file with put | kept
        · exact (by simpa [put, fileLookup, same] using filed)
        · have old := knows.filed other found (kept ▸ filed)
          rw [same, unknown] at old
          cases old
      · rw [if_neg same]
        refine knows.filed other found ?_
        rcases file with put | kept
        · simpa [put, fileLookup, same] using filed
        · exact kept ▸ filed
    · have known := (lookup other).symm.trans known
      by_cases same : other = source
      · rw [if_pos same] at known
        exact .inr (by simp [same, Option.some.inj known])
      · rw [if_neg same] at known
        refine (knows.known other found known).imp (fun filed => ?_) (later _ other _ unasked)
        rcases file with put | kept
        · simpa [put, fileLookup, same] using filed
        · exact kept ▸ filed

end KnowsFile

namespace Faithful

theorem grows (faithful : Faithful first templates session) :
    first.space.disk.Grows session.space.disk :=
  faithful.disk.toGrows

theorem cache_leads
    (faithful : Faithful first templates session)
    (placed : first.WellPlaced templates)
    (enabled : first.settings.images.enable = true) :
    session.space.disk.resolve? first.settings.imageCache =
      some (session.space.disk.locate first.settings.imageCache) := by
  rw [faithful.grows.locate]
  exact faithful.grows.resolve? (placed.cache enabled).1

/-- Writing a place keeps the faith. -/
theorem write
    (faithful : Faithful first templates session)
    (placed : first.WellPlaced templates)
    (listed : template ∈ templates)
    {place : String}
    (member : place ∈ first.places template)
    (content : ByteArray) :
    Faithful first templates
      { session with space := (session.space.write place content).2 } := by
  have path : Path.join session.space.writer.root place = first.outputPath place := by
    rw [faithful.root, outputPath]
  have writes := path ▸ session.space.writes_write place content
  have output := WellPlaced.outputPath_mem listed member
  refine
    { engines := faithful.engines
      settings := faithful.settings
      renderer := faithful.renderer
      root := (session.space.root_write place content).trans faithful.root
      copyLocal := faithful.copyLocal
      disk := faithful.disk.write (WellPlaced.outputs_subset_written _ _ output) writes
      shared := faithful.shared
      honest := fun other otherListed suffix suffixMember old remembered => ?_
      sizer := fun enabled => ?_ }
  · rcases placed.eq_or_isAside otherListed listed member suffixMember with rfl | aside
    · have honest := faithful.honest other otherListed suffix suffixMember
      rw [← path] at honest remembered ⊢
      cases outcome : (session.space.write (other.artifact suffix) content).1 with
      | error error =>
          obtain ⟨writer, made, disk⟩ := Workspace.write_of_error outcome
          dsimp only at remembered ⊢
          rw [writer] at remembered
          rw [disk]
          exact Disk.read?_withDirectories (honest old remembered) made
      | ok outcome' =>
          have new := Workspace.remembered?_write outcome
          obtain rfl : old = content := Option.some.inj (remembered.symm.trans new)
          exact Workspace.read?_write honest outcome
    · rw [Workspace.remembered?_write_of_ne (path ▸ aside.1.symm)] at remembered
      exact writes.read? (aside.2 _) (faithful.honest other otherListed suffix suffixMember old
        remembered)
  · refine (faithful.sizer enabled).write writes.grows (faithful.cache_leads placed enabled)
      (writes.content? ?_)
    rw [faithful.grows.locate, faithful.grows.locate]
    exact (placed.cache enabled).2 _ output

/-- Asking a server keeps the faith. -/
theorem ask
    {address : String}
    (faithful : Faithful first templates session)
    (placed : first.WellPlaced templates)
    (enabled : first.settings.images.enable = true)
    (unknown : session.sizer.cache.get? source = none)
    (remote : address? source = some address)
    (warnings : List String) :
    Faithful first templates (session.withSearch
      (Search.findRemote ⟨session.sizer, session.space, warnings⟩ network source address).2) := by
  have knows : first.KnowsFile (session.withSearch
      (Search.findRemote ⟨session.sizer, session.space, warnings⟩ network source address).2) :=
    (faithful.sizer enabled).ask (faithful.cache_leads placed enabled) unknown remote warnings
  obtain ⟨_, eq⟩ | ⟨_, ⟨fault, _, eq⟩ | ⟨size, _, eq⟩⟩ :=
    ask_cases session network source address warnings <;> rw [eq] at knows ⊢
  · exact faithful
  · exact { faithful with sizer := fun _ => knows }
  · have writes := session.sizer.cache.writes_save session.space.disk source size
    rw [(faithful.sizer enabled).path] at writes
    refine { faithful with disk := ?_, honest := ?_, sizer := fun _ => knows }
    · exact faithful.disk.write (WellPlaced.imageCache_mem_written enabled) writes
    · intro template listed suffix member content remembered
      refine writes.read? ?_ (faithful.honest template listed suffix member content remembered)
      rw [faithful.grows.locate, faithful.grows.locate]
      exact ((placed.cache enabled).2 _ (WellPlaced.outputPath_mem listed
        (List.mem_append_left _ (List.mem_map_of_mem member)))).symm

theorem say (faithful : Faithful first templates session) (messages : List Console.Message) :
    Faithful first templates (session.say messages) :=
  { faithful with sizer := fun enabled => { faithful.sizer enabled with } }

/-- Every deed keeps the faith. -/
theorem deed
    (faithful : Faithful first templates session)
    (placed : first.WellPlaced templates)
    (listed : template ∈ templates)
    (within : places ⊆ first.places template)
    (deed : Deed first places network session after) :
    Faithful first templates after := by
  cases deed with
  | say messages => exact faithful.say messages
  | count compilations =>
      refine { faithful with
        shared := fun reset css known => faithful.shared reset css ?_
        sizer := fun enabled => { faithful.sizer enabled with } }
      cases reset <;> exact known
  | keep reset css compiled =>
      refine { faithful with
        shared := fun other found known => ?_
        sizer := fun enabled => { faithful.sizer enabled with } }
      have kept (same : other ≠ reset) : session.shared.get? other = some found := by
        cases reset <;> cases other <;> first | exact known | exact absurd rfl same
      by_cases same : other = reset
      · subst same
        obtain rfl : css = found := by cases other <;> exact Option.some.inj known
        exact compiled
      · exact faithful.shared other found (kept same)
  | write place content member => exact faithful.write placed listed (within member) content
  | copied names =>
      exact { faithful with sizer := fun enabled => { faithful.sizer enabled with } }
  | ask source address warnings enabled unknown remote =>
      exact faithful.ask placed enabled unknown remote warnings

theorem deeds
    (faithful : Faithful first templates session)
    (placed : first.WellPlaced templates)
    (listed : template ∈ templates)
    (within : places ⊆ first.places template)
    (deeds : Deeds first places network session after) :
    Faithful first templates after := by
  induction deeds with
  | refl => exact faithful
  | tail _ deed inductionHypothesis => exact inductionHypothesis.deed placed listed within deed

end Faithful

/-! ## What servers answer -/

/-- What is found out about the size of an image when it is searched for. -/
def answer
    (session : Session)
    (network : Network)
    (template : Template)
    (source : String) :
    Except Fault Size :=
  match session.sizer.cache.get? source with
  | some size => .ok size
  | none =>
      match address? source with
      | some address => (session.sizer.asked.lookup source).getD (fetch network address)
      | none => Image.measure session.space.disk source (template.imagePath source)

theorem Faithful.measure_eq
    (faithful : Faithful first templates session)
    (placed : first.WellPlaced templates)
    (listed : template ∈ templates)
    (member : source ∈ first.sources template)
    (isLocal : address? source = none) :
    Image.measure session.space.disk source (template.imagePath source) =
      Image.measure first.space.disk source (template.imagePath source) := by
  have apart := placed.inputs template listed (template.imagePath source)
    (List.mem_append_right _ (List.mem_map_of_mem (List.mem_filter.mpr ⟨member, by simp [isLocal]⟩)))
  unfold Image.measure
  rw [faithful.disk.isFile apart, faithful.disk.read? apart]

/-- After a deed the same is known about an image, or its server was asked for the first time. -/
theorem known_deed
    (deed : Deed first places network session after)
    (knows : first.settings.images.enable = true → first.KnowsFile session)
    (source : String) :
    (after.sizer.cache.get? source = session.sizer.cache.get? source ∧
        after.sizer.asked.lookup source = session.sizer.asked.lookup source) ∨
      ∃ address, address? source = some address ∧ session.sizer.cache.get? source = none ∧
        session.sizer.asked.lookup source = none ∧
        after.sizer.cache.get? source = (fetch network address).toOption ∧
        after.sizer.asked.lookup source = some (fetch network address) := by
  cases deed with
  | say messages => exact .inl ⟨rfl, rfl⟩
  | count compilations => exact .inl ⟨rfl, rfl⟩
  | keep reset css compiled => exact .inl ⟨rfl, rfl⟩
  | write place content member => exact .inl ⟨rfl, rfl⟩
  | copied names => exact .inl ⟨rfl, rfl⟩
  | ask asked address warnings enabled unknown remote =>
      have table := (knows enabled).table
      obtain ⟨_, eq⟩ | ⟨unasked, ⟨fault, answer, eq⟩ | ⟨size, answer, eq⟩⟩ :=
        ask_cases session network asked address warnings
      · rw [eq]
        exact .inl ⟨rfl, rfl⟩
      · rw [eq]
        by_cases same : source = asked
        · refine .inr ⟨address, same ▸ remote, same ▸ unknown, same ▸ unasked, ?_, ?_⟩
          · rw [answer, same]
            exact unknown
          · simp [same, answer]
        · exact .inl ⟨rfl, by simp [List.lookup_cons, beq_false_of_ne same]⟩
      · rw [eq]
        have lookup := lookup_putSize table asked size source
        by_cases same : source = asked
        · refine .inr ⟨address, same ▸ remote, same ▸ unknown, same ▸ unasked, ?_, ?_⟩
          · rw [if_pos same] at lookup
            rw [answer]
            exact lookup
          · simp [same, answer]
        · rw [if_neg same] at lookup
          exact .inl ⟨lookup, by simp [List.lookup_cons, beq_false_of_ne same]⟩

/-- After a deed the answer about an image is as it was, or as the network of the deed gave it. -/
theorem answer_deed
    (faithful : Faithful first templates session)
    (later : Faithful first templates after)
    (placed : first.WellPlaced templates)
    (listed : template ∈ templates)
    (member : source ∈ first.sources template)
    (deed : Deed first places network session after)
    (other : Network) :
    after.answer other template source = session.answer other template source ∨
      after.answer other template source = session.answer network template source := by
  unfold answer
  obtain ⟨sizes, asked⟩ | ⟨address, remote, unknown, unasked, sizes, asked⟩ :=
    known_deed deed faithful.sizer source
  · rw [sizes, asked]
    cases isLocal : address? source with
    | some address => exact .inl rfl
    | none =>
        rw [later.measure_eq placed listed member isLocal,
          faithful.measure_eq placed listed member isLocal]
        exact .inl rfl
  · rw [sizes, asked, unknown, unasked, remote]
    refine .inr ?_
    dsimp only [Option.getD_none, Option.getD_some]
    cases fetch network address <;> rfl

/-- An answer is settled when it is the same in whatever network. -/
def IsSettled
    (session : Session)
    (template : Template)
    (source : String)
    (answer : Except Fault Size) :
    Prop :=
  ∀ network, session.answer network template source = answer

variable {given : Except Fault Size}

theorem IsSettled.deed
    (settled : session.IsSettled template source given)
    (faithful : Faithful first templates session)
    (later : Faithful first templates after)
    (placed : first.WellPlaced templates)
    (listed : template ∈ templates)
    (member : source ∈ first.sources template)
    (deed : Deed first places network session after) :
    after.IsSettled template source given := fun other =>
  (answer_deed faithful later placed listed member deed other).elim
    (fun same => same.trans (settled other)) fun same => same.trans (settled network)

end Session
end MailPress
