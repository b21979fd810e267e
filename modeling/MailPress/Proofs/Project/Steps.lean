import MailPress.Proofs.Project.Deed

/-!
# The steps of a build in a shared session

In a session that is faithful to the first one, a step of a build gives what it gives in the first
session, and it changes the session by deeds alone: rendering a message, compiling a style sheet,
finding the size of an image.
-/

namespace MailPress
namespace Session

open Image

variable {first session : Session} {templates : List Template} {places : List String}
  {network : Network} {template : Template}

/-! ## Reading -/

namespace Faithful

variable {paths : List String}

theorem find?_isFile
    (faithful : Faithful first templates session)
    (apart : ∀ path ∈ paths, first.space.disk.IsApart (first.written templates) path) :
    paths.find? session.space.disk.isFile = paths.find? first.space.disk.isFile := by
  induction paths with
  | nil => rfl
  | cons path paths inductionHypothesis =>
      rw [List.find?_cons, List.find?_cons, faithful.disk.isFile (apart path List.mem_cons_self),
        inductionHypothesis fun other member => apart other (List.mem_cons_of_mem path member)]

theorem isPresent
    {path : String}
    (faithful : Faithful first templates session)
    (apart : first.space.disk.IsApart (first.written templates) path) :
    Style.isPresent session.space.disk path = Style.isPresent first.space.disk path := by
  rw [Style.isPresent, Style.isPresent, faithful.disk.isFile apart,
    faithful.disk.isDirectory apart]

end Faithful

namespace WellPlaced

variable (placed : first.WellPlaced templates) (listed : template ∈ templates)
include placed listed

theorem content_apart :
    ∀ path ∈ contentNames.map (Path.join template.directory),
      first.space.disk.IsApart (first.written templates) path := fun path member =>
  placed.inputs template listed path (by simp only [Session.inputs, List.mem_append, member, true_or])

theorem source_apart (variant : Variant) :
    ∀ path ∈ first.settings.rendering.endings.map (template.sourcePath variant),
      first.space.disk.IsApart (first.written templates) path := fun path member => by
  refine placed.inputs template listed path ?_
  have found : path ∈ [Variant.html, .text].flatMap fun variant =>
      first.settings.rendering.endings.map (template.sourcePath variant) :=
    List.mem_flatMap.mpr ⟨variant, by cases variant <;> simp, member⟩
  simp only [Session.inputs, List.mem_append, found, or_true, true_or]

theorem own_apart
    {name : String}
    (member : name ∈ [first.settings.sheets.main, first.settings.sheets.resetHead,
      first.settings.sheets.resetInline]) :
    first.space.disk.IsApart (first.written templates) (Path.join template.directory name) := by
  refine placed.inputs template listed _ ?_
  have found := List.mem_map_of_mem (f := Path.join template.directory) member
  simp only [Session.inputs, List.mem_append, found, or_true, true_or]

theorem sheet_apart {sheet : Sheet} (member : sheet ∈ first.sheets template) :
    first.space.disk.IsApart (first.written templates) sheet.path := by
  refine placed.inputs template listed _ ?_
  have found := List.mem_map_of_mem (f := Sheet.path) member
  simp only [Session.inputs, List.mem_append, found, or_true, true_or]

end WellPlaced

namespace Faithful

variable (faithful : Faithful first templates session) (placed : first.WellPlaced templates)
include faithful placed

/-- A template renders to the same message. -/
theorem message_eq (listed : template ∈ templates) :
    session.message template = first.message template := by
  have content : Render.loadContent session.space.disk template =
      Render.loadContent first.space.disk template := by
    have same := faithful.find?_isFile (placed.content_apart listed)
    unfold Render.loadContent Template.content?
    rw [same]
    split
    · rfl
    · next path found =>
        rw [faithful.disk.readText? (placed.content_apart listed path
          (List.mem_of_find?_eq_some found))]
  have source (variant : Variant) :
      template.source? session.space.disk first.settings.rendering.endings variant =
        template.source? first.space.disk first.settings.rendering.endings variant :=
    faithful.find?_isFile (placed.source_apart listed variant)
  have render {variant : Variant} {path : String}
      (found : template.source? first.space.disk first.settings.rendering.endings variant =
        some path) (content : Json) :
      Render.renderSource first.renderer session.space.disk template path content =
        Render.renderSource first.renderer first.space.disk template path content := by
    unfold Render.renderSource
    rw [faithful.disk.readText? (placed.source_apart listed variant path
      (List.mem_of_find?_eq_some found))]
  rw [message, message, Render.renderMessage, Render.renderMessage, content, faithful.engines,
    faithful.renderer, faithful.settings]
  congr 1
  funext content
  unfold Render.renderContent
  dsimp only
  rw [source .html, source .text]
  cases html : template.source? first.space.disk first.settings.rendering.endings .html with
  | none => rfl
  | some path =>
      dsimp only
      rw [render html]
      cases text : template.source? first.space.disk first.settings.rendering.endings .text with
      | none => rfl
      | some path =>
          dsimp only
          rw [render text]

/-- The same partials are loaded. -/
theorem load_eq :
    Render.Partials.load session.space.disk first.settings.rendering.components
        first.settings.rendering.endings =
      Render.Partials.load first.space.disk first.settings.rendering.components
        first.settings.rendering.endings := by
  have each : ∀ root ∈ first.settings.rendering.components, ∀ partials,
      Render.registerRoot session.space.disk first.settings.rendering.endings partials root =
        Render.registerRoot first.space.disk first.settings.rendering.endings partials root := by
    intro root member partials
    obtain ⟨apart, away⟩ := placed.partials root member
    unfold Render.registerRoot
    rw [faithful.disk.resolve? apart]
    cases leads : first.space.disk.resolve? root with
    | none => rfl
    | some location =>
        have same := faithful.disk.hasDirectory (Disk.Evolves.locate_not_mem apart leads)
        obtain rfl := Disk.eq_locate leads
        have files := faithful.disk.filesBelow away
        rw [Option.filter_some, Option.filter_some, same]
        split
        · rfl
        · next location found =>
            split at found
            · rw [← Option.some.inj found, files]
            · cases found
  have all : ∀ roots ⊆ first.settings.rendering.components, ∀ partials,
      roots.foldlM (Render.registerRoot session.space.disk first.settings.rendering.endings)
          partials =
        roots.foldlM (Render.registerRoot first.space.disk first.settings.rendering.endings)
          partials := by
    intro roots within
    induction roots with
    | nil => exact fun _ => rfl
    | cons root roots inductionHypothesis =>
        obtain ⟨member, rest⟩ := List.cons_subset.mp within
        intro partials
        rw [List.foldlM_cons, List.foldlM_cons, each root member]
        congr 1
        funext partials
        exact inductionHypothesis rest partials
  exact all _ (List.Subset.refl _) _

end Faithful

/-! ## Compiling -/

@[simp] theorem withWorkshop_say
    (session : Session)
    (shop : Style.Workshop)
    (source text : String) :
    session.withWorkshop (shop.say source text) =
      (session.withWorkshop shop).say [⟨source, text⟩] := by
  simp [withWorkshop, say, Style.Workshop.say]

/-- Writing a compiled style sheet out is a deed. -/
theorem deeds_emit
    (session : Session)
    (shop : Style.Workshop)
    {sheets : Settings.Sheets}
    {place : String}
    (member : sheets.writeCss = true → place ∈ places)
    (css : String) :
    Deeds first places network (session.withWorkshop shop)
      (session.withWorkshop (shop.emit sheets place css)) := by
  unfold Style.Workshop.emit
  cases wanted : sheets.writeCss with
  | false => exact .refl _
  | true =>
      have deed : Deed first places network (session.withWorkshop shop)
          (session.withWorkshop { shop with
            space := (shop.space.write place css.toUTF8).2 }) :=
        .write place css.toUTF8 (member wanted)
      rw [if_neg (by simp)]
      dsimp only
      generalize shop.space.write place css.toUTF8 = done at deed
      obtain ⟨error | outcome, space⟩ := done
      · refine deed.alone.tail ?_
        rw [withWorkshop_say]
        exact .say _
      · cases outcome with
        | unchanged => exact deed.alone
        | written =>
            refine deed.alone.tail ?_
            rw [withWorkshop_say]
            exact .say _

/-- Beginning to compile a shared reset is two deeds. -/
theorem deeds_begun (session : Session) (shop : Style.Workshop) (name : String) :
    Deeds first places network (session.withWorkshop shop)
      (session.withWorkshop (shop.begun name)) := by
  rw [Style.Workshop.begun, withWorkshop_say]
  exact (Deed.alone (.count _)).tail (.say _)

/-- Remembering a shared reset is a deed. -/
theorem deed_keep
    (session : Session)
    (shop : Style.Workshop)
    {reset : Style.Reset}
    {css : String}
    (compiled : (first.workshop.compileShared first.engines.scss first.settings reset).1 =
      .ok ⟨css, false, Style.cssFileName (reset.fileName first.settings.sheets)⟩) :
    Deed first places network (session.withWorkshop shop)
      (session.withWorkshop (shop.keep reset css)) :=
  .keep reset css compiled

variable (network) (faithful : Faithful first templates session)
  (placed : first.WellPlaced templates) (listed : template ∈ templates)
include faithful placed listed

/-- A style sheet of a template compiles as in the first session. -/
theorem compileOwn_step
    {name : String}
    (own : first.settings.ownSheet template name ∈ first.sheets template) :
    let done := session.workshop.compileOwn first.engines.scss first.settings template name
    done.1 = (first.workshop.compileOwn first.engines.scss first.settings template name).1 ∧
      Deeds first (first.asides template) network session (session.withWorkshop done.2) := by
  have same := placed.sheets template listed _ own _ faithful.disk
  have member (wanted : first.settings.sheets.writeCss = true) :
      (first.settings.ownSheet template name).place ∈ first.asides template := by
    unfold asides
    rw [if_pos wanted]
    exact List.mem_append_left _ (List.mem_map_of_mem own)
  unfold Style.Workshop.compileOwn
  dsimp only [Settings.ownSheet, workshop] at same member ⊢
  rw [same]
  cases Scss.compileFile? first.engines.scss first.space.disk
      [template.directory, first.settings.places.common] (Path.join template.directory name) with
  | none => exact ⟨rfl, by rw [← workshop, withWorkshop_workshop]; exact .refl _⟩
  | some css =>
      refine ⟨rfl, ?_⟩
      have deeds : Deeds first (first.asides template) network _ _ :=
        deeds_emit session session.workshop member css
      rw [withWorkshop_workshop] at deeds
      exact deeds

/-- A shared reset compiles as in the first session, whoever compiled it before. -/
theorem compileShared_step
    (isNew : first.IsNew)
    {reset : Style.Reset}
    (shared : first.settings.sharedSheet reset ∈ first.sheets template) :
    let done := session.workshop.compileShared first.engines.scss first.settings reset
    done.1 = (first.workshop.compileShared first.engines.scss first.settings reset).1 ∧
      Deeds first (first.asides template) network session (session.withWorkshop done.2) := by
  have begins : Deeds first (first.asides template) network session
      (session.withWorkshop session.workshop) := by
    rw [withWorkshop_workshop]
    exact .refl _
  cases known : session.workshop.shared.get? reset with
  | some css =>
      rw [Style.Workshop.compileShared_eq, known]
      exact ⟨(faithful.shared reset css known).symm, begins⟩
  | none =>
      have present := faithful.isPresent (placed.sheet_apart listed shared)
      have same := placed.sheets template listed _ shared _ faithful.disk
      have fresh : first.workshop.shared.get? reset = none := by
        rw [workshop, isNew.shared]
        cases reset <;> rfl
      cases there : Style.isPresent first.space.disk (first.settings.sharedSheet reset).path with
      | false =>
          have absent := present.trans there
          have compiled := Style.Workshop.compileShared_of_absent first.engines.scss fresh there
          rw [Style.Workshop.compileShared_of_absent first.engines.scss known absent]
          refine ⟨(congrArg Prod.fst compiled).symm, .tail ?_ (deed_keep session _
            (congrArg Prod.fst compiled))⟩
          rw [withWorkshop_say]
          exact .tail begins (.say _)
      | true =>
          have here := present.trans there
          cases css : Scss.compileFile? first.engines.scss first.space.disk
              (first.settings.sharedSheet reset).directories
              (first.settings.sharedSheet reset).path with
          | none =>
              have compiled := Style.Workshop.compileShared_of_error fresh there css
              rw [Style.Workshop.compileShared_of_error known here (same.trans css)]
              exact ⟨(congrArg Prod.fst compiled).symm, begins.trans (deeds_begun session _ _)⟩
          | some css =>
              have compiled := Style.Workshop.compileShared_of_ok fresh there css
              rw [Style.Workshop.compileShared_of_ok known here (same.trans css)]
              refine ⟨(congrArg Prod.fst compiled).symm, .tail ?_ (deed_keep session _
                (congrArg Prod.fst compiled))⟩
              refine (begins.trans (deeds_begun session _ _)).trans (deeds_emit session _ ?_ _)
              intro wanted
              unfold asides
              rw [if_pos wanted]
              exact List.mem_append_left _ (List.mem_map_of_mem shared)

theorem compileReset_step (isNew : first.IsNew) (reset : Style.Reset) :
    let done := session.workshop.compileReset session.engines.scss session.settings template reset
    done.1 = (first.workshop.compileReset first.engines.scss first.settings template reset).1 ∧
      Deeds first (first.asides template) network session (session.withWorkshop done.2) := by
  have member : first.resetSheet template reset ∈ first.sheets template := by
    cases reset <;> simp [sheets]
  have present : Style.isPresent session.workshop.space.disk
      (Path.join template.directory (reset.fileName first.settings.sheets)) =
        Style.isPresent first.workshop.space.disk
          (Path.join template.directory (reset.fileName first.settings.sheets)) :=
    faithful.isPresent (placed.own_apart listed (by
      cases reset <;> simp [Style.Reset.fileName]))
  rw [faithful.engines, faithful.settings]
  unfold Style.Workshop.compileReset
  dsimp only
  rw [present]
  split
  · next own =>
      have sheet : first.resetSheet template reset =
          first.settings.ownSheet template (reset.fileName first.settings.sheets) := if_pos own
      exact compileOwn_step network faithful placed listed (sheet ▸ member)
  · next own =>
      have sheet : first.resetSheet template reset = first.settings.sharedSheet reset :=
        if_neg own
      exact compileShared_step network faithful placed listed isNew (sheet ▸ member)

theorem compileMain_step :
    let done := session.workshop.compileMain session.engines.scss session.settings template
    done.1 = (first.workshop.compileMain first.engines.scss first.settings template).1 ∧
      Deeds first (first.asides template) network session (session.withWorkshop done.2) := by
  have present : Style.isPresent session.workshop.space.disk
      (Path.join template.directory first.settings.sheets.main) =
        Style.isPresent first.workshop.space.disk
          (Path.join template.directory first.settings.sheets.main) :=
    faithful.isPresent (placed.own_apart listed (by simp))
  rw [faithful.engines, faithful.settings]
  unfold Style.Workshop.compileMain
  dsimp only
  rw [present]
  split
  · exact compileOwn_step network faithful placed listed (by simp [sheets])
  · rw [withWorkshop_workshop]
    exact ⟨rfl, .refl _⟩

/-! ## Finding sizes -/

variable {source : String}

omit faithful placed listed in
/-- Searching for the size of an image finds the answer of the session. -/
theorem findNatural_fst (warnings : List String) :
    (Search.findNatural ⟨session.sizer, session.space, warnings⟩ network template source).1 =
      session.answer network template source := by
  unfold Search.findNatural answer
  dsimp only
  cases session.sizer.cache.get? source with
  | some size => rfl
  | none =>
      cases address? source with
      | some address =>
          unfold Search.findRemote
          dsimp only
          cases session.sizer.asked.lookup source with
          | some answer => rfl
          | none =>
              dsimp only [Option.getD_none]
              cases fetch network address <;> rfl
      | none =>
          unfold Search.findLocal
          dsimp only [Template.imagePath]
          cases Image.measure session.space.disk source
            (Path.join template.directory (localPath source)) <;> rfl

/-- Copying an image that was measured is two deeds. -/
theorem deeds_copyLocal
    {size : Size}
    (member : source ∈ first.sources template)
    (isLocal : address? source = none)
    (measured : Image.measure session.space.disk source (template.imagePath source) = .ok size)
    (warnings : List String) :
    Deeds first (first.asides template) network session
      (session.withSearch
        (Search.copyLocal ⟨session.sizer, session.space, warnings⟩ template source)) := by
  unfold Search.copyLocal
  dsimp only
  split
  · exact .refl _
  · next wanted =>
      have copies : first.settings.images.copyLocal = true := by
        rw [← faithful.copyLocal]
        simp_all
      have copied : source ∈ first.copiedSources template := by
        rw [copiedSources, if_pos copies]
        refine List.mem_filter.mpr ⟨List.mem_filter.mpr ⟨member, by simp [isLocal]⟩, ?_⟩
        rw [← faithful.measure_eq placed listed member isLocal, measured]
        rfl
      have place : Path.join template.name (localPath source) ∈ first.asides template :=
        List.mem_append_right _ (List.mem_map_of_mem copied)
      unfold Workspace.copy
      cases session.space.disk.read? (Path.join template.directory (localPath source)) with
      | none => exact Deed.alone (.copied _)
      | some content => exact (Deed.alone (.write _ content place)).tail (.copied _)

omit faithful placed listed in
theorem cache_copyLocal (search : Search) (template : Template) (source : String) :
    (search.copyLocal template source).sizer.cache = search.sizer.cache := by
  unfold Search.copyLocal
  dsimp only
  split <;> rfl

omit faithful placed listed in
/-- When a server was asked, its answer is settled. -/
theorem isSettled_ask
    {address : String}
    (knows : first.KnowsFile session)
    (unknown : session.sizer.cache.get? source = none)
    (remote : address? source = some address)
    (warnings : List String) :
    (session.withSearch (Search.findRemote ⟨session.sizer, session.space, warnings⟩ network source
      address).2).IsSettled template source (session.answer network template source) := by
  intro other
  obtain ⟨known, eq⟩ | ⟨unasked, ⟨fault, answers, eq⟩ | ⟨size, answers, eq⟩⟩ :=
    ask_cases session network source address warnings <;> rw [eq]
  · obtain ⟨given, found⟩ := Option.ne_none_iff_exists'.mp known
    simp only [answer, unknown, remote, found, Option.getD_some]
  · have still : Cache.get? session.sizer.cache source = none := unknown
    simp only [answer, still, remote, unasked, List.lookup_cons_self, Option.getD_some,
      Option.getD_none, answers]
  · have kept : Cache.get? { session.sizer.cache with
        sizes := putSize source size session.sizer.cache.sizes } source = some size :=
      (lookup_putSize knows.table source size source).trans (if_pos rfl)
    simp only [answer, kept, unknown, remote, unasked, Option.getD_none, answers]

/-- Searching for the size of an image changes the session by deeds, and settles the answer. -/
theorem findNatural_step
    (enabled : first.settings.images.enable = true)
    (member : source ∈ first.sources template)
    (warnings : List String) :
    let after := session.withSearch (Search.findNatural ⟨session.sizer, session.space, warnings⟩
      network template source).2
    Deeds first (first.asides template) network session after ∧
      after.IsSettled template source (session.answer network template source) := by
  unfold Search.findNatural
  dsimp only
  cases known : session.sizer.cache.get? source with
  | some size =>
      refine ⟨.refl _, fun other => ?_⟩
      have still : (session.withSearch ⟨session.sizer, session.space, warnings⟩) = session := rfl
      simp only [still, answer, known]
  | none =>
      cases remote : address? source with
      | some address =>
          exact ⟨Deed.alone (.ask source address warnings enabled known remote),
            isSettled_ask network (faithful.sizer enabled) known remote warnings⟩
      | none =>
          have deeds (size : Size)
              (measured : Image.measure session.space.disk source (template.imagePath source) =
                .ok size) :=
            deeds_copyLocal network faithful placed listed member remote measured
              warnings
          unfold Search.findLocal
          dsimp only
          rw [← Template.imagePath]
          cases measured : Image.measure session.space.disk source (template.imagePath source) with
          | error fault =>
              refine ⟨.refl _, fun other => ?_⟩
              have still : (session.withSearch ⟨session.sizer, session.space, warnings⟩) = session :=
                rfl
              simp only [still, answer, known, remote]
          | ok size =>
              have deeds := deeds size measured
              refine ⟨deeds, fun other => ?_⟩
              have later := faithful.deeds placed listed (List.subset_append_right _ _) deeds
              have cache := cache_copyLocal ⟨session.sizer, session.space, warnings⟩ template source
              have still : (session.withSearch (Search.copyLocal
                  ⟨session.sizer, session.space, warnings⟩ template source)).sizer.cache.get? source =
                  none := (congrArg (Cache.get? · source) cache).trans known
              simp only [answer, still, known, remote]
              rw [later.measure_eq placed listed member remote,
                faithful.measure_eq placed listed member remote]

/-- Finding the size of an image: it is the answer of the session as it is shown, the session
changes by deeds, and the answer is settled. -/
theorem find_step
    (enabled : first.settings.images.enable = true)
    (member : source ∈ first.sources template)
    (warnings : List String) :
    let found := Search.find ⟨session.sizer, session.space, warnings⟩ network template source
    found.1 = (session.answer network template source).toOption.map
        (fun size => (shownSize source size).1) ∧
      Deeds first (first.asides template) network session (session.withSearch found.2) ∧
      (session.withSearch found.2).IsSettled template source
        (session.answer network template source) := by
  have natural : (Search.findNatural ⟨session.sizer, session.space, warnings⟩ network template
      source).1 = session.answer network template source := findNatural_fst network warnings
  have step := findNatural_step network faithful placed listed enabled member warnings
  unfold Search.find
  generalize Search.findNatural ⟨session.sizer, session.space, warnings⟩ network template source =
    found at natural step
  obtain ⟨fault | size, search⟩ := found
  · rw [← natural] at step ⊢
    exact ⟨rfl, step⟩
  · rw [← natural] at step ⊢
    exact ⟨rfl, step⟩

end Session
end MailPress
