import Mathlib
import MailPress.Proofs.Image.Request

/-!
# Remote images are asked for once

Whatever errands there are for a remote source, in however many documents, and in whatever order
they take turns: the server is asked at most once, and not at all when the cache had a size when
it was opened. All of the errands end with the same, which is the size that the cache had or what
the server answered that one time. An answer that is a size is recorded once, any other is not.
-/

namespace MailPress
namespace Image

open Errand in
/-- What an errand has found out is so: a source that it asks for was not in the cache when that
was opened, and what it has found out about a remote source is what the cache had then, or else
what the server replied. -/
def Errand.Holds (opened : Cache) (log : List Event) (errand : Errand) : Prop :=
  match errand.progress with
  | .queued | .looking => True
  | .waiting _ | .asking _ | .settling _ => opened.get? errand.source = none
  | .answered answer =>
      opened.get? errand.source = none ∧ ∀ size, answer = .ok size → size.Fits
  | .measuring | .claiming _ | .copying _ => address? errand.source = none
  | .found answer | .done answer =>
      (address? errand.source).isSome →
        match opened.get? errand.source with
        | some size => answer = .ok size
        | none => .replied errand.source answer ∈ log

theorem Errand.Holds.mono
    {opened : Cache}
    {log more : List Event}
    {errand : Errand}
    (holds : errand.Holds opened log)
    (within : log ⊆ more) :
    errand.Holds opened more := by
  unfold Errand.Holds at holds ⊢
  split at holds
  all_goals first | exact holds | skip
  all_goals
    intro remote
    have told := holds remote
    split at told
    · exact told
    · exact within told

/-- What is known agrees with the cache as it was opened and with what was noted down. -/
structure Knows (opened : Cache) (affairs : Affairs) : Prop where
  /-- The sizes are sorted. -/
  table : IsTable affairs.search.sizer.cache.sizes
  /-- No size that the cache had is lost or changed. -/
  kept : ∀ source size, opened.get? source = some size →
    affairs.search.sizer.cache.get? source = some size
  /-- Other sizes were recorded. -/
  gained : ∀ source size, affairs.search.sizer.cache.get? source = some size →
    opened.get? source = some size ∨ .recorded source size ∈ affairs.log
  /-- What was recorded is known. -/
  recorded : ∀ source size, .recorded source size ∈ affairs.log →
    affairs.search.sizer.cache.get? source = some size
  /-- Nothing is noted down about sources that the cache had. -/
  unheld : ∀ event ∈ affairs.log, opened.get? event.source = none
  /-- What errands have found out is so. -/
  holds : ∀ errand ∈ affairs.errands, errand.Holds opened affairs.log

namespace Knows

open Errand

variable {limit : Nat} {opened : Cache} {affairs : Affairs} {network : Network} {index : Nat}
  {errand : Errand}

theorem opened_get?_of_events
    (holds : errand.Holds opened affairs.log)
    {event : Event}
    (member : event ∈ errand.events network affairs.search) :
    opened.get? errand.source = none := by
  obtain ⟨source, template, progress⟩ := errand
  cases progress with
  | waiting address => exact holds
  | asking address => exact holds
  | answered answer => exact holds.1
  | _ => cases member

/-- What an errand has found out is still so after its next step. -/
theorem holds_advance
    (knows : Knows opened affairs)
    (standing : Standing affairs errand.source)
    (here : affairs.errands[index]? = some errand)
    (network : Network) :
    Holds opened (affairs.log ++ errand.events network affairs.search)
      { errand with progress := (errand.advance network affairs.search).1 } := by
  have holds := knows.holds errand (List.mem_of_getElem? here)
  suffices held : Holds opened affairs.log
      { errand with progress := (errand.advance network affairs.search).1 } from
    held.mono (List.subset_append_left ..)
  obtain ⟨source, template, progress⟩ := errand
  dsimp only [advance]
  cases progress with
  | queued => trivial
  | looking =>
      dsimp only
      cases kept : affairs.search.sizer.cache.get? source with
      | none =>
          have opened : opened.get? source = none :=
            Option.eq_none_iff_forall_ne_some.mpr fun size found => by
              cases kept.symm.trans (knows.kept source size found)
          cases remote : address? source with
          | none => exact remote
          | some address => exact opened
      | some size =>
          intro _
          rcases knows.gained source size kept with old | new
          · simp only [old]
          · have unheld : opened.get? source = none := knows.unheld _ new
            simp only [unheld]
            exact standing.replied_of_recorded new
  | waiting address =>
      have unheld : opened.get? source = none := holds
      dsimp only
      cases asked : affairs.search.sizer.asked.lookup source with
      | none => exact unheld
      | some answer =>
          intro _
          simp only [unheld]
          exact standing.replied_of_asked asked
  | asking address => exact ⟨holds, fun size answer => fits_of_fetch answer⟩
  | answered answer =>
      cases answer with
      | error fault => exact holds.1
      | ok size => exact holds.1
  | settling answer =>
      have unheld : opened.get? source = none := holds
      obtain ⟨_, _, log⟩ := standing.of_asking here rfl
      intro _
      simp only [unheld]
      refine (Standing.mem_log_iff _).mpr (show _ ∈ affairs.log.filter (·.source = source) from ?_)
      rw [log]
      simp [Progress.account, account]
  | measuring =>
      have here : address? source = none := holds
      dsimp only
      cases measure affairs.search.space.disk source (template.imagePath source) with
      | error fault => exact fun remote => absurd remote (by simp [here])
      | ok size => exact here
  | claiming size =>
      have here : address? source = none := holds
      dsimp only
      split
      · exact fun remote => absurd remote (by simp [here])
      · exact here
  | copying size =>
      have here : address? source = none := holds
      exact fun remote => absurd remote (by simp [here])
  | found answer => exact holds
  | done answer => exact holds

/-- What is in the cache after a step of an errand. -/
theorem get?_advance
    (knows : Knows opened affairs)
    (here : affairs.errands[index]? = some errand)
    (network : Network)
    (source : String) :
    IsTable (errand.advance network affairs.search).2.sizer.cache.sizes ∧
      (errand.advance network affairs.search).2.sizer.cache.get? source =
        match errand.progress with
          | .answered (.ok size) =>
              if source = errand.source then some size
              else affairs.search.sizer.cache.get? source
          | _ => affairs.search.sizer.cache.get? source := by
  have holds := knows.holds errand (List.mem_of_getElem? here)
  rw [(known_advance network errand affairs.search).2]
  obtain ⟨mine, template, progress⟩ := errand
  cases progress with
  | answered answer =>
      cases answer with
      | error fault => exact ⟨knows.table, rfl⟩
      | ok size =>
          exact ⟨knows.table.put mine (holds.2 size rfl),
            lookup_putSize knows.table mine size source⟩
  | _ => exact ⟨knows.table, rfl⟩

/-- What is known agrees with what was noted down after every step of an errand. -/
theorem turn
    (knows : Knows opened affairs)
    (standing : Standing affairs errand.source)
    (here : affairs.errands[index]? = some errand)
    (network : Network) :
    Knows opened (affairs.turn network index errand) := by
  have holds := knows.holds errand (List.mem_of_getElem? here)
  refine ⟨(knows.get?_advance here network "").1, ?_, ?_, ?_, ?_, ?_⟩
  · intro source size found
    rw [Affairs.turn, (knows.get?_advance here network source).2]
    split
    · next progress =>
        rw [Holds, progress] at holds
        rw [if_neg]
        · exact knows.kept source size found
        · rintro rfl
          cases holds.1.symm.trans found
    · exact knows.kept source size found
  · intro source size found
    rw [Affairs.turn, (knows.get?_advance here network source).2] at found
    have old (kept : affairs.search.sizer.cache.get? source = some size) :
        opened.get? source = some size ∨
          .recorded source size ∈ affairs.log ++ errand.events network affairs.search :=
      (knows.gained source size kept).imp_right (List.mem_append_left _)
    split at found
    · next recorded progress =>
        split at found
        · next same =>
            obtain rfl := Option.some.inj found
            refine .inr (List.mem_append_right _ ?_)
            rw [events, progress, same]
            exact List.mem_singleton.mpr rfl
        · exact old found
    · exact old found
  · intro source size member
    rw [Affairs.turn, (knows.get?_advance here network source).2]
    rcases List.mem_append.mp member with old | new
    · split
      · next recorded progress =>
          rw [if_neg]
          · exact knows.recorded source size old
          · -- What is to be recorded was not recorded before.
            rintro rfl
            obtain ⟨_, _, log⟩ := standing.of_asking here (by rw [progress]; rfl)
            have told := (Standing.mem_log_iff _).mp old
            rw [show Event.source (.recorded errand.source size) = errand.source from rfl, log,
              progress] at told
            simp [Progress.account] at told
      · exact knows.recorded source size old
    · have mine : source = errand.source := source_of_mem_events new
      subst mine
      unfold events at new
      split at new
      · split at new
        · cases List.mem_singleton.mp new
        · cases new
      · cases List.mem_singleton.mp new
      · next recorded progress =>
          cases List.mem_singleton.mp new
          simp only [progress, if_true]
      · cases new
  · intro event member
    rcases List.mem_append.mp member with old | new
    · exact knows.unheld event old
    · rw [source_of_mem_events new]
      exact opened_get?_of_events holds new
  · intro other member
    rcases List.mem_or_eq_of_mem_set member with old | rfl
    · exact (knows.holds other old).mono (List.subset_append_left ..)
    · exact knows.holds_advance standing here network

end Knows

namespace Affairs
namespace Reached

open Errand

variable {limit : Nat} {first : Search} {affairs : Affairs}

/-- What is known agrees with the cache as it was opened and with what was noted down. -/
theorem knows
    (reached : Reached limit first affairs)
    (fresh : first.sizer.asked = [])
    (table : IsTable first.sizer.cache.sizes) :
    Knows first.sizer.cache affairs := by
  induction reached with
  | start =>
      exact
        { table
          kept := fun _ _ => id
          gained := fun _ _ => .inl
          recorded := fun _ _ member => by cases member
          unheld := fun _ member => by cases member
          holds := fun _ member => by cases member }
  | @call affairs _ document template inductionHypothesis =>
      refine { inductionHypothesis with holds := fun errand member => ?_ }
      rcases List.mem_append.mp member with old | new
      · exact inductionHypothesis.holds errand old
      · obtain ⟨_, _, rfl⟩ := List.mem_map.mp new
        trivial
  | @turn affairs _ errand reached here _ network inductionHypothesis =>
      exact inductionHypothesis.turn (reached.standing fresh errand.source) here network
  | elsewhere _ _ inductionHypothesis => exact { inductionHypothesis with }

theorem turns
    {network : Network}
    {later : Affairs}
    (reached : Reached limit first affairs)
    (turns : Turns limit network affairs later) :
    Reached limit first later := by
  induction turns with
  | refl => exact reached
  | tail _ next inductionHypothesis =>
      obtain ⟨index, errand, here, ready, rfl⟩ := next
      exact inductionHypothesis.turn here ready network

end Reached
end Affairs

open Errand in
/-- What is noted down about remote sources, and what errands find out about them, when a cache was
opened that held some sizes. -/
structure FetchedOnce (opened : Cache) (affairs : Affairs) : Prop where
  /-- A source is asked for at most once. -/
  once : ∀ source, affairs.log.count (.requested source) ≤ 1
  /-- A source that the cache had a size for is not asked for. -/
  held : ∀ source size, opened.get? source = some size → .requested source ∉ affairs.log
  /-- Errands for a remote source end with the size that the cache had, or else with what the server
  replied when it was asked. -/
  answered : ∀ errand ∈ affairs.errands, (address? errand.source).isSome →
    ∀ answer, errand.progress = .done answer →
      match opened.get? errand.source with
      | some size => answer = .ok size
      | none =>
          .requested errand.source ∈ affairs.log ∧ .replied errand.source answer ∈ affairs.log
  /-- Errands for one remote source end with the same. -/
  shared : ∀ errand ∈ affairs.errands, ∀ other ∈ affairs.errands,
    errand.source = other.source → (address? errand.source).isSome →
      ∀ answer found, errand.progress = .done answer → other.progress = .done found →
        answer = found
  /-- A reply that is no size is all that is noted down about a source, and the cache does not get
  a size. -/
  failed : ∀ source fault, .replied source (.error fault) ∈ affairs.log →
    affairs.log.filter (·.source = source) =
        [.requested source, .replied source (.error fault)] ∧
      affairs.search.sizer.cache.get? source = none
  /-- A size is recorded when the server replied it, and never again. -/
  recorded : ∀ source size, .recorded source size ∈ affairs.log →
    affairs.log.filter (·.source = source) =
        [.requested source, .replied source (.ok size), .recorded source size] ∧
      affairs.search.sizer.cache.get? source = some size
  /-- A size that the server replied is recorded when the one errand that asked has gone on. -/
  succeeded : ∀ source size, .replied source (.ok size) ∈ affairs.log →
    NoneAsking affairs.errands source → .recorded source size ∈ affairs.log

namespace Standing

variable {affairs : Affairs} {source : String}

/-- The whole story of a source is told when its reply was noted down and nobody asks any more. -/
theorem log_of_replied
    {answer : Except Fault Size}
    (standing : Standing affairs source)
    (replied : .replied source answer ∈ affairs.log)
    (idle : Errand.NoneAsking affairs.errands source) :
    affairs.log.filter (·.source = source) = account source answer := by
  cases standing with
  | untold _ _ log =>
      have told := (mem_log_iff _).mp replied
      rw [show Event.source (.replied source answer) = source from rfl, log] at told
      cases told
  | asking index errand _ here mine asks _ _ =>
      exact absurd here (noneAsking_iff.mp idle index errand mine asks)
  | settled known asked idle log =>
      have settled : Standing affairs source := .settled known asked idle log
      rw [log, settled.replied_unique (settled.replied_of_asked asked) replied]

/-- A source with a reply was asked for. -/
theorem requested_of_replied
    {answer : Except Fault Size}
    (standing : Standing affairs source)
    (replied : .replied source answer ∈ affairs.log) :
    .requested source ∈ affairs.log := by
  have told : .replied source answer ∈ affairs.log.filter (·.source = source) :=
    (mem_log_iff _).mp replied
  refine (mem_log_iff _).mpr (show _ ∈ affairs.log.filter (·.source = source) from ?_)
  rcases standing.log_cases with log | log | ⟨answer, log | log⟩ <;>
    rw [log] at told ⊢ <;> simp_all [account]

/-- What was noted down about a source with a reply that is no size. -/
theorem log_of_failed
    {fault : Fault}
    (standing : Standing affairs source)
    (replied : .replied source (.error fault) ∈ affairs.log) :
    affairs.log.filter (·.source = source) =
      [.requested source, .replied source (.error fault)] := by
  have told : .replied source (.error fault) ∈ affairs.log.filter (·.source = source) :=
    (mem_log_iff _).mp replied
  rcases standing.log_cases with log | log | ⟨answer | answer, log | log⟩ <;>
    rw [log] at told ⊢ <;> simp_all [account, Except.toOption]

/-- What was noted down about a source whose size was recorded. -/
theorem log_of_recorded
    {size : Size}
    (standing : Standing affairs source)
    (recorded : .recorded source size ∈ affairs.log) :
    affairs.log.filter (·.source = source) =
      [.requested source, .replied source (.ok size), .recorded source size] := by
  have told : .recorded source size ∈ affairs.log.filter (·.source = source) :=
    (mem_log_iff _).mp recorded
  rcases standing.log_cases with log | log | ⟨answer | answer, log | log⟩ <;>
    rw [log] at told ⊢ <;> simp_all [account, Except.toOption]

end Standing

/-- Remote images are asked for once. However many documents bring errands to a cache that was
opened, and in whatever order these take turns, no source is asked for twice and none that the
cache had a size for; all errands for one remote source end with the same; and a size is recorded
just when the server replied it, and once. Every errand there is can come to its end. -/
theorem fetched_once
    (limit : Nat)
    (positive : 0 < limit)
    (disk : Disk)
    (path : String)
    (copyLocal : Bool)
    (space : Workspace)
    (warnings : List String)
    (affairs : Affairs)
    (reached : Affairs.Reached limit ⟨.start disk path copyLocal, space, warnings⟩ affairs) :
    FetchedOnce (.load disk path) affairs ∧
      ∀ network, ∃ later, Affairs.Turns limit network affairs later ∧
        (∀ errand ∈ later.errands, errand.progress.isDone = true) ∧
          later.errands.map Errand.image = affairs.errands.map Errand.image ∧
            FetchedOnce (.load disk path) later := by
  have fetchedOnce (affairs : Affairs)
      (reached : Affairs.Reached limit ⟨.start disk path copyLocal, space, warnings⟩ affairs) :
      FetchedOnce (.load disk path) affairs := by
    have standing := reached.standing rfl
    have knows : Knows (.load disk path) affairs := reached.knows rfl (isTable_sizesAt disk path)
    have answered : ∀ errand ∈ affairs.errands, (address? errand.source).isSome →
        ∀ answer, errand.progress = .done answer →
          match (Cache.load disk path).get? errand.source with
          | some size => answer = .ok size
          | none => .replied errand.source answer ∈ affairs.log := by
      intro errand member remote answer ended
      have holds := knows.holds errand member
      rw [Errand.Holds, ended] at holds
      exact holds remote
    refine
      { once := fun source => (standing source).count_requested_le
        held := fun source size held requested => ?_
        answered := fun errand member remote answer ended => ?_
        shared := fun errand member other among same remote answer found ended also => ?_
        failed := fun source fault replied =>
          ⟨(standing source).log_of_failed replied, ?_⟩
        recorded := fun source size recorded =>
          ⟨(standing source).log_of_recorded recorded, knows.recorded source size recorded⟩
        succeeded := fun source size replied idle => ?_ }
    · cases (knows.unheld _ requested).symm.trans held
    · have ends := answered errand member remote answer ended
      split at ends
      · exact ends
      · exact ⟨(standing _).requested_of_replied ends, ends⟩
    · have one := answered errand member remote answer ended
      have two := answered other among (same ▸ remote) found also
      rw [← same] at two
      split at one
      · next held =>
          simp only [held] at two
          rw [one, two]
      · next held =>
          simp only [held] at two
          exact (standing _).replied_unique one two
    · refine Option.eq_none_iff_forall_ne_some.mpr fun size kept => ?_
      rcases knows.gained source size kept with old | new
      · cases (knows.unheld _ replied).symm.trans old
      · cases (standing source).replied_unique replied ((standing source).replied_of_recorded new)
    · have log := (standing source).log_of_replied replied idle
      refine (Standing.mem_log_iff _).mpr (show _ ∈ affairs.log.filter (·.source = source) from ?_)
      rw [log]
      simp [account, Except.toOption]
  refine ⟨fetchedOnce affairs reached, fun network => ?_⟩
  obtain ⟨later, turns, done, kept⟩ := affairs.exists_turns_done limit positive network
  exact ⟨later, turns, done, kept, fetchedOnce later (reached.turns turns)⟩

/-- A network with one image. -/
def onePhoto : Network := fun address =>
  if address = "https://host/photo" then
    .ok ⟨200, "GIF89a\x05\x00\x04\x00\x00\x00\x00;".toUTF8⟩
  else .error "host not found"

/-- A document with two images. -/
def photoPage : Markup.Document :=
  ⟨#[⟨.root, none, [1, 2]⟩,
    ⟨.element ⟨"img", [⟨"src", "//host/photo"⟩], false⟩, some 0, []⟩,
    ⟨.element ⟨"img", [⟨"src", "//host/none"⟩], false⟩, some 0, []⟩]⟩

theorem ofDocument_photoPage (template : Template) :
    Errand.ofDocument photoPage template =
      [⟨"//host/none", template, .queued⟩, ⟨"//host/photo", template, .queued⟩] := by
  have sources : unsizedSources photoPage = ["//host/none", "//host/photo"] := by cbv
  rw [Errand.ofDocument, sources]
  rfl

/-- Two templates with the images of a document, and no size is known. -/
def photoStart : Affairs where
  log := []
  search := ⟨.start .empty "sizes.json" false, ⟨.empty, .new "out"⟩, []⟩
  errands :=
    [⟨"//host/none", ⟨"welcome", "templates/welcome"⟩, .queued⟩,
      ⟨"//host/photo", ⟨"welcome", "templates/welcome"⟩, .queued⟩,
      ⟨"//host/none", ⟨"farewell", "templates/farewell"⟩, .queued⟩,
      ⟨"//host/photo", ⟨"farewell", "templates/farewell"⟩, .queued⟩]

theorem reached_photoStart : Affairs.Reached 3 photoStart.search photoStart := by
  have called : Affairs.Reached 3 photoStart.search _ :=
    Affairs.Reached.start.call photoPage ⟨"welcome", "templates/welcome"⟩
  have reached := called.call photoPage ⟨"farewell", "templates/farewell"⟩
  simp only [ofDocument_photoPage] at reached
  exact reached

/-- What is noted down about the two images. -/
def photoStory : List Event :=
  [.requested "//host/photo", .requested "//host/none",
    .replied "//host/none" (.error (.unanswered "https://host/none" "host not found")),
    .replied "//host/photo" (.ok ⟨5, 4⟩), .recorded "//host/photo" ⟨5, 4⟩]

/-- One errand waits for the size that another one asks for, and one comes when it is known that
there is no answer. -/
theorem fetched_once_onePhoto :
    ∃ affairs : Affairs, 0 < 3 ∧ Affairs.Reached 3 photoStart.search affairs ∧
      affairs.log = photoStory ∧
        affairs.errands.map (·.progress.isDone) = [true, true, true, true] ∧
          FetchedOnce (.load .empty "sizes.json") affairs := by
  have played :
      (Affairs.play? 3 onePhoto [1, 3, 0, 1, 3, 0, 1, 0, 0, 1, 0, 1, 1, 3, 0, 1, 0, 3, 2, 2, 2, 2]
        photoStart).map (fun affairs => (affairs.log, affairs.errands.map (·.progress.isDone))) =
          some (photoStory, [true, true, true, true]) := by
    decide +kernel
  obtain ⟨affairs, plays, ends⟩ := Option.map_eq_some_iff.mp played
  obtain ⟨log, done⟩ := Prod.mk.inj ends
  have reached := reached_photoStart.turns (Affairs.turns_of_play? plays)
  exact ⟨affairs, by decide, reached, log, done,
    (fetched_once 3 (by decide) .empty "sizes.json" false _ _ affairs reached).1⟩

end Image
end MailPress
