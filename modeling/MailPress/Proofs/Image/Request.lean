import MailPress.Proofs.Image.Errand
import MailPress.Proofs.Image.Upkeep

/-!
# Requests for remote images

Of all errands for one remote source at most one asks the server. The story of a source is told by
what is noted down about it: a request, its reply, and perhaps a record. At every moment it stands
where the cell of the source and the one errand that fills it stand.
-/

namespace MailPress
namespace Image

/-- The whole story of a source: one request, its reply, and a record when that is a size. -/
def account (source : String) (answer : Except Fault Size) : List Event :=
  [.requested source, .replied source answer] ++
    answer.toOption.toList.map (Event.recorded source)

/-- The story of a source as far as the errand is that asks for it. -/
def Progress.account (source : String) : Progress → List Event
  | .asking _ => [.requested source]
  | .answered answer => [.requested source, .replied source answer]
  | .settling answer => Image.account source answer
  | _ => []

namespace Affairs

/-- What becomes of a cache that was opened: documents bring errands, and ready errands take
steps, each in whatever network there is then. -/
inductive Reached (limit : Nat) (first : Search) : Affairs → Prop
  /-- There is no errand yet. -/
  | start : Reached limit first ⟨[], first, []⟩
  /-- The sizes of the images of a document are to be found. -/
  | call {affairs : Affairs}
      (reached : Reached limit first affairs)
      (document : Markup.Document)
      (template : Template) :
      Reached limit first
        { affairs with errands := affairs.errands ++ Errand.ofDocument document template }
  /-- An errand takes a step. -/
  | turn {affairs : Affairs} {index : Nat} {errand : Errand}
      (reached : Reached limit first affairs)
      (here : affairs.errands[index]? = some errand)
      (ready : errand.IsReady limit affairs.search affairs.errands)
      (network : Network) :
      Reached limit first (affairs.turn network index errand)
  /-- Something else changes on the disk. -/
  | elsewhere {affairs : Affairs}
      (reached : Reached limit first affairs)
      (space : Workspace) :
      Reached limit first { affairs with search := { affairs.search with space } }

end Affairs

/-! ## The story of a source -/

open Errand in
/-- Where the story of a source stands. -/
inductive Standing (affairs : Affairs) (source : String) : Prop
  /-- Nobody has asked for it. -/
  | untold
      (unasked : affairs.search.sizer.asked.lookup source = none)
      (idle : NoneAsking affairs.errands source)
      (log : affairs.log.filter (·.source = source) = [])
  /-- One errand asks for it. -/
  | asking (index : Nat) (errand : Errand)
      (unasked : affairs.search.sizer.asked.lookup source = none)
      (here : affairs.errands[index]? = some errand)
      (mine : errand.source = source)
      (asks : errand.progress.isAsking = true)
      (alone : ∀ other : Errand, ∀ place, affairs.errands[place]? = some other →
        other.source = source → other.progress.isAsking = true → place = index)
      (log : affairs.log.filter (·.source = source) = errand.progress.account source)
  /-- The answer is known. -/
  | settled (answer : Except Fault Size)
      (asked : affairs.search.sizer.asked.lookup source = some answer)
      (idle : NoneAsking affairs.errands source)
      (log : affairs.log.filter (·.source = source) = account source answer)

/-! ### What a step changes -/

namespace Errand

variable {network : Network} {errand : Errand} {search : Search}

theorem source_of_mem_events
    {event : Event}
    (member : event ∈ errand.events network search) :
    event.source = errand.source := by
  unfold events at member
  split at member
  · split at member
    · exact List.mem_singleton.mp member ▸ rfl
    · cases member
  · exact List.mem_singleton.mp member ▸ rfl
  · exact List.mem_singleton.mp member ▸ rfl
  · cases member

/-- What is known changes only when an answer is recorded or made known. -/
theorem known_advance (network : Network) (errand : Errand) (search : Search) :
    (errand.advance network search).2.sizer.asked =
        (match errand.progress with
          | .settling answer => (errand.source, answer) :: search.sizer.asked
          | _ => search.sizer.asked) ∧
      (errand.advance network search).2.sizer.cache =
        match errand.progress with
          | .answered (.ok size) => search.sizer.cache.remember errand.source size
          | _ => search.sizer.cache := by
  obtain ⟨source, template, progress⟩ := errand
  cases progress with
  | looking =>
      dsimp only [advance]
      split
      · exact ⟨rfl, rfl⟩
      · split <;> exact ⟨rfl, rfl⟩
  | waiting address => dsimp only [advance]; split <;> exact ⟨rfl, rfl⟩
  | answered answer =>
      cases answer with
      | error fault => exact ⟨rfl, rfl⟩
      | ok size => exact ⟨rfl, rfl⟩
  | measuring => dsimp only [advance]; split <;> exact ⟨rfl, rfl⟩
  | claiming size => dsimp only [advance]; split <;> exact ⟨rfl, rfl⟩
  | _ => exact ⟨rfl, rfl⟩

end Errand

namespace Standing

open Errand

variable {limit : Nat} {affairs other : Affairs} {source : String} {network : Network} {index : Nat}
  {errand : Errand}

theorem noneAsking_iff {errands : List Errand} :
    NoneAsking errands source ↔
      ∀ (place : Nat) (errand : Errand), errand.source = source →
        errand.progress.isAsking = true → errands[place]? ≠ some errand := by
  refine ⟨fun idle place errand mine asks here => ?_, fun idle errand member mine => ?_⟩
  · exact absurd asks (by simp [idle errand (List.mem_of_getElem? here) mine])
  · obtain ⟨place, here⟩ := List.mem_iff_getElem?.mp member
    exact Bool.eq_false_iff.mpr fun asks => idle place errand mine asks here

/-- The story of a source stands where it stood while nothing is noted down about it, nothing more
is known and the same errands ask for it. -/
theorem congr
    (standing : Standing affairs source)
    (log : other.log.filter (·.source = source) = affairs.log.filter (·.source = source))
    (asked : other.search.sizer.asked.lookup source = affairs.search.sizer.asked.lookup source)
    (errands : ∀ (place : Nat) (errand : Errand), errand.source = source →
      errand.progress.isAsking = true →
        (other.errands[place]? = some errand ↔ affairs.errands[place]? = some errand)) :
    Standing other source := by
  have idle (idle : NoneAsking affairs.errands source) : NoneAsking other.errands source :=
    noneAsking_iff.mpr fun place errand mine asks here =>
      noneAsking_iff.mp idle place errand mine asks ((errands place errand mine asks).mp here)
  cases standing with
  | untold unasked none events => exact .untold (asked.trans unasked) (idle none) (log.trans events)
  | asking index errand unasked here mine asks alone events =>
      exact .asking index errand (asked.trans unasked) ((errands index errand mine asks).mpr here)
        mine asks (fun other place there same also =>
          alone other place ((errands place other same also).mp there) same also)
        (log.trans events)
  | settled answer known none events =>
      exact .settled answer (asked.trans known) (idle none) (log.trans events)

/-- An errand that asks for a source is the only one, and the story stands where it stands. -/
theorem of_asking
    (standing : Standing affairs errand.source)
    (here : affairs.errands[index]? = some errand)
    (asks : errand.progress.isAsking = true) :
    affairs.search.sizer.asked.lookup errand.source = none ∧
      (∀ other : Errand, ∀ place, affairs.errands[place]? = some other →
        other.source = errand.source → other.progress.isAsking = true → place = index) ∧
      affairs.log.filter (·.source = errand.source) = errand.progress.account errand.source := by
  cases standing with
  | untold _ idle _ => exact absurd here (noneAsking_iff.mp idle index errand rfl asks)
  | settled _ _ idle _ => exact absurd here (noneAsking_iff.mp idle index errand rfl asks)
  | asking place found unasked there _ _ alone log =>
      obtain rfl := alone errand index here rfl asks
      obtain rfl := Option.some.inj (here.symm.trans there)
      exact ⟨unasked, alone, log⟩

/-! ### Every step keeps the standing -/

/-- A step of an errand that asks for no source before and after it. -/
theorem turn_of_not_isAsking
    (standing : Standing affairs source)
    (here : affairs.errands[index]? = some errand)
    (before : errand.source = source → errand.progress.isAsking = false)
    (after : errand.source = source →
      (errand.advance network affairs.search).1.isAsking = false)
    (silent : errand.source = source → errand.events network affairs.search = []) :
    Standing (affairs.turn network index errand) source := by
  refine standing.congr ?_ ?_ fun place other mine asks => ?_
  · have none : (errand.events network affairs.search).filter (·.source = source) = [] := by
      refine List.filter_eq_nil_iff.mpr fun event member same => ?_
      have mine : errand.source = source :=
        (source_of_mem_events member).symm.trans (of_decide_eq_true same)
      rw [silent mine] at member
      cases member
    rw [Affairs.turn, List.filter_append, none, List.append_nil]
  · rw [Affairs.turn, (known_advance network errand affairs.search).1]
    split
    · next answer progress =>
        have other : source ≠ errand.source := fun same => by
          have quiet := before same.symm
          rw [progress] at quiet
          cases quiet
        rw [List.lookup_cons, beq_false_of_ne other]
    · rfl
  · rw [Affairs.turn_errands here]
    split
    · next same =>
        subst same
        rw [here]
        refine iff_of_false (fun found => ?_) (fun found => ?_) <;>
          obtain rfl := Option.some.inj found
        · exact absurd asks (by simp [after mine])
        · exact absurd asks (by simp [before mine])
    · rfl

/-- An errand takes a step on with a story that only it can tell. -/
theorem turn_of_isAsking
    (standing : Standing affairs errand.source)
    (here : affairs.errands[index]? = some errand)
    (asks : errand.progress.isAsking = true)
    (after : (errand.advance network affairs.search).1.isAsking = true)
    (story : errand.progress.account errand.source ++ errand.events network affairs.search =
      (errand.advance network affairs.search).1.account errand.source) :
    Standing (affairs.turn network index errand) errand.source := by
  obtain ⟨unasked, alone, log⟩ := standing.of_asking here asks
  refine .asking index _ ?_ ((Affairs.turn_errands here index).trans (if_pos rfl)) rfl after
    (fun other place there same also => ?_) ?_
  · rw [Affairs.turn, (known_advance network errand affairs.search).1]
    split
    · next answer progress =>
        simp only [advance, progress, Progress.isAsking, Bool.false_eq_true] at after
    · exact unasked
  · rw [Affairs.turn_errands here] at there
    split at there
    · next same => exact same.symm
    · exact alone other place there same also
  · rw [Affairs.turn, List.filter_append, log, ← story]
    congr 1
    exact List.filter_eq_self.mpr fun event member =>
      decide_eq_true (source_of_mem_events member)

/-- An errand begins to ask for a source that nobody asks for and nobody has asked for. -/
theorem turn_of_begins
    {template : Template}
    {address : String}
    (standing : Standing affairs source)
    (here : affairs.errands[index]? = some ⟨source, template, .waiting address⟩)
    (unasked : affairs.search.sizer.asked.lookup source = none)
    (idle : NoneAsking affairs.errands source)
    (network : Network) :
    Standing (affairs.turn network index ⟨source, template, .waiting address⟩) source := by
  have untold : affairs.log.filter (·.source = source) = [] := by
    cases standing with
    | untold _ _ log => exact log
    | asking place errand _ there mine asks _ _ =>
        exact absurd there (noneAsking_iff.mp idle place errand mine asks)
    | settled answer asked _ _ => cases unasked.symm.trans asked
  have next : advance network ⟨source, template, .waiting address⟩ affairs.search =
      (.asking address, affairs.search) := by simp only [advance, unasked]
  refine .asking index ⟨source, template, .asking address⟩ ?_ ?_ rfl rfl
    (fun other place there mine asks => ?_) ?_
  · rw [Affairs.turn, next, unasked]
  · rw [Affairs.turn_errands here, if_pos rfl, next]
  · rw [Affairs.turn_errands here] at there
    split at there
    · next same => exact same.symm
    · exact absurd there (noneAsking_iff.mp idle place other mine asks)
  · rw [Affairs.turn, List.filter_append, untold]
    simp [events, unasked, Event.source, Progress.account]

/-- An errand makes known what was found out about its source. -/
theorem turn_of_settles
    {template : Template}
    {answer : Except Fault Size}
    (standing : Standing affairs source)
    (here : affairs.errands[index]? = some ⟨source, template, .settling answer⟩)
    (network : Network) :
    Standing (affairs.turn network index ⟨source, template, .settling answer⟩) source := by
  have mine : Standing affairs (⟨source, template, .settling answer⟩ : Errand).source := standing
  obtain ⟨_, alone, log⟩ := mine.of_asking here rfl
  refine .settled answer List.lookup_cons_self (noneAsking_iff.mpr ?_) ?_
  · intro place other mine asks there
    rw [Affairs.turn_errands here] at there
    split at there
    · obtain rfl := Option.some.inj there
      cases asks
    · next different => exact different (alone other place there mine asks).symm
  · rw [Affairs.turn, List.filter_append, log]
    exact List.append_nil _

/-- Every step of an errand keeps the standing of its own source. -/
theorem turn_self
    (standing : Standing affairs errand.source)
    (here : affairs.errands[index]? = some errand)
    (ready : errand.IsReady limit affairs.search affairs.errands)
    (network : Network) :
    Standing (affairs.turn network index errand) errand.source := by
  have quiet (before : errand.progress.isAsking = false)
      (after : (errand.advance network affairs.search).1.isAsking = false)
      (silent : errand.events network affairs.search = []) :
      Standing (affairs.turn network index errand) errand.source :=
    standing.turn_of_not_isAsking here (fun _ => before) (fun _ => after) fun _ => silent
  obtain ⟨source, template, progress⟩ := errand
  cases progress with
  | looking =>
      refine quiet rfl ?_ rfl
      dsimp only [advance]
      split
      · rfl
      · split <;> rfl
  | waiting address =>
      cases known : affairs.search.sizer.asked.lookup source with
      | some answer =>
          exact quiet rfl (by simp [advance, known, Progress.isAsking]) (by simp [events, known])
      | none => exact standing.turn_of_begins here known (ready known) network
  | asking address => exact standing.turn_of_isAsking here rfl rfl rfl
  | answered answer =>
      cases answer with
      | error fault => exact standing.turn_of_isAsking here rfl rfl rfl
      | ok size => exact standing.turn_of_isAsking here rfl rfl rfl
  | settling answer => exact standing.turn_of_settles here network
  | measuring =>
      refine quiet rfl ?_ rfl
      dsimp only [advance]
      split <;> rfl
  | claiming size =>
      refine quiet rfl ?_ rfl
      dsimp only [advance]
      split <;> rfl
  | _ => exact quiet rfl rfl rfl

/-- Every step of an errand keeps the standing of every source. -/
theorem turn
    (standing : Standing affairs source)
    (here : affairs.errands[index]? = some errand)
    (ready : errand.IsReady limit affairs.search affairs.errands)
    (network : Network) :
    Standing (affairs.turn network index errand) source := by
  by_cases mine : errand.source = source
  · subst mine
    exact standing.turn_self here ready network
  · exact standing.turn_of_not_isAsking here (absurd · mine) (absurd · mine) (absurd · mine)

/-! ### What the story tells -/

theorem mem_log_iff (event : Event) :
    event ∈ affairs.log ↔ event ∈ affairs.log.filter (·.source = event.source) := by
  simp

/-- What was noted down about a source: nothing, a request, a request with its reply, or the whole
story. -/
theorem log_cases (standing : Standing affairs source) :
    affairs.log.filter (·.source = source) = [] ∨
      affairs.log.filter (·.source = source) = [.requested source] ∨
        ∃ answer, affairs.log.filter (·.source = source) =
            [.requested source, .replied source answer] ∨
          affairs.log.filter (·.source = source) = account source answer := by
  cases standing with
  | untold _ _ log => exact .inl log
  | settled answer _ _ log => exact .inr (.inr ⟨answer, .inr log⟩)
  | asking index errand _ _ _ asks _ log =>
      rw [log]
      cases progress : errand.progress with
      | asking address => exact .inr (.inl rfl)
      | answered answer => exact .inr (.inr ⟨answer, .inl rfl⟩)
      | settling answer => exact .inr (.inr ⟨answer, .inr rfl⟩)
      | _ => simp [progress, Progress.isAsking] at asks

/-- A source is asked for at most once. -/
theorem count_requested_le (standing : Standing affairs source) :
    affairs.log.count (.requested source) ≤ 1 := by
  rw [← List.count_filter (p := (·.source = source)) (by simp [Event.source])]
  rcases standing.log_cases with log | log | ⟨answer | answer, log | log⟩ <;>
    simp [log, account, Except.toOption]

/-- There is at most one reply about a source. -/
theorem replied_unique
    {first second : Except Fault Size}
    (standing : Standing affairs source)
    (replied : .replied source first ∈ affairs.log)
    (also : .replied source second ∈ affairs.log) :
    first = second := by
  have told (answer : Except Fault Size) (member : .replied source answer ∈ affairs.log) :
      .replied source answer ∈ affairs.log.filter (·.source = source) :=
    (mem_log_iff _).mp member
  have first := told _ replied
  have second := told _ also
  rcases standing.log_cases with log | log | ⟨answer | answer, log | log⟩ <;>
    rw [log] at first second <;> simp_all [account, Except.toOption]

/-- A size that was recorded is what the server replied. -/
theorem replied_of_recorded
    {size : Size}
    (standing : Standing affairs source)
    (recorded : .recorded source size ∈ affairs.log) :
    .replied source (.ok size) ∈ affairs.log := by
  have told : .recorded source size ∈ affairs.log.filter (·.source = source) :=
    (mem_log_iff _).mp recorded
  refine (mem_log_iff _).mpr (show _ ∈ affairs.log.filter (·.source = source) from ?_)
  rcases standing.log_cases with log | log | ⟨answer | answer, log | log⟩ <;>
    rw [log] at told ⊢ <;> simp_all [account, Except.toOption]

/-- What is known about a source is what the server replied. -/
theorem replied_of_asked
    {answer : Except Fault Size}
    (standing : Standing affairs source)
    (asked : affairs.search.sizer.asked.lookup source = some answer) :
    .replied source answer ∈ affairs.log := by
  cases standing with
  | untold unasked _ _ => cases unasked.symm.trans asked
  | asking _ _ unasked _ _ _ _ _ => cases unasked.symm.trans asked
  | settled known found _ log =>
      obtain rfl := Option.some.inj (found.symm.trans asked)
      have member : Event.replied source known ∈ affairs.log.filter (·.source = source) :=
        log ▸ by simp [account]
      exact (List.mem_filter.mp member).1

end Standing

namespace Affairs
namespace Reached

open Errand

variable {limit : Nat} {first : Search} {affairs : Affairs}

/-- The story of every source stands somewhere. -/
theorem standing
    (reached : Reached limit first affairs)
    (fresh : first.sizer.asked = [])
    (source : String) :
    Standing affairs source := by
  induction reached with
  | start => exact .untold (by rw [fresh]; rfl) (fun errand member => by cases member) rfl
  | @call affairs _ document template inductionHypothesis =>
      refine inductionHypothesis.congr rfl rfl fun place errand _ asks => ?_
      rw [List.getElem?_append]
      split
      · rfl
      · next outside =>
          rw [List.getElem?_eq_none (Nat.le_of_not_lt outside)]
          refine iff_of_false (fun found => ?_) (fun found => by cases found)
          obtain ⟨_, _, rfl⟩ := List.mem_map.mp (List.mem_of_getElem? found)
          cases asks
  | turn _ here ready network inductionHypothesis =>
      exact inductionHypothesis.turn here ready network
  | elsewhere _ _ inductionHypothesis =>
      exact inductionHypothesis.congr rfl rfl fun _ _ _ _ => Iff.rfl

end Reached
end Affairs
end Image
end MailPress
