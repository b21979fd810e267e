import Mathlib.Algebra.BigOperators.Group.List.Basic
import Mathlib.Algebra.GroupWithZero.Nat
import Mathlib.Logic.Relation
import MailPress.Image.Sizer

/-!
# Errands

The size of each image of a document is found by an errand of its own. An errand goes on step by
step: it waits until it is admitted, asks the cache, and then finds out about a remote image or
measures a local one. Errands share what is known about images and the files, and between two
steps of one errand others take theirs.

What is found out about a remote source is kept under the source. Only one errand at a time asks
the server, and others with the same source wait for what it finds out.

The steps of one errand, with nothing in between, find the size of the image.
-/

namespace MailPress

/-- The path of a local image of a template. -/
def Template.imagePath (template : Template) (source : String) : String :=
  Path.join template.directory (Image.localPath source)

/-- Where a local image of a template is copied to, below the output directory. -/
def Template.imagePlace (template : Template) (source : String) : String :=
  Path.join template.name (Image.localPath source)

namespace Image

/-- How far an errand is. -/
inductive Progress
  /-- The errand waits to be admitted. -/
  | queued
  /-- The cache is to be asked. -/
  | looking
  /-- The cache does not have a remote image. It is to be seen what is found out about it. -/
  | waiting (address : String)
  /-- The server of a remote image is being asked. -/
  | asking (address : String)
  /-- The server has answered. A size is to be recorded. -/
  | answered (answer : Except Fault Size)
  /-- What was found out is to be made known to others. -/
  | settling (answer : Except Fault Size)
  /-- A local image is to be measured. -/
  | measuring
  /-- The image was measured. It is to be seen whether it was copied before. -/
  | claiming (size : Size)
  /-- The image is to be copied. -/
  | copying (size : Size)
  /-- It is known what there is to know, and warnings about it are to be given. -/
  | found (answer : Except Fault Size)
  /-- The errand has ended. -/
  | done (answer : Except Fault Size)

namespace Progress

/-- Whether an errand asks a server, also for others that wait meanwhile. -/
def isAsking : Progress → Bool
  | .asking _ | .answered _ | .settling _ => true
  | _ => false

/-- Whether an errand has ended. -/
def isDone : Progress → Bool
  | .done _ => true
  | _ => false

/-- Whether an errand was admitted and has not ended. -/
def isActive : Progress → Bool
  | .queued | .done _ => false
  | _ => true

end Progress

/-- What is found out about an image, as it is shown. -/
def shown? (source : String) (answer : Except Fault Size) : Option Size :=
  answer.toOption.map fun size => (shownSize source size).1

/-- The warnings about what was found out. -/
def warningsAbout (source : String) : Except Fault Size → List String
  | .error fault => [fault.message]
  | .ok size => (shownSize source size).2

/-- The warning about a local image that was to be copied. -/
def copyWarning (source : String) : Except BuildError Outcome → String
  | .ok _ => Search.localWarning source
  | .error error => error.message

/-- The way to the size of an image of a template. -/
structure Errand where
  /-- The source of the image. -/
  source : String
  /-- The template. -/
  template : Template
  /-- How far the errand is. -/
  progress : Progress

namespace Errand

/-- The errands for a document, one for each source without a size. -/
def ofDocument (document : Markup.Document) (template : Template) : List Errand :=
  (unsizedSources document).map fun source => ⟨source, template, .queued⟩

/-- Take the next step of an errand. -/
def advance (network : Network) (errand : Errand) (search : Search) : Progress × Search :=
  match errand.progress with
  | .queued => (.looking, search)
  | .looking =>
      match search.sizer.cache.get? errand.source with
      | some size => (.found (.ok size), search)
      | none =>
          match address? errand.source with
          | some address => (.waiting address, search)
          | none => (.measuring, search)
  | .waiting address =>
      match search.sizer.asked.lookup errand.source with
      | some answer => (.found answer, search)
      | none => (.asking address, search)
  | .asking address => (.answered (fetch network address), search)
  | .answered (.error fault) => (.settling (.error fault), search)
  | .answered (.ok size) =>
      let recorded := search.sizer.cache.record search.space.disk errand.source size
      (.settling (.ok size), { search with
        sizer := { search.sizer with cache := recorded.1 }
        space := { search.space with disk := recorded.2 } })
  | .settling answer =>
      (.found answer, { search with
        sizer := { search.sizer with asked := (errand.source, answer) :: search.sizer.asked } })
  | .measuring =>
      match measure search.space.disk errand.source (errand.template.imagePath errand.source) with
      | .error fault => (.found (.error fault), search)
      | .ok size => (.claiming size, search)
  | .claiming size =>
      let names := Path.components (errand.template.imagePath errand.source)
      if !search.sizer.copyLocal || search.sizer.copied.contains names then
        (.found (.ok size), search)
      else
        (.copying size, { search with
          sizer := { search.sizer with copied := names :: search.sizer.copied } })
  | .copying size =>
      let copied := search.space.copy (errand.template.imagePath errand.source)
        (errand.template.imagePlace errand.source)
      (.found (.ok size), { search with
        space := copied.2
        warnings := search.warnings ++ [copyWarning errand.source copied.1] })
  | .found answer => (.done answer, search.warn (warningsAbout errand.source answer))
  | .done answer => (.done answer, search)

/-- One state of an errand comes after another when only this errand takes steps. -/
def Alone (network : Network) (source : String) (template : Template) :
    Progress × Search → Progress × Search → Prop :=
  Relation.ReflTransGen fun state next =>
    next = advance network ⟨source, template, state.1⟩ state.2

namespace Alone

variable {network : Network} {source : String} {template : Template} {search : Search}
  {state : Progress × Search} {progress : Progress}

theorem step
    (rest : Alone network source template
      (advance network ⟨source, template, progress⟩ search) state) :
    Alone network source template (progress, search) state :=
  .head rfl rest

theorem refl (state : Progress × Search) : Alone network source template state state :=
  Relation.ReflTransGen.refl

/-- An errand that finds a server to be asked ends as a search does. -/
theorem waiting (address : String) :
    let remote := search.findRemote network source address
    Alone network source template (.waiting address, search) (.found remote.1, remote.2) := by
  unfold Search.findRemote
  refine .step ?_
  cases known : search.sizer.asked.lookup source with
  | some answer => simpa only [advance, known] using .refl _
  | none =>
      simp only [advance, known]
      refine .step (.step ?_)
      dsimp only [advance]
      cases fetch network address with
      | error fault => exact .step (.refl _)
      | ok size => exact .step (.refl _)

/-- An errand that is to measure an image ends as a search does. -/
theorem measuring :
    let here := search.findLocal template source
    Alone network source template (.measuring, search) (.found here.1, here.2) := by
  unfold Search.findLocal
  refine .step ?_
  dsimp only [advance, Template.imagePath]
  cases measure search.space.disk source (Path.join template.directory (localPath source)) with
  | error fault => exact .refl _
  | ok size =>
      refine .step ?_
      unfold Search.copyLocal
      cases left : !search.sizer.copyLocal || search.sizer.copied.contains
          (Path.components (Path.join template.directory (localPath source))) with
      | true =>
          simp only [advance, Template.imagePath, left, if_true]
          exact .refl _
      | false =>
          simp only [advance, Template.imagePath, left, Bool.false_eq_true, if_false]
          refine .step ?_
          simp only [advance, Template.imagePath, Template.imagePlace, copyWarning]
          generalize search.space.copy (Path.join template.directory (localPath source))
            (Path.join template.name (localPath source)) = copied
          obtain ⟨error | outcome, space⟩ := copied <;> exact .refl _

/-- The steps of one errand, with nothing in between, find the size of the image: they end with
what a search finds out, and leave everything as the search does. -/
theorem find :
    Alone network source template (.queued, search)
      (.done (search.findNatural network template source).1,
        (search.find network template source).2) := by
  have warns : (search.find network template source).2 =
      (search.findNatural network template source).2.warn
        (warningsAbout source (search.findNatural network template source).1) := by
    unfold Search.find
    generalize search.findNatural network template source = natural
    obtain ⟨fault | size, after⟩ := natural <;> rfl
  rw [warns]
  suffices found : Alone network source template (.queued, search)
      (.found (search.findNatural network template source).1,
        (search.findNatural network template source).2) from found.tail rfl
  refine .step (.step ?_)
  unfold Search.findNatural
  dsimp only [advance]
  cases search.sizer.cache.get? source with
  | some size => exact .refl _
  | none =>
      cases address? source with
      | some address => exact waiting address
      | none => exact measuring

end Alone

theorem find_fst
    (network : Network)
    (source : String)
    (template : Template)
    (search : Search) :
    (search.find network template source).1 =
      shown? source (search.findNatural network template source).1 := by
  unfold Search.find
  generalize search.findNatural network template source = natural
  obtain ⟨fault | size, after⟩ := natural <;> rfl

end Errand

/-!
## Errands side by side

Many errands share what is known about images and the files. They take turns: at each turn one of
those that are ready takes its next step. A limited number of errands is under way, and an errand
waits while another one asks for its source.

As long as there is an errand that has not ended there is one that is ready, and no errand takes
steps for ever. So the errands end, whoever takes the turns.
-/

/-- What is noted down when an errand takes a step. -/
inductive Event
  /-- A server was asked for a source. -/
  | requested (source : String)
  /-- The server has answered. -/
  | replied (source : String) (answer : Except Fault Size)
  /-- A size was recorded in the cache. -/
  | recorded (source : String) (size : Size)
  deriving DecidableEq

/-- The source that an event is about. -/
def Event.source : Event → String
  | .requested source => source
  | .replied source _ => source
  | .recorded source _ => source

namespace Errand

/-- The image that an errand is about: its source, and the template it belongs to. -/
def image (errand : Errand) : String × Template :=
  (errand.source, errand.template)

/-- What is noted down about the next step of an errand. -/
def events (network : Network) (errand : Errand) (search : Search) : List Event :=
  match errand.progress with
  | .waiting _ =>
      if search.sizer.asked.lookup errand.source = none then [.requested errand.source] else []
  | .asking address => [.replied errand.source (fetch network address)]
  | .answered (.ok size) => [.recorded errand.source size]
  | _ => []

/-- Nobody asks for a source at the moment. -/
def NoneAsking (errands : List Errand) (source : String) : Prop :=
  ∀ errand ∈ errands, errand.source = source → errand.progress.isAsking = false

/-- Whether an errand can take its next step. A limited number of errands is under way, and an
errand waits while another one asks for its source. -/
def IsReady (limit : Nat) (search : Search) (errands : List Errand) (errand : Errand) : Prop :=
  match errand.progress with
  | .queued => errands.countP (·.progress.isActive) < limit
  | .waiting _ =>
      search.sizer.asked.lookup errand.source = none → NoneAsking errands errand.source
  | .done _ => False
  | _ => True

end Errand

/-- What is noted down, what is known and how far the errands are. -/
structure Affairs where
  /-- What was noted down, the oldest first. -/
  log : List Event
  /-- What is known about images, the files and the warnings. -/
  search : Search
  /-- The errands. -/
  errands : List Errand

namespace Affairs

/-- One of the errands takes a step. -/
def turn (affairs : Affairs) (network : Network) (index : Nat) (errand : Errand) : Affairs where
  log := affairs.log ++ errand.events network affairs.search
  search := (errand.advance network affairs.search).2
  errands := affairs.errands.set index
    { errand with progress := (errand.advance network affairs.search).1 }

variable {affairs : Affairs} {network : Network} {index : Nat} {errand : Errand}

/-- When one errand takes a step, the others are where they were. -/
theorem turn_errands
    (here : affairs.errands[index]? = some errand)
    (place : Nat) :
    (affairs.turn network index errand).errands[place]? =
      if index = place then
        some { errand with progress := (errand.advance network affairs.search).1 }
      else affairs.errands[place]? := by
  obtain ⟨inside, _⟩ := List.getElem?_eq_some_iff.mp here
  rw [Affairs.turn, List.getElem?_set, if_pos inside]

/-- Errands stay the errands that they were. -/
theorem map_image_turn
    (here : affairs.errands[index]? = some errand) :
    (affairs.turn network index errand).errands.map Errand.image =
      affairs.errands.map Errand.image := by
  obtain ⟨inside, found⟩ := List.getElem?_eq_some_iff.mp here
  have same : affairs.errands.set index errand = affairs.errands := by
    rw [← found, List.set_getElem_self]
  conv_rhs => rw [← same]
  rw [turn, List.map_set, List.map_set]
  rfl

/-- One state of affairs comes after another when ready errands take turns. -/
def Turns (limit : Nat) (network : Network) : Affairs → Affairs → Prop :=
  Relation.ReflTransGen fun affairs next =>
    ∃ index errand, affairs.errands[index]? = some errand ∧
      errand.IsReady limit affairs.search affairs.errands ∧
        next = affairs.turn network index errand

end Affairs

instance (errands : List Errand) (source : String) : Decidable (Errand.NoneAsking errands source) :=
  inferInstanceAs (Decidable (∀ errand ∈ errands, errand.source = source → _))

instance (limit : Nat) (search : Search) (errands : List Errand) :
    (errand : Errand) → Decidable (errand.IsReady limit search errands)
  | ⟨_, _, .queued⟩ => inferInstanceAs (Decidable (_ < limit))
  | ⟨_, _, .waiting _⟩ => inferInstanceAs (Decidable (_ → _))
  | ⟨_, _, .done _⟩ => inferInstanceAs (Decidable False)
  | ⟨_, _, .looking⟩ | ⟨_, _, .asking _⟩ | ⟨_, _, .answered _⟩ | ⟨_, _, .settling _⟩
  | ⟨_, _, .measuring⟩ | ⟨_, _, .claiming _⟩ | ⟨_, _, .copying _⟩ | ⟨_, _, .found _⟩ =>
      inferInstanceAs (Decidable True)

namespace Affairs

/-- Let errands take turns in some order, given by their indices; nothing when one of them is not
ready at its turn. -/
def play? (limit : Nat) (network : Network) : List Nat → Affairs → Option Affairs
  | [], affairs => some affairs
  | index :: order, affairs =>
      match affairs.errands[index]? with
      | none => none
      | some errand =>
          if errand.IsReady limit affairs.search affairs.errands then
            play? limit network order (affairs.turn network index errand)
          else none

theorem turns_of_play?
    {limit : Nat}
    {network : Network}
    {order : List Nat}
    {affairs later : Affairs}
    (played : play? limit network order affairs = some later) :
    Turns limit network affairs later := by
  induction order generalizing affairs with
  | nil =>
      obtain rfl := Option.some.inj played
      exact .refl
  | cons index order inductionHypothesis =>
      unfold play? at played
      split at played
      · cases played
      · next errand here =>
          split at played
          · next ready => exact .head ⟨index, errand, here, ready, rfl⟩ (inductionHypothesis played)
          · cases played

end Affairs

/-! ### Errands end -/

namespace Progress

/-- How many steps an errand takes at most. -/
def remaining : Progress → Nat
  | .queued => 7
  | .looking => 6
  | .waiting _ => 5
  | .asking _ => 4
  | .answered _ => 3
  | .settling _ => 2
  | .measuring => 4
  | .claiming _ => 3
  | .copying _ => 2
  | .found _ => 1
  | .done _ => 0

end Progress

namespace Errand

/-- Every step brings an errand nearer to its end. -/
theorem remaining_advance_lt
    (network : Network)
    (errand : Errand)
    (search : Search)
    (left : errand.progress.isDone = false) :
    (errand.advance network search).1.remaining < errand.progress.remaining := by
  obtain ⟨source, template, progress⟩ := errand
  cases progress with
  | looking =>
      dsimp only [advance]
      split
      · simp [Progress.remaining]
      · split <;> simp [Progress.remaining]
  | waiting address => dsimp only [advance]; split <;> simp [Progress.remaining]
  | answered answer => cases answer <;> simp [advance, Progress.remaining]
  | measuring => dsimp only [advance]; split <;> simp [Progress.remaining]
  | claiming size => dsimp only [advance]; split <;> simp [Progress.remaining]
  | done answer => cases left
  | _ => simp [advance, Progress.remaining]

/-- An errand that asks for a source waits for nobody. -/
theorem isReady_of_isAsking
    {errand : Errand}
    (asks : errand.progress.isAsking = true)
    (limit : Nat)
    (search : Search)
    (errands : List Errand) :
    errand.IsReady limit search errands := by
  unfold IsReady
  split
  · next progress => simp [progress, Progress.isAsking] at asks
  · next progress => simp [progress, Progress.isAsking] at asks
  · next progress => simp [progress, Progress.isAsking] at asks
  · trivial

/-- An errand that is under way can take its next step, or another one that asks for its source
can. -/
theorem exists_isReady_of_isActive
    {errands : List Errand}
    {errand : Errand}
    (member : errand ∈ errands)
    (active : errand.progress.isActive = true)
    (limit : Nat)
    (search : Search) :
    ∃ other ∈ errands, other.IsReady limit search errands := by
  by_cases ready : errand.IsReady limit search errands
  · exact ⟨errand, member, ready⟩
  · unfold IsReady at ready
    split at ready
    · next progress => simp [progress, Progress.isActive] at active
    · -- Someone asks for the source, and asking waits for nobody.
      simp only [NoneAsking, Classical.not_imp, not_forall, Bool.not_eq_false] at ready
      obtain ⟨_, other, among, _, asks⟩ := ready
      exact ⟨other, among, isReady_of_isAsking asks ..⟩
    · next progress => simp [progress, Progress.isActive] at active
    · exact absurd trivial ready

/-- While there is an errand that has not ended, there is one that is ready. -/
theorem exists_isReady
    {errands : List Errand}
    {errand : Errand}
    (member : errand ∈ errands)
    (left : errand.progress.isDone = false)
    {limit : Nat}
    (positive : 0 < limit)
    (search : Search) :
    ∃ other ∈ errands, other.IsReady limit search errands := by
  by_cases idle : errands.countP (·.progress.isActive) = 0
  · have queued : errand.progress = .queued := by
      have rests := List.countP_eq_zero.mp idle errand member
      cases progress : errand.progress <;>
        simp [progress, Progress.isActive, Progress.isDone] at rests left ⊢
    exact ⟨errand, member, by rw [IsReady, queued]; exact idle ▸ positive⟩
  · obtain ⟨other, among, active⟩ := List.countP_pos_iff.mp (Nat.pos_of_ne_zero idle)
    exact exists_isReady_of_isActive among active limit search

end Errand

namespace Affairs

/-- How many steps the errands take at most. -/
def remaining (affairs : Affairs) : Nat :=
  (affairs.errands.map (·.progress.remaining)).sum

/-- Every turn brings the errands nearer to their end. -/
theorem remaining_turn_lt
    {affairs : Affairs}
    {index : Nat}
    {errand : Errand}
    (here : affairs.errands[index]? = some errand)
    (left : errand.progress.isDone = false)
    (network : Network) :
    (affairs.turn network index errand).remaining < affairs.remaining := by
  obtain ⟨inside, found⟩ := List.getElem?_eq_some_iff.mp here
  have same : affairs.errands = affairs.errands.set index errand := by
    rw [← found, List.set_getElem_self]
  have less := errand.remaining_advance_lt network affairs.search left
  rw [remaining, remaining, same, turn]
  simp only [List.map_set, List.sum_set, List.length_map, inside, if_true]
  omega

/-- Whatever has happened, the errands can take turns until all of them have ended; every one of
them is the errand that it was. -/
theorem exists_turns_done
    (limit : Nat)
    (positive : 0 < limit)
    (network : Network)
    (affairs : Affairs) :
    ∃ later, Turns limit network affairs later ∧
      (∀ errand ∈ later.errands, errand.progress.isDone = true) ∧
        later.errands.map Errand.image = affairs.errands.map Errand.image := by
  induction size : affairs.remaining using Nat.strongRecOn generalizing affairs with
  | ind total inductionHypothesis =>
      by_cases settled : ∀ errand ∈ affairs.errands, errand.progress.isDone = true
      · exact ⟨affairs, .refl, settled, rfl⟩
      · push Not at settled
        obtain ⟨errand, member, left⟩ := settled
        obtain ⟨other, among, ready⟩ :=
          Errand.exists_isReady member (Bool.eq_false_iff.mpr left) positive affairs.search
        obtain ⟨index, here⟩ := List.mem_iff_getElem?.mp among
        have goes : other.progress.isDone = false := by
          cases progress : other.progress <;>
            simp [Errand.IsReady, progress, Progress.isDone] at ready ⊢
        obtain ⟨later, turns, done, kept⟩ :=
          inductionHypothesis _ (size ▸ remaining_turn_lt here goes network) _ rfl
        exact ⟨later, .head ⟨index, other, here, ready, rfl⟩ turns, done,
          kept.trans (map_image_turn here)⟩

end Affairs
end Image
end MailPress
