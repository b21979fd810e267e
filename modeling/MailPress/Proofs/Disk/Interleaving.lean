import MailPress.Proofs.Disk.Writer

/-!
# Calls of a writer that run side by side

A call of a writer reads and writes the disk and the memory in several steps, and other calls take
their steps in between. No two calls for one file run at a time.

`Run` describes what such calls may do, step by step. Whatever a call asks the disk for may be
refused, a look into the file as well, and a file is written piece by piece: opening it empties it,
and only then does it fill up.

In every state that a run reaches, what is remembered of a file is what the file holds, unless a
call is just writing it: from the step that empties the file to the step that takes note of its
content the memory lags behind. From this follows what a call tells when it returns.
-/

namespace MailPress
namespace Writing

open MailPress.Path

/-- How far a call has come. -/
inductive Stage
  /-- The source of a copy is to be read. -/
  | fetching (source : String)
  /-- The memory is to be asked. -/
  | recalling
  /-- The memory knows nothing of the file, which is to be read. -/
  | looking
  /-- The directories of the file are to be made. -/
  | making
  /-- The file is to be written. -/
  | putting
  /-- The file was emptied, and a part of the content was written to it. -/
  | filling (part : ByteArray)
  /-- The content is to be remembered. -/
  | noting (outcome : Outcome)
  /-- The call has returned. -/
  | returned (result : Except BuildError Outcome)

/-- Whether a call fails when the disk refuses its next step. A look that is refused is no failure,
and a file that could be opened is written to its end. -/
def Stage.mayFail : Stage → Bool
  | .fetching _ | .making | .putting => true
  | .recalling | .looking | .filling _ | .noting _ | .returned _ => false

/-- Whether a call has neither written to its file nor come to know that it need not. -/
def Stage.isQuiet : Stage → Bool
  | .filling _ | .noting _ | .returned (.ok _) => false
  | .fetching _ | .recalling | .looking | .making | .putting | .returned (.error _) => true

/-- Whether a call has written to its file and has yet to take note of it. -/
def Stage.lags : Stage → Bool
  | .filling _ | .noting .written => true
  | .fetching _ | .recalling | .looking | .making | .putting | .noting .unchanged
  | .returned _ => false

/-- A call that writes one file below the root of a writer. -/
structure Call where
  /-- The names that lead to the file. -/
  names : List String
  /-- What the file is to hold. -/
  content : ByteArray
  /-- How far the call has come. -/
  stage : Stage
  /-- What the file held when the call compared it with its content, or tried to. -/
  found : Option ByteArray := none
  /-- Whether the look into the file was refused. -/
  blind : Bool := false

namespace Call

/-- The call that writes a content to a file. -/
def write (names : List String) (content : ByteArray) : Call where
  names := names
  content := content
  stage := .recalling

/-- The call that copies a source to a file. -/
def copy (source : String) (names : List String) : Call where
  names := names
  content := .empty
  stage := .fetching source

/-- Whether a call has returned. -/
def IsDone (call : Call) : Prop :=
  ∃ result, call.stage = .returned result

/-- One step of a call. What the disk refuses leaves the files as they are. -/
inductive Step (space : Workspace) (call : Call) : Workspace → Call → Prop
  /-- The source of a copy is read. -/
  | fetched {source : String} {content : ByteArray}
      (stage : call.stage = .fetching source)
      (read : space.disk.read? source = some content) :
      Step space call space { call with content, stage := .recalling }
  /-- The content is known to be there. -/
  | known
      (stage : call.stage = .recalling)
      (memory : space.memory? call.names = some call.content) :
      Step space call space
        { call with found := space.file? call.names, stage := .returned (.ok .unchanged) }
  /-- Another content is known to be there. -/
  | outdated {old : ByteArray}
      (stage : call.stage = .recalling)
      (memory : space.memory? call.names = some old)
      (different : old ≠ call.content) :
      Step space call space { call with found := space.file? call.names, stage := .making }
  /-- The memory knows nothing. -/
  | unknown
      (stage : call.stage = .recalling)
      (memory : space.memory? call.names = none) :
      Step space call space { call with stage := .looking }
  /-- The file holds the content already. -/
  | confirmed
      (stage : call.stage = .looking)
      (file : space.file? call.names = some call.content) :
      Step space call space
        { call with found := space.file? call.names, stage := .noting .unchanged }
  /-- There is no such file, or it holds another content. -/
  | differs
      (stage : call.stage = .looking)
      (file : space.file? call.names ≠ some call.content) :
      Step space call space { call with found := space.file? call.names, stage := .making }
  /-- The look into the file is refused. -/
  | unread
      (stage : call.stage = .looking) :
      Step space call space
        { call with found := space.file? call.names, blind := true, stage := .making }
  /-- The directories are made. -/
  | made {disk : Disk}
      (stage : call.stage = .making)
      (prepared : space.prepared? (space.path call.names) = some disk) :
      Step space call { space with disk } { call with stage := .putting }
  /-- The file is opened, which empties it. -/
  | opened {disk : Disk}
      (stage : call.stage = .putting)
      (written : space.disk.write? (space.path call.names) .empty = some disk) :
      Step space call { space with disk } { call with stage := .filling .empty }
  /-- More of the content is written. -/
  | filled {disk : Disk} {part more rest : ByteArray}
      (stage : call.stage = .filling part)
      (within : call.content = part ++ more ++ rest)
      (written : space.disk.write? (space.path call.names) (part ++ more) = some disk) :
      Step space call { space with disk } { call with stage := .filling (part ++ more) }
  /-- All of the content is written. -/
  | full
      (stage : call.stage = .filling call.content) :
      Step space call space { call with stage := .noting .written }
  /-- The content is remembered. -/
  | noted {outcome : Outcome}
      (stage : call.stage = .noting outcome) :
      Step space call
        { space with writer := space.writer.remember (space.path call.names) call.content }
        { call with stage := .returned (.ok outcome) }
  /-- The disk refuses, and the call fails. -/
  | failed {disk : Disk}
      (error : BuildError)
      (stage : call.stage.mayFail = true)
      (files : disk.files = space.disk.files)
      (grows : space.disk.Grows disk) :
      Step space call { space with disk } { call with stage := .returned (.error error) }

namespace Step

variable {space after : Workspace} {call next : Call}

theorem names_eq (step : Step space call after next) : next.names = call.names := by
  cases step <;> rfl

theorem root_eq (step : Step space call after next) :
    after.writer.root = space.writer.root := by
  cases step <;> rfl

/-- A step never takes a directory away. -/
theorem grows (step : Step space call after next) : space.disk.Grows after.disk := by
  cases step with
  | made _ prepared =>
      obtain ⟨locations, -, rfl⟩ := Workspace.eq_withDirectories_of_prepared? prepared
      exact space.disk.grows_withDirectories locations
  | opened _ written | filled _ _ written =>
      obtain ⟨_, _, _, rfl⟩ := Disk.write?_eq_some_iff.mp written
      exact space.disk.grows_withContent _ _
  | failed _ _ _ grows => exact grows
  | _ => exact .refl space.disk

/-- A call that takes a step had not returned. -/
theorem not_isDone (step : Step space call after next) : ¬ call.IsDone := by
  rintro ⟨result, done⟩
  cases step with
  | failed _ refuses _ _ => rw [done] at refuses; cases refuses
  | _ => simp_all

theorem isQuiet (step : Step space call after next) (quiet : next.stage.isQuiet = true) :
    call.stage.isQuiet = true := by
  cases step with
  | failed _ refuses _ _ =>
      revert refuses
      cases call.stage <;> simp [Stage.isQuiet, Stage.mayFail]
  | opened _ _ | filled _ _ _ | full _ | noted _ => cases quiet
  | _ => simp_all [Stage.isQuiet]

/-- As long as a call is quiet, its steps change neither the files nor the memory. -/
theorem eq_of_isQuiet (step : Step space call after next) (quiet : next.stage.isQuiet = true) :
    after.disk.files = space.disk.files ∧ after.writer = space.writer := by
  cases step with
  | made _ prepared =>
      obtain ⟨locations, -, rfl⟩ := Workspace.eq_withDirectories_of_prepared? prepared
      exact ⟨space.disk.files_withDirectories locations, rfl⟩
  | opened _ _ | filled _ _ _ | full _ | noted _ => cases quiet
  | failed _ _ files _ => exact ⟨files, rfl⟩
  | _ => exact ⟨rfl, rfl⟩

/-- A step changes the content at the location of its own file alone. -/
theorem content?_eq
    (step : Step space call after next)
    {location : List String}
    (away : location ≠ space.disk.locate (space.path call.names)) :
    after.disk.content? location = space.disk.content? location := by
  cases step with
  | made _ prepared =>
      obtain ⟨locations, -, rfl⟩ := Workspace.eq_withDirectories_of_prepared? prepared
      exact space.disk.content?_withDirectories locations location
  | opened _ written | filled _ _ written =>
      obtain ⟨_, _, _, rfl⟩ := Disk.write?_eq_some_iff.mp written
      rw [Disk.content?_withContent, if_neg away]
  | failed _ _ files _ => rw [Disk.content?, files, Disk.content?]
  | _ => rfl

/-- A step changes what is remembered of its own file alone. -/
theorem memory?_eq
    (step : Step space call after next)
    (place : IsPlace call.names)
    {others : List String}
    (other : IsPlace others)
    (different : others ≠ call.names) :
    after.memory? others = space.memory? others := by
  cases step with
  | noted _ => rw [Workspace.memory?_remember place other, if_neg different]
  | _ => rfl

/-- A file of another call goes on to hold what it held. -/
theorem file?_eq_some
    (step : Step space call after next)
    (place : IsPlace call.names)
    {others : List String}
    (other : IsPlace others)
    (different : others ≠ call.names)
    {content : ByteArray}
    (file : space.file? others = some content) :
    after.file? others = some content := by
  cases step with
  | made _ prepared =>
      obtain ⟨locations, -, rfl⟩ := Workspace.eq_withDirectories_of_prepared? prepared
      exact Workspace.file?_of_grows (space.disk.files_withDirectories locations)
        (space.disk.grows_withDirectories locations) file
  | opened _ written | filled _ _ written =>
      rw [Workspace.file?_of_write?_of_ne place other different written, file]
  | failed _ _ files grows => exact Workspace.file?_of_grows files grows file
  | _ => exact file

/-- While a call does not write its file, that file goes on to hold what it held. -/
theorem own_file?_eq_some
    (step : Step space call after next)
    (settled : next.stage.lags = false)
    {content : ByteArray}
    (file : space.file? call.names = some content) :
    after.file? call.names = some content := by
  cases step with
  | made _ prepared =>
      obtain ⟨locations, -, rfl⟩ := Workspace.eq_withDirectories_of_prepared? prepared
      exact Workspace.file?_of_grows (space.disk.files_withDirectories locations)
        (space.disk.grows_withDirectories locations) file
  | opened _ _ | filled _ _ _ => cases settled
  | failed _ _ files grows => exact Workspace.file?_of_grows files grows file
  | _ => exact file

end Step

/-- The call has seen that its file holds its content. -/
def HasSeen (call : Call) : Prop :=
  call.found = some call.content ∧ call.blind = false

/-- What a call says of its file is right: that it is unchanged when the call has seen so. -/
def IsRight (call : Call) : Prop :=
  match call.stage with
  | .fetching _ | .recalling | .looking => call.blind = false
  | .making | .putting | .filling _ => ¬ call.HasSeen
  | .noting outcome | .returned (.ok outcome) => outcome = .unchanged ↔ call.HasSeen
  | .returned (.error _) => True

/-- What a call relies on, or has brought about, is so. -/
def Holds (call : Call) (space : Workspace) : Prop :=
  match call.stage with
  | .fetching _ | .recalling | .making | .putting | .returned (.error _) => True
  | .looking => space.memory? call.names = none
  | .filling part => space.file? call.names = some part
  | .noting _ => space.file? call.names = some call.content
  | .returned (.ok _) =>
      space.memory? call.names = some call.content ∧ space.file? call.names = some call.content

end Call

/-- A step that was taken. -/
structure Entry where
  /-- The place in the list of calls of the call that took it. -/
  caller : Nat
  /-- The state before. -/
  before : Workspace
  /-- The state after. -/
  after : Workspace

/-- What calls that start one by one and run side by side may do, with the steps taken. A call
starts when the earlier calls for the same file have returned. -/
inductive Run (first : Workspace) : List Entry → Workspace → List Call → Prop
  /-- Nothing was called. -/
  | start : Run first [] first []
  /-- A content is to be written to a file. -/
  | write {history : List Entry} {space : Workspace} {calls : List Call}
      (run : Run first history space calls)
      (names : List String)
      (content : ByteArray)
      (place : IsPlace names)
      (alone : ∀ other ∈ calls, other.names = names → other.IsDone) :
      Run first history space (calls ++ [.write names content])
  /-- A source is to be copied to a file. -/
  | copy {history : List Entry} {space : Workspace} {calls : List Call}
      (run : Run first history space calls)
      (source : String)
      (names : List String)
      (place : IsPlace names)
      (alone : ∀ other ∈ calls, other.names = names → other.IsDone) :
      Run first history space (calls ++ [.copy source names])
  /-- One of the calls takes a step. -/
  | step {history : List Entry} {space after : Workspace} {calls : List Call}
      {caller : Nat} {call next : Call}
      (run : Run first history space calls)
      (turn : calls[caller]? = some call)
      (taken : call.Step space after next) :
      Run first (history ++ [⟨caller, space, after⟩]) after (calls.set caller next)

/-- Whether no call after one of them is for a file with some names. -/
def IsLatest (calls : List Call) (index : Nat) (names : List String) : Prop :=
  ∀ later, index < later → ∀ other, calls[later]? = some other → other.names ≠ names

/-- What a run has made of the files and of the memory, and what its calls told. -/
structure Sound (history : List Entry) (space : Workspace) (calls : List Call) : Prop where
  /-- What is remembered of a file is what it holds, unless a call has written to it and has yet
  to take note. -/
  memory : ∀ names, IsPlace names →
    (∀ call ∈ calls, call.names = names → call.stage.lags = false) →
    ∀ content, space.memory? names = some content → space.file? names = some content
  /-- A call tells whether its file held the content already, when it could look. -/
  outcome : ∀ call ∈ calls, ∀ outcome, call.stage = .returned (.ok outcome) →
    (outcome = .unchanged ↔ call.found = some call.content ∧ call.blind = false)
  /-- After a call without an error, its file holds the content until a later call for that
  file starts. -/
  content : ∀ index call, calls[index]? = some call → IsLatest calls index call.names →
    ∀ outcome, call.stage = .returned (.ok outcome) →
    space.file? call.names = some call.content
  /-- A call that returned an error has changed neither a file nor the memory. -/
  failure : ∀ entry ∈ history, ∀ call, calls[entry.caller]? = some call →
    ∀ error, call.stage = .returned (.error error) →
    entry.after.disk.files = entry.before.disk.files ∧ entry.after.writer = entry.before.writer
  /-- A call changes its own file alone, and what is remembered of that. -/
  place : ∀ entry ∈ history, ∀ call, calls[entry.caller]? = some call →
    (∀ location, location ≠ entry.before.disk.locate (entry.before.path call.names) →
      entry.after.disk.content? location = entry.before.disk.content? location) ∧
    ∀ names, IsPlace names → names ≠ call.names →
      entry.after.memory? names = entry.before.memory? names

/-! ## What every state of a run keeps -/

/-- The invariant of a run: what its calls rely on besides what they tell. -/
structure Kept (history : List Entry) (space : Workspace) (calls : List Call) : Prop where
  places : ∀ call ∈ calls, IsPlace call.names
  callers : ∀ entry ∈ history, entry.caller < calls.length
  alone : ∀ earlier later : Nat, earlier < later → ∀ call other : Call,
    calls[earlier]? = some call → calls[later]? = some other →
    call.names = other.names → call.IsDone
  right : ∀ call ∈ calls, call.IsRight
  holds : ∀ index call, calls[index]? = some call → IsLatest calls index call.names →
    call.Holds space
  memory : ∀ names, IsPlace names →
    (∀ call ∈ calls, call.names = names → call.stage.lags = false) →
    ∀ content, space.memory? names = some content → space.file? names = some content
  quiet : ∀ entry ∈ history, ∀ call, calls[entry.caller]? = some call →
    call.stage.isQuiet = true →
    entry.after.disk.files = entry.before.disk.files ∧ entry.after.writer = entry.before.writer
  place : ∀ entry ∈ history, ∀ call, calls[entry.caller]? = some call →
    (∀ location, location ≠ entry.before.disk.locate (entry.before.path call.names) →
      entry.after.disk.content? location = entry.before.disk.content? location) ∧
    ∀ names, IsPlace names → names ≠ call.names →
      entry.after.memory? names = entry.before.memory? names

namespace Call

variable {space after : Workspace} {call next : Call}

/-- What a call relies on survives the steps of a call for another file. -/
theorem Holds.of_step
    {other : Call}
    (holds : other.Holds space)
    (step : Step space call after next)
    (place : IsPlace call.names)
    (others : IsPlace other.names)
    (different : other.names ≠ call.names) :
    other.Holds after := by
  have memory := step.memory?_eq place others different
  have file (content : ByteArray) (there : space.file? other.names = some content) :
      after.file? other.names = some content :=
    step.file?_eq_some place others different there
  unfold Holds at holds ⊢
  split at holds <;> simp_all

/-- What a call relies on when it has taken a step. -/
theorem Step.holds
    (step : Step space call after next)
    (place : IsPlace call.names)
    (holds : call.Holds space)
    (honest : ∀ content, call.stage.lags = false →
      space.memory? call.names = some content → space.file? call.names = some content) :
    next.Holds after := by
  cases step with
  | known stage memory => exact ⟨memory, honest _ (by rw [stage]; rfl) memory⟩
  | unknown _ memory => exact memory
  | confirmed _ file => exact file
  | opened _ written | filled _ _ written => exact Workspace.file?_of_write? written
  | full stage =>
      rw [Holds, stage] at holds
      exact holds
  | noted stage =>
      rw [Holds, stage] at holds
      exact ⟨(Workspace.memory?_remember place place _).trans (if_pos rfl), holds⟩
  | _ => trivial

/-- What a call says of its file is right when it has taken a step. -/
theorem Step.isRight
    (step : Step space call after next)
    (right : call.IsRight)
    (honest : ∀ content, call.stage.lags = false →
      space.memory? call.names = some content → space.file? call.names = some content) :
    next.IsRight := by
  cases step with
  | fetched stage _ | unknown stage _ | made stage _ | opened stage _ | filled stage _ _
  | noted stage =>
      rw [IsRight, stage] at right
      exact right
  | known stage memory =>
      rw [IsRight, stage] at right
      exact iff_of_true rfl ⟨honest _ (by rw [stage]; rfl) memory, right⟩
  | outdated stage memory different =>
      have file := honest _ (by rw [stage]; rfl) memory
      exact fun seen => different (Option.some.inj (file.symm.trans seen.1))
  | confirmed stage file =>
      rw [IsRight, stage] at right
      exact iff_of_true rfl ⟨file, right⟩
  | differs _ file => exact fun seen => file seen.1
  | unread _ => exact fun seen => Bool.noConfusion seen.2
  | full stage =>
      rw [IsRight, stage] at right
      exact iff_of_false Outcome.noConfusion right
  | failed _ _ _ _ => trivial

/-- The memory of the file of a call that takes a step, after that step. -/
theorem Step.own_memory
    (step : Step space call after next)
    (place : IsPlace call.names)
    (holds : call.Holds space)
    (honest : ∀ content, call.stage.lags = false →
      space.memory? call.names = some content → space.file? call.names = some content)
    (settled : next.stage.lags = false)
    {content : ByteArray}
    (memory : after.memory? call.names = some content) :
    after.file? call.names = some content := by
  cases step with
  | noted stage =>
      rw [Workspace.memory?_remember place place, if_pos rfl] at memory
      rw [Holds, stage] at holds
      exact Option.some.inj memory ▸ holds
  | opened _ _ | filled _ _ _ | full _ => cases settled
  | made stage prepared =>
      exact (Step.made stage prepared).own_file?_eq_some settled
        (honest content (by rw [stage]; rfl) memory)
  | failed error stage files grows =>
      refine (Step.failed error stage files grows).own_file?_eq_some settled
        (honest content ?_ memory)
      revert stage
      cases call.stage <;> simp [Stage.mayFail, Stage.lags]
  | fetched stage _ | known stage _ | outdated stage _ _ | unknown stage _ | confirmed stage _
  | differs stage _ | unread stage =>
      exact honest content (by rw [stage]; rfl) memory

end Call

namespace Kept

variable {history : List Entry} {space after : Workspace} {calls : List Call}

theorem mem_append_cases
    {call other : Call}
    {index : Nat}
    (found : (calls ++ [call])[index]? = some other) :
    calls[index]? = some other ∧ index < calls.length ∨ other = call ∧ index = calls.length := by
  grind

theorem start (disk : Disk) (root : String) : Kept [] ⟨disk, .new root⟩ [] := by
  constructor
  case memory => exact fun names place _ => Workspace.isHonest_new disk root names place
  all_goals simp

/-- A call that starts breaks nothing. -/
theorem append
    (kept : Kept history space calls)
    (call : Call)
    (place : IsPlace call.names)
    (alone : ∀ other ∈ calls, other.names = call.names → other.IsDone)
    (right : call.IsRight)
    (holds : call.Holds space) :
    Kept history space (calls ++ [call]) where
  places other member := by
    rcases List.mem_append.mp member with old | new
    · exact kept.places other old
    · exact List.mem_singleton.mp new ▸ place
  callers entry member := by
    rw [List.length_append]
    exact Nat.lt_add_right 1 (kept.callers entry member)
  alone earlier later before one other found there same := by
    rcases mem_append_cases found with ⟨old, _⟩ | ⟨rfl, last⟩
    · rcases mem_append_cases there with ⟨also, _⟩ | ⟨rfl, _⟩
      · exact kept.alone earlier later before one other old also same
      · exact alone one (List.mem_of_getElem? old) same
    · rcases mem_append_cases there with ⟨_, inside⟩ | ⟨_, also⟩ <;> omega
  right other member := by
    rcases List.mem_append.mp member with old | new
    · exact kept.right other old
    · exact List.mem_singleton.mp new ▸ right
  holds index other found latest := by
    rcases mem_append_cases found with ⟨old, _⟩ | ⟨rfl, _⟩
    · refine kept.holds index other old fun later before one there => latest later before one ?_
      exact List.getElem?_append_left (List.getElem?_eq_some_iff.mp there).1 ▸ there
    · exact holds
  memory names named settled :=
    kept.memory names named fun other member => settled other (List.mem_append_left _ member)
  quiet entry member other found := by
    rw [List.getElem?_append_left (kept.callers entry member)] at found
    exact kept.quiet entry member other found
  place entry member other found := by
    rw [List.getElem?_append_left (kept.callers entry member)] at found
    exact kept.place entry member other found

variable {call next : Call} {caller : Nat}

/-- The other calls for the file of a call that takes a step have returned before. -/
theorem isDone_of_step
    (kept : Kept history space calls)
    (turn : calls[caller]? = some call)
    (taken : call.Step space after next)
    {index : Nat}
    {other : Call}
    (found : calls[index]? = some other)
    (elsewhere : index ≠ caller)
    (same : other.names = call.names) :
    index < caller ∧ other.IsDone := by
  rcases Nat.lt_or_gt_of_ne elsewhere with before | after
  · exact ⟨before, kept.alone index caller before other call found turn same⟩
  · exact absurd (kept.alone caller index after call other turn found same.symm) taken.not_isDone

theorem isLatest_of_step
    (kept : Kept history space calls)
    (turn : calls[caller]? = some call)
    (taken : call.Step space after next) :
    IsLatest calls caller call.names := by
  intro later before other found same
  exact absurd (kept.isDone_of_step turn taken found (Nat.ne_of_gt before) same).1 (by omega)

/-- The memory of the file of a call that takes a step is what the file holds, unless that call
has written to it. -/
theorem honest_of_step
    (kept : Kept history space calls)
    (turn : calls[caller]? = some call)
    (taken : call.Step space after next)
    (content : ByteArray)
    (settled : call.stage.lags = false)
    (memory : space.memory? call.names = some content) :
    space.file? call.names = some content := by
  refine kept.memory _ (kept.places call (List.mem_of_getElem? turn)) ?_ content memory
  intro other member same
  obtain ⟨index, found⟩ := List.mem_iff_getElem?.mp member
  by_cases here : index = caller
  · rw [here, turn] at found
    exact Option.some.inj found ▸ settled
  · obtain ⟨_, result, done⟩ := kept.isDone_of_step turn taken found here same
    rw [done]
    rfl

theorem set_cases
    {other : Call}
    {index : Nat}
    (found : (calls.set caller next)[index]? = some other) :
    index = caller ∧ other = next ∨ index ≠ caller ∧ calls[index]? = some other := by
  grind

/-- A step of a call leaves every call its file. -/
theorem names_set
    (turn : calls[caller]? = some call)
    (taken : call.Step space after next)
    {other : Call}
    {index : Nat}
    (found : (calls.set caller next)[index]? = some other) :
    ∃ old, calls[index]? = some old ∧ old.names = other.names := by
  rcases set_cases found with ⟨rfl, rfl⟩ | ⟨_, old⟩
  · exact ⟨call, turn, taken.names_eq.symm⟩
  · exact ⟨other, old, rfl⟩

theorem isLatest_set
    (turn : calls[caller]? = some call)
    (taken : call.Step space after next)
    {names : List String}
    {index : Nat}
    (latest : IsLatest (calls.set caller next) index names) :
    IsLatest calls index names := by
  intro later before other found same
  by_cases here : later = caller
  · refine latest later before next ?_ ?_
    · rw [here, List.getElem?_set_self (List.getElem?_eq_some_iff.mp turn).1]
    · rw [here, turn] at found
      rw [taken.names_eq, Option.some.inj found, same]
  · refine latest later before other ?_ same
    rw [List.getElem?_set_ne (Ne.symm here), found]

/-- A step breaks nothing. -/
theorem step
    (kept : Kept history space calls)
    (turn : calls[caller]? = some call)
    (taken : call.Step space after next) :
    Kept (history ++ [⟨caller, space, after⟩]) after (calls.set caller next) := by
  have member := List.mem_of_getElem? turn
  have own : IsPlace call.names := kept.places call member
  have honest := kept.honest_of_step turn taken
  have holds : call.Holds space :=
    kept.holds caller call turn (kept.isLatest_of_step turn taken)
  have places : ∀ other ∈ calls.set caller next, IsPlace other.names := by
    intro other member
    obtain ⟨index, found⟩ := List.mem_iff_getElem?.mp member
    obtain ⟨old, there, same⟩ := names_set turn taken found
    exact same ▸ kept.places old (List.mem_of_getElem? there)
  constructor
  case places => exact places
  case callers =>
    intro entry member
    rw [List.length_set]
    rcases List.mem_append.mp member with old | new
    · exact kept.callers entry old
    · exact List.mem_singleton.mp new ▸ (List.getElem?_eq_some_iff.mp turn).1
  case alone =>
    intro earlier later before one other found there same
    obtain ⟨second, also, sameSecond⟩ := names_set turn taken there
    rcases set_cases found with ⟨rfl, rfl⟩ | ⟨_, old⟩
    · have done := kept.alone earlier later before call second turn also
        (by rw [sameSecond, ← same, taken.names_eq])
      exact absurd done taken.not_isDone
    · exact kept.alone earlier later before one second old also (same.trans sameSecond.symm)
  case right =>
    intro other among
    obtain ⟨index, found⟩ := List.mem_iff_getElem?.mp among
    rcases set_cases found with ⟨_, rfl⟩ | ⟨_, old⟩
    · exact taken.isRight (kept.right call member) honest
    · exact kept.right other (List.mem_of_getElem? old)
  case holds =>
    intro index other found latest
    rcases set_cases found with ⟨rfl, rfl⟩ | ⟨elsewhere, old⟩
    · exact taken.holds own holds honest
    · have latest := isLatest_set turn taken latest
      have different : other.names ≠ call.names := by
        intro same
        have before := (kept.isDone_of_step turn taken old elsewhere same).1
        exact latest caller before call turn same.symm
      exact (kept.holds index other old latest).of_step taken own
        (kept.places other (List.mem_of_getElem? old)) different
  case memory =>
    intro names named settled content remembered
    by_cases same : names = call.names
    · subst same
      have quiet : next.stage.lags = false :=
        settled next (List.mem_set (List.getElem?_eq_some_iff.mp turn).1 next) taken.names_eq
      exact taken.own_memory own holds honest quiet remembered
    · rw [taken.memory?_eq own named same] at remembered
      refine taken.file?_eq_some own named same (kept.memory names named ?_ content remembered)
      intro other among sameNames
      obtain ⟨index, found⟩ := List.mem_iff_getElem?.mp among
      refine settled other (List.mem_of_getElem? (i := index) ?_) sameNames
      rw [List.getElem?_set_ne, found]
      rintro rfl
      rw [turn] at found
      exact same (by rw [Option.some.inj found, sameNames])
  case quiet =>
    intro entry among other found silent
    rcases List.mem_append.mp among with old | new
    · rcases set_cases found with ⟨here, rfl⟩ | ⟨_, there⟩
      · exact kept.quiet entry old call (here ▸ turn) (taken.isQuiet silent)
      · exact kept.quiet entry old other there silent
    · obtain rfl := List.mem_singleton.mp new
      rcases set_cases found with ⟨_, rfl⟩ | ⟨elsewhere, _⟩
      · exact taken.eq_of_isQuiet silent
      · exact absurd rfl elsewhere
  case place =>
    intro entry among other found
    obtain ⟨old, there, same⟩ := names_set turn taken found
    rw [← same]
    rcases List.mem_append.mp among with before | new
    · exact kept.place entry before old there
    · obtain rfl := List.mem_singleton.mp new
      rw [turn] at there
      obtain rfl := Option.some.inj there
      exact ⟨fun _ away => taken.content?_eq away,
        fun _ named different => taken.memory?_eq own named different⟩

end Kept

namespace Run

variable {first space after : Workspace} {history : List Entry} {calls : List Call}

theorem kept
    {disk : Disk}
    {root : String}
    (run : Run ⟨disk, .new root⟩ history space calls) :
    Kept history space calls := by
  induction run with
  | start => exact .start disk root
  | write _ names content place alone inductionHypothesis =>
      exact inductionHypothesis.append (.write names content) place alone rfl trivial
  | copy _ source names place alone inductionHypothesis =>
      exact inductionHypothesis.append (.copy source names) place alone rfl trivial
  | step _ turn taken inductionHypothesis => exact inductionHypothesis.step turn taken

theorem sound
    {disk : Disk}
    {root : String}
    (run : Run ⟨disk, .new root⟩ history space calls) :
    Sound history space calls where
  memory := run.kept.memory
  outcome call member outcome returned := by
    have right := run.kept.right call member
    rwa [Call.IsRight, returned] at right
  content index call found latest outcome returned := by
    have holds := run.kept.holds index call found latest
    rw [Call.Holds, returned] at holds
    exact holds.2
  failure entry member call found error returned :=
    run.kept.quiet entry member call found (by rw [returned]; rfl)
  place := run.kept.place

/-- When no call is on its way, the memory agrees with the disk. -/
theorem isHonest
    {disk : Disk}
    {root : String}
    (run : Run ⟨disk, .new root⟩ history space calls)
    (idle : ∀ call ∈ calls, call.IsDone) :
    space.IsHonest := by
  refine fun names place content => run.kept.memory names place ?_ content
  intro call member _
  obtain ⟨result, done⟩ := idle call member
  rw [done]
  rfl

end Run

/-! ## Calls that run one after the other -/

namespace Call

/-- Several steps of a call that no other call interrupts. -/
inductive Steps : Workspace → Call → Workspace → Call → Prop
  /-- No step is taken. -/
  | rest (space : Workspace) (call : Call) : Steps space call space call
  /-- One step is taken, and then others. -/
  | step {space after last : Workspace} {call next final : Call}
      (taken : Step space call after next)
      (more : Steps after next last final) :
      Steps space call last final

theorem Step.alone
    {space after : Workspace}
    {call next : Call}
    (taken : Step space call after next) :
    Steps space call after next :=
  .step taken (.rest after next)

/-- Storing a content is what is left of a call that has not seen it in its file. -/
theorem steps_store (space : Workspace) (call : Call) (making : call.stage = .making) :
    Steps space call (space.store (space.path call.names) call.content).2
      { call with
        stage := .returned (space.store (space.path call.names) call.content).1 } := by
  rcases space.store_cases (space.path call.names) call.content with
    ⟨error, locations, -, stored⟩ | ⟨ready, done, prepared, written, stored⟩
  · rw [stored]
    exact (Step.failed error (by rw [making]; rfl) (Disk.files_withDirectories _ _)
      (Disk.grows_withDirectories _ _)).alone
  · rw [stored]
    -- The file is filled with one piece, the whole content.
    have whole : ByteArray.empty ++ call.content = call.content := ByteArray.empty_append
    obtain ⟨emptied, opened⟩ := Disk.exists_write?_eq written .empty
    have filled : emptied.write? (space.path call.names) (.empty ++ call.content) = some done := by
      rw [whole, Disk.write?_write? opened, written]
    exact .step (.made making prepared) <| .step (.opened rfl opened) <|
      .step (.filled rfl (by rw [whole, ByteArray.append_empty]) filled) <|
      .step (.full (by rw [whole])) (Step.noted rfl).alone

/-- Writing a content is a call that no other call interrupts. -/
theorem steps_write (space : Workspace) (call : Call) (recalling : call.stage = .recalling) :
    let written := space.write (ofComponents call.names) call.content
    ∃ last, Steps space call written.2 last ∧ last.names = call.names ∧
      last.stage = .returned written.1 := by
  dsimp only
  rw [Workspace.write_ofComponents]
  cases known : space.memory? call.names with
  | some old =>
      by_cases same : old = call.content
      · subst same
        simp only [beq_self_eq_true, if_true]
        exact ⟨_, (Step.known recalling known).alone, rfl, rfl⟩
      · simp only [if_neg (mt beq_iff_eq.mp same)]
        exact ⟨_, .step (.outdated recalling known same) (steps_store space _ rfl), rfl, rfl⟩
  | none =>
      have looking := Step.unknown recalling known
      by_cases seen : space.shown? call.names = some call.content
      · simp only [seen, beq_self_eq_true, if_true]
        exact ⟨_, .step looking (.step (.confirmed rfl (Workspace.file?_of_shown? seen))
          (Step.noted rfl).alone), rfl, rfl⟩
      · simp only [if_neg (mt beq_iff_eq.mp seen)]
        exact ⟨_, .step looking (.step (.unread rfl) (steps_store space _ rfl)), rfl, rfl⟩

/-- Copying a source is a call that no other call interrupts. -/
theorem steps_copy (space : Workspace) (source : String) (names : List String) :
    let copied := space.copy source (ofComponents names)
    ∃ last, Steps space (copy source names) copied.2 last ∧ last.names = names ∧
      last.stage = .returned copied.1 := by
  dsimp only
  unfold Workspace.copy
  cases read : space.disk.read? source with
  | none =>
      exact ⟨_, (Step.failed (.sourceMissing source) rfl rfl (.refl space.disk)).alone, rfl, rfl⟩
  | some content =>
      obtain ⟨last, steps, same, stage⟩ :=
        steps_write space { copy source names with content, stage := .recalling } rfl
      exact ⟨last, .step (.fetched rfl read) steps, same, stage⟩

end Call

/-- What a writer is asked for. -/
inductive Request
  /-- A file is to hold a content. -/
  | write (names : List String) (content : ByteArray)
  /-- A file is to hold what a source holds. -/
  | copy (source : String) (names : List String)

namespace Request

/-- The names that lead to the file. -/
def names : Request → List String
  | .write names _ | .copy _ names => names

/-- The call for a request. -/
def call : Request → Call
  | .write names content => .write names content
  | .copy source names => .copy source names

/-- Do what is asked, without an interruption. -/
def perform (space : Workspace) : Request → Except BuildError Outcome × Workspace
  | .write names content => space.write (ofComponents names) content
  | .copy source names => space.copy source (ofComponents names)

/-- Do what is asked, one request after the other. -/
def performAll (space : Workspace) :
    List Request → List (Except BuildError Outcome) × Workspace
  | [] => ([], space)
  | request :: requests =>
      let performed := request.perform space
      let others := performAll performed.2 requests
      (performed.1 :: others.1, others.2)

theorem perform_congr
    {space other : Workspace}
    (disk : other.disk = space.disk)
    (root : other.writer.root = space.writer.root)
    (honest : space.IsHonest)
    (also : other.IsHonest)
    (request : Request)
    (place : IsPlace request.names)
    (opened : space.isOpen request.names = true) :
    (request.perform other).1 = (request.perform space).1 ∧
      (request.perform other).2.disk = (request.perform space).2.disk := by
  cases request with
  | write names content => exact Workspace.write_congr disk root honest also place opened content
  | copy source names =>
      simp only [perform, Workspace.copy, disk]
      split
      · exact ⟨rfl, disk⟩
      · exact Workspace.write_congr disk root honest also place opened _

/-- Doing what is asked is a call that no other call interrupts. -/
theorem steps_perform (space : Workspace) (request : Request) :
    ∃ last, Call.Steps space request.call (request.perform space).2 last ∧
      last.names = request.names ∧ last.stage = .returned (request.perform space).1 := by
  cases request with
  | write names content => exact Call.steps_write space (.write names content) rfl
  | copy source names => exact Call.steps_copy space source names

end Request

namespace Run

variable {first space after : Workspace} {history : List Entry} {calls : List Call}

theorem steps
    {call final : Call}
    {caller : Nat}
    (run : Run first history space calls)
    (turn : calls[caller]? = some call)
    (taken : call.Steps space after final) :
    ∃ more, Run first (history ++ more) after (calls.set caller final) := by
  induction taken generalizing history calls with
  | rest space call =>
      obtain ⟨inside, rfl⟩ := List.getElem?_eq_some_iff.mp turn
      exact ⟨[], by rwa [List.append_nil, List.set_getElem_self]⟩
  | step step _ inductionHypothesis =>
      have inside := (List.getElem?_eq_some_iff.mp turn).1
      obtain ⟨more, reached⟩ :=
        inductionHypothesis (run.step turn step) (List.getElem?_set_self inside)
      rw [List.append_assoc, List.set_set] at reached
      exact ⟨_, reached⟩

/-- When no call is on its way, a request is a call of its own. -/
theorem perform
    (run : Run first history space calls)
    (idle : ∀ call ∈ calls, call.IsDone)
    (request : Request)
    (place : IsPlace request.names) :
    ∃ more call, Run first (history ++ more) (request.perform space).2 (calls ++ [call]) ∧
      call.names = request.names ∧ call.stage = .returned (request.perform space).1 := by
  have started : Run first history space (calls ++ [request.call]) := by
    have alone (names : List String) : ∀ other ∈ calls, other.names = names → other.IsDone :=
      fun other member _ => idle other member
    cases request with
    | write names content => exact run.write names content place (alone names)
    | copy source names => exact run.copy source names place (alone names)
  obtain ⟨last, taken, same, stage⟩ := request.steps_perform space
  obtain ⟨more, reached⟩ := started.steps List.getElem?_concat_length taken
  rw [List.set_append_right _ _ (Nat.le_refl _), Nat.sub_self, List.set_cons_zero] at reached
  exact ⟨more, last, reached, same, stage⟩

theorem root_eq (run : Run first history space calls) :
    space.writer.root = first.writer.root := by
  induction run with
  | start => rfl
  | step _ _ taken inductionHypothesis => exact taken.root_eq.trans inductionHypothesis
  | _ => assumption

theorem grows (run : Run first history space calls) : first.disk.Grows space.disk := by
  induction run with
  | start => exact .refl first.disk
  | step _ _ taken inductionHypothesis => exact inductionHypothesis.trans taken.grows
  | _ => assumption

/-- The files that can be looked into are the same throughout a run. -/
theorem isOpen_eq (run : Run first history space calls) (names : List String) :
    space.isOpen names = first.isOpen names := by
  rw [Workspace.isOpen, Workspace.isOpen, run.grows.closed, run.grows.locate, Workspace.path,
    run.root_eq, Workspace.path]

/-- Two writers over the same disk, neither of them with a call on its way, do the same for any
requests for files that can be looked into. -/
theorem performAll_congr
    {disk disk' : Disk}
    {root : String}
    {history' : List Entry}
    {space' : Workspace}
    {calls' : List Call}
    (run : Run ⟨disk, .new root⟩ history space calls)
    (run' : Run ⟨disk', .new root⟩ history' space' calls')
    (idle : ∀ call ∈ calls, call.IsDone)
    (idle' : ∀ call ∈ calls', call.IsDone)
    (same : space'.disk = space.disk)
    (requests : List Request)
    (places : ∀ request ∈ requests, IsPlace request.names)
    (opened : ∀ request ∈ requests, Workspace.isOpen ⟨disk, .new root⟩ request.names = true) :
    (Request.performAll space' requests).1 = (Request.performAll space requests).1 ∧
      (Request.performAll space' requests).2.disk =
        (Request.performAll space requests).2.disk := by
  induction requests generalizing history history' space space' calls calls' with
  | nil => exact ⟨rfl, same⟩
  | cons request requests inductionHypothesis =>
      have place := places request List.mem_cons_self
      have root := run'.root_eq.trans run.root_eq.symm
      have open' := (run.isOpen_eq _).trans (opened request List.mem_cons_self)
      obtain ⟨result, disk⟩ :=
        request.perform_congr same root (run.isHonest idle) (run'.isHonest idle') place open'
      obtain ⟨more, call, reached, _, stage⟩ := run.perform idle request place
      obtain ⟨more', call', reached', _, stage'⟩ := run'.perform idle' request place
      have done : ∀ other ∈ calls ++ [call], other.IsDone := by
        simpa [or_imp, forall_and] using ⟨idle, _, stage⟩
      have done' : ∀ other ∈ calls' ++ [call'], other.IsDone := by
        simpa [or_imp, forall_and] using ⟨idle', _, stage'⟩
      obtain ⟨results, last⟩ := inductionHypothesis reached reached' done done' disk
        (fun other member => places other (List.mem_cons_of_mem request member))
        (fun other member => opened other (List.mem_cons_of_mem request member))
      exact ⟨by simp only [Request.performAll, result, results], last⟩

end Run

/-- The writer tells changed contents from unchanged ones, however its calls are interleaved, as
long as nobody else writes below its root and no two calls for one file run at a time. The
memory holds contents where a digest without collisions would do.

In every state that a run reaches, what is remembered of a file is what it holds, unless a call has
written to it and has yet to take note; the calls that have returned have told the truth, as far
as they could look, and done what they had to and nothing else. What a writer answers when no call
is on its way, a fresh writer over the same disk answers too for files that can be looked into.
And a request that nothing interrupts is such a call. -/
theorem change_detection (disk : Disk) (root : String) :
    (∀ history space calls, Run ⟨disk, .new root⟩ history space calls →
      Sound history space calls) ∧
    (∀ history space calls, Run ⟨disk, .new root⟩ history space calls →
      (∀ call ∈ calls, call.IsDone) →
      (∀ requests : List Request,
        (∀ request ∈ requests, IsPlace request.names ∧ space.isOpen request.names = true) →
          (Request.performAll ⟨space.disk, .new root⟩ requests).1 =
              (Request.performAll space requests).1 ∧
            (Request.performAll ⟨space.disk, .new root⟩ requests).2.disk =
              (Request.performAll space requests).2.disk) ∧
      ∀ request : Request, IsPlace request.names →
        ∃ more call, Run ⟨disk, .new root⟩ (history ++ more) (request.perform space).2
            (calls ++ [call]) ∧
          call.names = request.names ∧ call.stage = .returned (request.perform space).1) := by
  refine ⟨fun _ _ _ run => run.sound, fun history space calls run idle => ⟨?_, ?_⟩⟩
  · intro requests asked
    refine run.performAll_congr .start idle (by simp) rfl requests
      (fun request member => (asked request member).1) fun request member => ?_
    rw [← run.isOpen_eq]
    exact (asked request member).2
  · exact fun request place => run.perform idle request place

/-- A page is written twice and then changed, in a directory that holds nothing at first. -/
theorem change_detection_page :
    let start : Workspace := ⟨.empty, .new "out"⟩
    let old := Request.write ["page.html"] "old".toUTF8
    let new := Request.write ["page.html"] "new".toUTF8
    (Request.performAll start [old, old, new]).1 =
        [.ok .written, .ok .unchanged, .ok .written] ∧
      (Request.performAll (old.perform start).2 [new, old]).1 =
        (Request.performAll ⟨(old.perform start).2.disk, .new "out"⟩ [new, old]).1 ∧
      ∃ history calls, Run start history (old.perform start).2 calls ∧
        Sound history (old.perform start).2 calls := by
  intro start old new
  have place : IsPlace ["page.html"] := by decide
  obtain ⟨sound, resting⟩ := change_detection .empty "out"
  obtain ⟨history, call, run, _, stage⟩ := (resting [] start [] .start (by simp)).2 old place
  have idle : ∀ other ∈ [] ++ [call], other.IsDone := by simpa using ⟨_, stage⟩
  have open' : (old.perform start).2.isOpen ["page.html"] = true := run.isOpen_eq _
  have fresh := (resting _ _ _ run idle).1 [new, old] (by
    simpa using ⟨⟨place, open'⟩, place, open'⟩)
  exact ⟨by decide, fresh.1.symm, _, _, run, sound _ _ _ run⟩

/-! ### What the writer does not tell -/

/-- A page that can be written but not looked into. -/
def closedPage : Workspace where
  disk := { Disk.empty with files := [(["page.html"], "old".toUTF8)], closed := [["page.html"]] }
  writer := .new ""

/-- Such a page is written although it holds the content already. -/
theorem write_closedPage :
    closedPage.file? ["page.html"] = some "old".toUTF8 ∧
      (closedPage.write "page.html" "old".toUTF8).1 = .ok .written := by
  decide

/-- While a file is written anew, it is empty for a moment, and its old content is remembered. -/
theorem Run.exists_emptied
    {first space : Workspace}
    {history : List Entry}
    {calls : List Call}
    {names : List String}
    {old new : ByteArray}
    {ready emptied : Disk}
    (run : Run first history space calls)
    (idle : ∀ call ∈ calls, call.IsDone)
    (place : IsPlace names)
    (known : space.memory? names = some old)
    (different : old ≠ new)
    (prepared : space.prepared? (space.path names) = some ready)
    (opened : ready.write? (space.path names) .empty = some emptied) :
    ∃ more others, Run first (history ++ more) { space with disk := emptied } others ∧
      Workspace.memory? { space with disk := emptied } names = some old ∧
      Workspace.file? { space with disk := emptied } names = some .empty := by
  have started := run.write names new place fun other member _ => idle other member
  have taken : Call.Steps space (.write names new) { space with disk := emptied }
      { Call.write names new with found := space.file? names, stage := .filling .empty } :=
    .step (.outdated rfl known different) <| .step (.made rfl prepared) <|
      Call.Step.alone (.opened rfl opened)
  obtain ⟨more, reached⟩ := started.steps List.getElem?_concat_length taken
  exact ⟨more, _, reached, known,
    @Workspace.file?_of_write? { space with disk := ready } names .empty emptied opened⟩

/-- The page that is written twice is empty for a moment. -/
theorem exists_emptied_page :
    ∃ history space calls, Run ⟨.empty, .new "out"⟩ history space calls ∧
      space.memory? ["page.html"] = some "old".toUTF8 ∧
      space.file? ["page.html"] = some .empty := by
  have place : IsPlace ["page.html"] := by decide
  obtain ⟨history, call, run, _, stage⟩ := Run.start.perform (by simp)
    (.write ["page.html"] "old".toUTF8) place
  have known : (Request.perform ⟨.empty, .new "out"⟩
      (.write ["page.html"] "old".toUTF8)).2.memory? ["page.html"] = some "old".toUTF8 := by
    decide
  have ready : (((Request.perform ⟨.empty, .new "out"⟩
      (.write ["page.html"] "old".toUTF8)).2.prepared? "out/page.html").bind fun disk =>
        disk.write? "out/page.html" .empty).isSome = true := by decide
  have path : (Request.perform ⟨.empty, .new "out"⟩
      (.write ["page.html"] "old".toUTF8)).2.path ["page.html"] = "out/page.html" := by
    decide
  have different : "old".toUTF8 ≠ "new".toUTF8 := by decide
  obtain ⟨emptied, done⟩ := Option.isSome_iff_exists.mp ready
  obtain ⟨disk, prepared, opened⟩ := Option.bind_eq_some_iff.mp done
  rw [← path] at prepared opened
  obtain ⟨more, calls, reached, remembered, empty⟩ := run.exists_emptied
    (by simpa using ⟨_, stage⟩) place known different prepared opened
  exact ⟨_, _, _, reached, remembered, empty⟩

/-- A slash behind the name of a page does not matter to a writer that remembers the page, and it
does to one that looks for it. -/
theorem write_slashed_page :
    let start : Workspace := ⟨.empty, .new "out"⟩
    let old := (start.write "page.html" "old".toUTF8).2
    (old.write "page.html/" "old".toUTF8).1 = .ok .unchanged ∧
      (Workspace.write ⟨old.disk, .new "out"⟩ "page.html/" "old".toUTF8).1 =
        .error (.write "out/page.html/") := by
  decide +kernel

/-- Without the conditions of the theorem above a writer may write a file that holds the content,
remember what a file does not hold, and answer otherwise than a fresh one. -/
theorem change_detection_undone :
    (closedPage.file? ["page.html"] = some "old".toUTF8 ∧
      (closedPage.write "page.html" "old".toUTF8).1 = .ok .written) ∧
    (∃ history space calls, Run ⟨.empty, .new "out"⟩ history space calls ∧
      space.memory? ["page.html"] = some "old".toUTF8 ∧
      space.file? ["page.html"] = some .empty) ∧
    let start : Workspace := ⟨.empty, .new "out"⟩
    let old := (start.write "page.html" "old".toUTF8).2
    (old.write "page.html/" "old".toUTF8).1 = .ok .unchanged ∧
      (Workspace.write ⟨old.disk, .new "out"⟩ "page.html/" "old".toUTF8).1 =
        .error (.write "out/page.html/") :=
  ⟨write_closedPage, exists_emptied_page, write_slashed_page⟩

end Writing
end MailPress
