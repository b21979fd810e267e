import Mathlib.Data.List.TakeWhile
import MailPress.Proofs.Markup.Appending

/-!
# Documents in the order of their events

A document records the events that it is built of: each node tells the events that it comes from,
and all events that are content have their node, in their order and below what was open.

An end event closes the nearest open element of its name and what was opened inside it. Nothing
goes below a closed element any more, and the root is never closed.
-/

namespace MailPress
namespace Markup

/-! ## Where nodes come from -/

/-- The events that a node comes from, with the node that was the top when they came. -/
structure Origin where
  /-- The events. -/
  events : List Event
  /-- The top. -/
  parent : Nat

namespace Origin

/-- The events of the node, each with the top. -/
def placed (origin : Origin) : List (Event × Nat) :=
  origin.events.map fun event => (event, origin.parent)

/-- Whether what follows the events goes below the node. -/
def opens (origin : Origin) : Bool :=
  origin.events.any Event.opens

end Origin

/-- What the node of some events stands for: the content of a single event, or the raw text of
several ones. -/
inductive Bears : List Event → Content → Prop
  /-- An event with a node of its own. -/
  | own {event : Event} {content : Content}
      (own : event.content? = some content) :
      Bears [event] content
  /-- Texts and references that are one text. -/
  | text {events : List Event} {raw : String}
      (adds : AddRaw events raw) :
      Bears events (.text raw)

theorem Bears.addRaw
    {events : List Event}
    {raw : String}
    (bears : Bears events (.text raw)) :
    AddRaw events raw := by
  cases bears with
  | @own event _ own => cases event <;> cases own
  | text adds => exact adds

theorem AddRaw.concat
    {events : List Event}
    {event : Event}
    {raw last : String}
    (adds : AddRaw events raw)
    (goesOn : event.raw? = some last) :
    AddRaw (events ++ [event]) (raw ++ last) := by
  induction adds with
  | single adds => exact .cons adds (.single goesOn)
  | cons adds _ inductionHypothesis =>
      rw [String.append_assoc]
      exact .cons adds inductionHypothesis

/-- A node comes from some events. -/
structure Document.ComesFrom (document : Document) (id : Nat) (origin : Origin) : Prop where
  /-- The node stands for what the events bear. -/
  bears : Bears origin.events (document.content id)
  /-- The node hangs below what was the top. -/
  parent : document.parent? id = some origin.parent
  /-- Nothing hangs below the node unless it is an element that was opened. -/
  childless : origin.opens = false → document.children id = []

namespace Building

open Document

variable {building : Building} {origins : List Origin} {origin : Origin}

/-- The events that are content, each with the top at its time. -/
def placed : Building → List Event → List (Event × Nat)
  | _, [] => []
  | building, event :: events =>
      (if event.isContent then [(event, building.top)] else []) ++
        (building.take event).placed events

theorem placed_concat (building : Building) (events : List Event) (event : Event) :
    building.placed (events ++ [event]) = building.placed events ++
      if event.isContent then [(event, (events.foldl Building.take building).top)] else [] := by
  induction events generalizing building with
  | nil => simp [placed]
  | cons first events inductionHypothesis => simp [placed, inductionHypothesis]

/-- The nodes that were built come from these events, in order. -/
structure ComesFrom (building : Building) (origins : List Origin) : Prop where
  /-- There is one origin for each node but the root. -/
  length : origins.length + 1 = building.document.size
  /-- A node comes from its origin. -/
  nodes : ∀ index origin, origins[index]? = some origin →
    building.document.ComesFrom (index + 1) origin
  /-- An open element has a start tag. -/
  opened : ∀ index origin, origins[index]? = some origin → index + 1 ∈ building.opened →
    origin.opens = true

namespace ComesFrom

/-- An element of a list with one more element is an old one or the new one. -/
theorem getElem?_concat_cases
    {index : Nat}
    {last : Origin}
    (listed : (origins ++ [last])[index]? = some origin) :
    (index < origins.length ∧ origins[index]? = some origin) ∨
      (index = origins.length ∧ origin = last) := by
  rw [List.getElem?_append] at listed
  split at listed
  · next old => exact .inl ⟨old, listed⟩
  · next new =>
      obtain ⟨bound, same⟩ := List.getElem?_eq_some_iff.mp listed
      rw [List.length_singleton] at bound
      exact .inr ⟨by omega, by simpa using same.symm⟩

theorem start : ComesFrom ⟨Document.empty, []⟩ [] where
  length := rfl
  nodes := nofun
  opened := nofun

/-- A node that is added comes from its event. -/
theorem appendChild
    (comes : building.ComesFrom origins)
    (sound : building.IsSound)
    {event : Event}
    {content : Content}
    (bears : Bears [event] content)
    {opened : List Nat}
    (within : ∀ id ∈ opened, id ∈ building.opened ∨
      id = building.document.size ∧ event.opens = true) :
    ComesFrom ⟨building.document.appendChild building.top content, opened⟩
      (origins ++ [⟨[event], building.top⟩]) := by
  have inside := sound.top_lt_size
  have length := comes.length
  refine ⟨?_, ?_, ?_⟩
  · rw [appendChild_eq_attach, size_attach, List.length_append, List.length_singleton, length]
  · intro index origin listed
    rw [appendChild_eq_attach]
    rcases getElem?_concat_cases listed with ⟨old, listed⟩ | ⟨rfl, rfl⟩
    · obtain ⟨bears, parent, childless⟩ := comes.nodes index origin listed
      have older : index + 1 ≠ building.document.size := by omega
      refine ⟨?_, ?_, fun closed => ?_⟩
      · rwa [content_attach inside, if_neg older]
      · rwa [parent?_attach inside, if_neg older]
      · -- The top is open, so it has an origin that opens it, unlike this node.
        have different : index + 1 ≠ building.top := by
          intro same
          rcases building.top_eq with root | member
          · exact absurd (same.trans root) (Nat.succ_ne_zero index)
          · have opens := comes.opened index origin listed (same ▸ member)
            rw [opens] at closed
            cases closed
        rw [children_attach inside, if_neg older, if_neg different, childless closed]
    · rw [length]
      refine ⟨?_, ?_, fun _ => ?_⟩
      · rwa [content_attach inside, if_pos rfl]
      · rw [parent?_attach inside, if_pos rfl]
      · rw [children_attach inside, if_pos rfl]
  · intro index origin listed member
    rcases getElem?_concat_cases listed with ⟨old, listed⟩ | ⟨rfl, rfl⟩
    · rcases within _ member with stillOpen | ⟨new, _⟩
      · exact comes.opened index origin listed stillOpen
      · omega
    · rcases within _ member with stillOpen | ⟨_, opens⟩
      · have older := lt_size_of_isElement (sound.opened _ stillOpen)
        omega
      · simp [Origin.opens, opens]

/-- A text that goes on comes from one more event. -/
theorem setContent
    (comes : building.ComesFrom origins)
    (atEnd : building.IsAtEnd)
    {event : Event}
    {raw before : String}
    {last : Nat}
    (goesOn : event.raw? = some raw)
    (listed : (building.document.children building.top).getLast? = some last)
    (content : building.document.content last = .text before) :
    ∃ front events, origins = front ++ [⟨events, building.top⟩] ∧
      ComesFrom ⟨building.document.setContent last (.text (before ++ raw)), building.opened⟩
        (front ++ [⟨events ++ [event], building.top⟩]) := by
  have younger := atEnd.sound.rooted.forest.lt_of_mem_children (List.mem_of_getLast? listed)
  have newest := atEnd.newest last before listed content
  have length := comes.length
  rcases List.eq_nil_or_concat origins with rfl | ⟨front, origin, rfl⟩
  · rw [List.length_nil] at length
    omega
  rw [List.concat_eq_append] at comes length
  rw [List.length_append, List.length_singleton] at length
  have last_eq : last = front.length + 1 := by omega
  have found : (front ++ [origin])[front.length]? = some origin := List.getElem?_concat_length
  obtain ⟨bears, parent, childless⟩ := comes.nodes front.length origin found
  rw [← last_eq] at bears parent childless
  have below := atEnd.sound.rooted.forest.mem_children_iff.mp (List.mem_of_getLast? listed)
  have parent_eq : origin.parent = building.top := Option.some.inj (parent.symm.trans below)
  obtain ⟨events, _⟩ := origin
  obtain rfl : _ = building.top := parent_eq
  rw [content] at bears
  have adds := bears.addRaw.concat goesOn
  refine ⟨front, events, List.concat_eq_append, ?_, ?_, ?_⟩
  · rw [List.length_append, List.length_singleton, size_setContent, length]
  · intro index origin listed
    rcases getElem?_concat_cases listed with ⟨old, listed⟩ | ⟨rfl, rfl⟩
    · obtain ⟨bears, parent, childless⟩ :=
        comes.nodes index origin ((List.getElem?_append_left old).trans listed)
      have different : index + 1 ≠ last := by omega
      refine ⟨?_, ?_, ?_⟩
      · rwa [content_setContent younger.2, if_neg different]
      · rwa [parent?_setContent]
      · rwa [children_setContent]
    · rw [← last_eq]
      refine ⟨?_, ?_, fun closed => ?_⟩
      · rw [content_setContent younger.2, if_pos rfl]
        exact .text adds
      · rwa [parent?_setContent]
      · rw [children_setContent]
        refine childless (Bool.eq_false_iff.mpr fun opens => ?_)
        simp only [Origin.opens, List.any_append, Bool.or_eq_false_iff] at opens closed
        rw [opens] at closed
        cases closed.1
  · intro index origin listed member
    rcases getElem?_concat_cases listed with ⟨old, listed⟩ | ⟨rfl, rfl⟩
    · exact comes.opened index origin ((List.getElem?_append_left old).trans listed) member
    · have opens := comes.opened front.length _ found member
      simp only [Origin.opens, List.any_append, Bool.or_eq_true] at opens ⊢
      exact .inl opens

/-- Every event that is content belongs to a node, and the nodes follow the events. -/
theorem take
    (comes : building.ComesFrom origins)
    (atEnd : building.IsAtEnd)
    (event : Event) :
    ∃ after, (building.take event).ComesFrom after ∧
      after.flatMap Origin.placed = origins.flatMap Origin.placed ++
        if event.isContent then [(event, building.top)] else [] := by
  have step := building.step_take event
  generalize building.take event = after at step ⊢
  cases step with
  | add own =>
      have isContent : event.isContent = true := by simp [Event.isContent, own]
      refine ⟨_, comes.appendChild atEnd.sound (.own own) fun id member => ?_, ?_⟩
      · split at member
        · next opens =>
            rcases List.mem_cons.mp member with new | old
            · exact .inr ⟨new, opens⟩
            · exact .inl old
        · exact .inl member
      · rw [List.flatMap_append, List.flatMap_singleton, if_pos isContent]
        rfl
  | begin adds apart =>
      have isContent : event.isContent = true := by simp [Event.isContent, adds]
      refine ⟨_, comes.appendChild atEnd.sound (.text (.single adds)) fun id => .inl, ?_⟩
      rw [List.flatMap_append, List.flatMap_singleton, if_pos isContent]
      rfl
  | extend adds listed content =>
      have isContent : event.isContent = true := by simp [Event.isContent, adds]
      obtain ⟨front, events, rfl, after⟩ := comes.setContent atEnd adds listed content
      refine ⟨_, after, ?_⟩
      simp [Origin.placed, isContent]
  | close noContent around =>
      rw [noContent, if_neg Bool.false_ne_true, List.append_nil]
      exact ⟨origins, ⟨comes.length, comes.nodes, fun index origin listed member =>
        comes.opened index origin listed (around.subset member)⟩, rfl⟩

end ComesFrom

/-! ## Closing elements -/

/-- What an end event does to the open elements. -/
inductive Finishes (building : Building) (name : String) : Building → Prop
  /-- When no open element has the name, nothing is changed. -/
  | ignored (none : ∀ id ∈ building.opened, building.document.isNamed name id = false) :
      Finishes building name building
  /-- The nearest open element of the name is closed with the elements that are open below it. -/
  | closed {inner outer : List Nat} {id : Nat}
      (split : building.opened = inner ++ id :: outer)
      (named : building.document.isNamed name id = true)
      (nearest : ∀ other ∈ inner, building.document.isNamed name other = false)
      (below : ∀ other ∈ inner, building.document.IsBelow id other) :
      Finishes building name ⟨building.document, outer⟩

theorem IsAtEnd.finishes (atEnd : building.IsAtEnd) (name : String) :
    building.Finishes name (building.finish name) := by
  have split := List.takeWhile_append_dropWhile
    (p := fun id => !building.document.isNamed name id) (l := building.opened)
  have nearest : ∀ id ∈ building.opened.takeWhile fun id => !building.document.isNamed name id,
      building.document.isNamed name id = false := fun id member => by
    simpa using List.mem_takeWhile_imp member
  unfold finish
  cases found : building.opened.dropWhile fun id => !building.document.isNamed name id with
  | nil =>
      rw [found, List.append_nil] at split
      exact .ignored (split ▸ nearest)
  | cons id outer =>
      have named : building.document.isNamed name id = true := by
        have head := List.head?_dropWhile_not (fun id => !building.document.isNamed name id)
          building.opened
        rw [found] at head
        simpa using head
      rw [found] at split
      have below := atEnd.pairwise_isBelow
      rw [← split, List.append_assoc] at below
      exact .closed split.symm named nearest fun other member =>
        (List.pairwise_append.mp below).2.2 other member id (by simp)

/-- Nothing goes below a node that is closed. -/
theorem IsShut.children_take
    {id : Nat}
    (shut : building.IsShut id)
    (sound : building.IsSound)
    (old : id < building.document.size)
    (event : Event) :
    (building.take event).document.children id = building.document.children id := by
  have added (content : Content) :
      (building.document.appendChild building.top content).children id =
        building.document.children id := by
    rw [appendChild_eq_attach, children_attach sound.top_lt_size, if_neg (Nat.ne_of_lt old),
      if_neg shut.ne_top]
  have step := building.step_take event
  generalize building.take event = after at step ⊢
  cases step with
  | add own => exact added _
  | begin adds apart => exact added _
  | extend adds listed content => exact children_setContent ..
  | close noContent around => rfl

theorem IsShut.children_foldl
    {id : Nat}
    (shut : building.IsShut id)
    (sound : building.IsSound)
    (old : id < building.document.size)
    (events : List Event) :
    (events.foldl Building.take building).document.children id =
      building.document.children id := by
  induction events generalizing building with
  | nil => rfl
  | cons event events inductionHypothesis =>
      rw [List.foldl_cons, inductionHypothesis (shut.take old event) (sound.take event)
        (Nat.lt_of_lt_of_le old (building.size_le_take event)), shut.children_take sound old]

/-! ## Whole lists of events -/

/-- What a list of events has built, with the elements that are open then. -/
def ofEvents (events : List Event) : Building :=
  events.foldl Building.take ⟨Document.empty, []⟩

theorem ofEvents_append (events more : List Event) :
    ofEvents (events ++ more) = more.foldl Building.take (ofEvents events) :=
  List.foldl_append

theorem ofEvents_concat (events : List Event) (event : Event) :
    ofEvents (events ++ [event]) = (ofEvents events).take event :=
  ofEvents_append events [event]

theorem isAtEnd_ofEvents (events : List Event) : (ofEvents events).IsAtEnd := by
  induction events using List.reverseRecOn with
  | nil => exact .start
  | append_singleton events event inductionHypothesis =>
      rw [ofEvents_concat]
      exact inductionHypothesis.take event

theorem ids_ofEvents (events : List Event) :
    ((ofEvents events).document.tree root).ids = List.range (ofEvents events).document.size := by
  induction events using List.reverseRecOn with
  | nil =>
      rw [ofEvents, List.foldl_nil, IsForest.empty.ids_tree]
      rfl
  | append_singleton events event inductionHypothesis =>
      rw [ofEvents_concat]
      exact ids_take (isAtEnd_ofEvents events) inductionHypothesis event

theorem textsApart_ofEvents (events : List Event) :
    (ofEvents events).document.TextsApart := by
  induction events using List.reverseRecOn with
  | nil =>
      intro id
      have childless : Document.empty.children id = [] :=
        List.eq_nil_iff_forall_not_mem.mpr fun child member => by
          have younger := IsForest.empty.lt_of_mem_children member
          exact Nat.not_lt_zero _ (Nat.lt_of_lt_of_le younger.1 (Nat.lt_one_iff.mp younger.2).le)
      rw [ofEvents, List.foldl_nil, childless]
      exact .nil
  | append_singleton events event inductionHypothesis =>
      rw [ofEvents_concat]
      exact textsApart_take (isAtEnd_ofEvents events).sound inductionHypothesis event

theorem exists_comesFrom_ofEvents (events : List Event) :
    ∃ origins, (ofEvents events).ComesFrom origins ∧
      origins.flatMap Origin.placed = placed ⟨Document.empty, []⟩ events := by
  induction events using List.reverseRecOn with
  | nil => exact ⟨[], .start, rfl⟩
  | append_singleton events event inductionHypothesis =>
      obtain ⟨origins, comes, placed⟩ := inductionHypothesis
      obtain ⟨after, comesAfter, placedAfter⟩ := comes.take (isAtEnd_ofEvents events) event
      refine ⟨after, ofEvents_concat events event ▸ comesAfter, ?_⟩
      rw [placedAfter, placed, placed_concat, ofEvents]

end Building

/-- A document records events: it keeps their content, all of it, in the order of the events and
below the elements that were open. -/
structure Document.Records (document : Document) (events : List Event) : Prop where
  /-- The nodes stand in the order of their creation. -/
  order : document.descendants root = List.range' 1 (document.size - 1)
  /-- The nodes come from the events that are content, in order and each below the top. -/
  origins : ∃ origins : List Origin,
    origins.flatMap Origin.placed = Building.placed ⟨Document.empty, []⟩ events ∧
      origins.length + 1 = document.size ∧
        ∀ index origin, origins[index]? = some origin → document.ComesFrom (index + 1) origin
  /-- No two neighbouring children are texts. -/
  merged : document.TextsApart
  /-- An end event closes the nearest open element of its name. -/
  finishes : ∀ before name, before ++ [.finish name] <+: events →
    (Building.ofEvents before).Finishes name (Building.ofEvents (before ++ [.finish name]))
  /-- What is not open any more has all its children. -/
  closed : ∀ before, before <+: events → ∀ id < (Building.ofEvents before).document.size,
    id ≠ root → id ∉ (Building.ofEvents before).opened →
      document.children id = (Building.ofEvents before).document.children id
  /-- The root is not among the elements that can be closed. -/
  rootStays : ∀ before, before <+: events → root ∉ (Building.ofEvents before).opened

/-- Whatever events come, the document that is built of them records them. -/
theorem Document.records_ofEvents (events : List Event) :
    (Document.ofEvents events).Records events := by
  have atEnd := Building.isAtEnd_ofEvents events
  obtain ⟨origins, comes, placed⟩ := Building.exists_comesFrom_ofEvents events
  refine ⟨?_, ⟨origins, placed, comes.length, comes.nodes⟩, Building.textsApart_ofEvents events,
    ?_, ?_, ?_⟩
  · have inOrder := Building.ids_ofEvents events
    have nonempty := atEnd.sound.rooted.forest.nonempty
    rw [atEnd.sound.rooted.forest.ids_tree, ← atEnd.sound.rooted.forest.descendants_eq,
      List.range_eq_range', ← Nat.sub_add_cancel nonempty, List.range'_succ] at inOrder
    exact (List.cons.inj inOrder).2
  · intro before name _
    rw [Building.ofEvents_concat]
    exact (Building.isAtEnd_ofEvents before).finishes name
  · rintro before ⟨rest, rfl⟩ id old notRoot notOpen
    change (Building.ofEvents (before ++ rest)).document.children id = _
    rw [Building.ofEvents_append]
    exact Building.IsShut.children_foldl ⟨notRoot, notOpen⟩
      (Building.isAtEnd_ofEvents before).sound old rest
  · intro before _ member
    have younger := (Building.isAtEnd_ofEvents before).pairwise_gt
    exact Nat.lt_irrefl _ ((List.pairwise_append.mp younger).2.2 root member root (by simp))

end Markup
end MailPress
