import MailPress.Proofs.Markup.Building
import MailPress.Proofs.Markup.Event

/-!
# Growing a document by trees

The events of a list of trees add exactly these trees below the top, whatever has been built
before. What was there already stays as it is, apart from the new children of the top.
-/

namespace MailPress
namespace Markup

namespace Tree

mutual

/-- The tree with the places of its nodes forgotten. -/
def withoutIds : Tree → Tree
  | .node _ content children => .node 0 content (withoutIdsOfAll children)

/-- The trees with the places of their nodes forgotten. -/
def withoutIdsOfAll : List Tree → List Tree
  | [] => []
  | tree :: trees => tree.withoutIds :: withoutIdsOfAll trees

end

theorem withoutIdsOfAll_eq_map (trees : List Tree) :
    withoutIdsOfAll trees = trees.map withoutIds := by
  induction trees with
  | nil => rfl
  | cons tree trees inductionHypothesis => simp [withoutIdsOfAll, inductionHypothesis]

/-- Whether a tree is a text. -/
def isText : Tree → Bool
  | .node _ (.text _) _ => true
  | _ => false

end Tree

namespace Document

variable {before middle after : Document} {parent : Nat}

/-- A document has grown by trees at the end of the children of a node, and is otherwise the
same on the nodes that it had. -/
structure Grows
    (before after : Document)
    (parent : Nat)
    (trees : List Tree) : Prop where
  /-- No node is lost. -/
  size_le : before.size ≤ after.size
  /-- The nodes stand for what they stood for. -/
  content_eq : ∀ id < before.size, after.content id = before.content id
  /-- Other nodes have the same children. -/
  children_eq : ∀ id < before.size, id ≠ parent → after.children id = before.children id
  /-- The new children are new nodes with the given trees. -/
  added : ∃ ids, after.children parent = before.children parent ++ ids ∧
    (∀ id ∈ ids, before.size ≤ id) ∧
    (ids.map fun id => (after.tree id).withoutIds) = trees.map Tree.withoutIds

namespace Grows

theorem refl (document : Document) (parent : Nat) : document.Grows document parent [] :=
  ⟨Nat.le_refl _, fun _ _ => rfl, fun _ _ _ => rfl, [], by simp, nofun, rfl⟩

/-- A tree of new nodes is not changed by growing on. -/
theorem tree_eq
    {trees : List Tree}
    (grows : middle.Grows after parent trees)
    (forest : middle.IsForest)
    (afterForest : after.IsForest)
    {id : Nat}
    (younger : parent < id)
    (inside : id < middle.size) :
    after.tree id = middle.tree id := by
  apply forest.tree_congr afterForest
  intro inner member
  have innerInside := forest.lt_size_of_mem_ids inside member
  have innerYounger := Nat.lt_of_lt_of_le younger (forest.le_of_mem_ids member)
  exact ⟨grows.content_eq inner innerInside,
    grows.children_eq inner innerInside (Nat.ne_of_gt innerYounger)⟩

theorem trans
    {first second : List Tree}
    (grows : before.Grows middle parent first)
    (growsOn : middle.Grows after parent second)
    (forest : middle.IsForest)
    (afterForest : after.IsForest) :
    before.Grows after parent (first ++ second) := by
  obtain ⟨firstIds, firstChildren, firstNew, firstTrees⟩ := grows.added
  obtain ⟨secondIds, secondChildren, secondNew, secondTrees⟩ := growsOn.added
  refine ⟨Nat.le_trans grows.size_le growsOn.size_le, ?_, ?_, firstIds ++ secondIds, ?_, ?_, ?_⟩
  · intro id old
    rw [growsOn.content_eq id (Nat.lt_of_lt_of_le old grows.size_le), grows.content_eq id old]
  · intro id old other
    rw [growsOn.children_eq id (Nat.lt_of_lt_of_le old grows.size_le) other,
      grows.children_eq id old other]
  · rw [secondChildren, firstChildren, List.append_assoc]
  · intro id member
    rcases List.mem_append.mp member with member | member
    · exact firstNew id member
    · exact Nat.le_trans grows.size_le (secondNew id member)
  · rw [List.map_append, List.map_append, secondTrees, ← firstTrees]
    congr 1
    apply List.map_congr_left
    intro id member
    have listed : id ∈ middle.children parent := by
      rw [firstChildren]
      exact List.mem_append_right _ member
    have younger := forest.lt_of_mem_children listed
    rw [growsOn.tree_eq forest afterForest younger.1 younger.2]

theorem appendChild
    (forest : before.IsForest)
    (inside : parent < before.size)
    (content : Content)
    (id : Nat) :
    before.Grows (before.appendChild parent content) parent [.node id content []] := by
  have afterForest := forest.appendChild inside content
  rw [appendChild_eq_attach] at afterForest ⊢
  refine ⟨?_, ?_, ?_, [before.size], ?_, ?_, ?_⟩
  · simp
  · intro other old
    rw [content_attach inside, if_neg (Nat.ne_of_lt old)]
  · intro other old different
    rw [children_attach inside, if_neg (Nat.ne_of_lt old), if_neg different]
  · rw [children_attach inside, if_neg (Nat.ne_of_lt inside), if_pos rfl]
  · simp
  · rw [List.map_singleton, afterForest.tree_eq, content_attach inside, if_pos rfl,
      children_attach inside, if_pos rfl]
    rfl

/-- Trees that grow below a new element become its children. -/
theorem element
    (forest : before.IsForest)
    (inside : parent < before.size)
    {content : Content}
    {children : List Tree}
    (grows : (before.appendChild parent content).Grows after before.size children)
    (afterForest : after.IsForest)
    (id : Nat) :
    before.Grows after parent [.node id content children] := by
  have size_eq : (before.appendChild parent content).size = before.size + 1 := by
    simp [appendChild_eq_attach]
  have old {other : Nat} (older : other < before.size) :
      other < (before.appendChild parent content).size := by
    rw [size_eq]
    exact Nat.lt_succ_of_lt older
  have start := Grows.appendChild forest inside content id
  obtain ⟨ids, children_eq, new, trees_eq⟩ := grows.added
  refine ⟨Nat.le_trans start.size_le grows.size_le, ?_, ?_, [before.size], ?_, ?_, ?_⟩
  · intro other older
    rw [grows.content_eq other (old older), start.content_eq other older]
  · intro other older different
    rw [grows.children_eq other (old older) (Nat.ne_of_lt older),
      start.children_eq other older different]
  · rw [grows.children_eq parent (old inside) (Nat.ne_of_lt inside), appendChild_eq_attach,
      children_attach inside, if_neg (Nat.ne_of_lt inside), if_pos rfl]
  · simp
  · have newInside : before.size < (before.appendChild parent content).size := by
      rw [size_eq]
      exact Nat.lt_succ_self _
    have content_eq : after.content before.size = content := by
      rw [grows.content_eq _ newInside, appendChild_eq_attach, content_attach inside, if_pos rfl]
    have noChildren : (before.appendChild parent content).children before.size = [] := by
      rw [appendChild_eq_attach, children_attach inside, if_pos rfl]
    rw [noChildren, List.nil_append] at children_eq
    rw [List.map_singleton, afterForest.tree_eq, content_eq, children_eq, Tree.withoutIds,
      List.map_singleton, Tree.withoutIds, Tree.withoutIdsOfAll_eq_map,
      Tree.withoutIdsOfAll_eq_map, List.map_map, ← trees_eq]
    rfl

end Grows

end Document

/-! ## Texts in pieces -/

/-- Text that is appended in two pieces is appended as one. -/
theorem Document.IsForest.appendText_appendText
    {document : Document}
    (forest : document.IsForest)
    {parent : Nat}
    (inside : parent < document.size)
    (first second : String) :
    (document.appendText parent first).appendText parent second =
      document.appendText parent (first ++ second) := by
  rcases document.appendText_cases parent first with
    ⟨last, before, listed, content, eq⟩ | ⟨apart, eq⟩
  · have lastInside := (forest.lt_of_mem_children (List.mem_of_getLast? listed)).2
    have grown : (document.setContent last (.text (before ++ first))).content last =
        .text (before ++ first) := by
      rw [content_setContent lastInside, if_pos rfl]
    rw [eq, Document.appendText, Document.appendText, children_setContent, listed]
    dsimp only
    rw [grown, content]
    apply ext_node
    · rw [size_setContent, size_setContent, size_setContent]
    · intro id
      rw [node_setContent, node_setContent, node_setContent, size_setContent]
      split <;> simp [String.append_assoc]
  · have eqBoth : document.appendText parent (first ++ second) =
        document.appendChild parent (.text (first ++ second)) := by
      rcases document.appendText_cases parent (first ++ second) with
        ⟨last, before, listed, content, _⟩ | ⟨_, eqBoth⟩
      · exact absurd content (apart last before listed)
      · exact eqBoth
    have last : ((document.appendChild parent (.text first)).children parent).getLast? =
        some document.size := by
      rw [appendChild_eq_attach, children_attach inside, if_neg (Nat.ne_of_lt inside), if_pos rfl,
        List.getLast?_concat]
    have content : (document.appendChild parent (.text first)).content document.size =
        .text first := by
      rw [appendChild_eq_attach, content_attach inside, if_pos rfl]
    rw [eq, eqBoth, Document.appendText, last]
    simp only [content]
    apply ext_node
    · simp [appendChild_eq_attach]
    · intro id
      rw [node_setContent, appendChild_eq_attach, appendChild_eq_attach, size_attach,
        node_attach inside, node_attach inside]
      by_cases new : id = document.size
      · simp [new]
      · simp [new]

theorem Builds.take_of_raw?
    {event : Event}
    {raw : String}
    (adds : event.raw? = some raw)
    (building : Building) :
    building.take event =
      { building with document := building.document.appendText building.top raw } := by
  cases event <;> cases adds <;> rfl

/-- Events that add raw text do what one text does. -/
theorem Building.IsSound.foldl_of_addRaw
    {building : Building}
    (sound : building.IsSound)
    {events : List Event}
    {raw : String}
    (adds : AddRaw events raw) :
    events.foldl Building.take building = building.take (.text raw) := by
  induction adds generalizing building with
  | single adds => exact Builds.take_of_raw? adds building
  | cons adds _ inductionHypothesis =>
      rw [List.foldl_cons, inductionHypothesis (sound.take _), Builds.take_of_raw? adds,
        Building.take, Building.take]
      congr 1
      exact sound.rooted.forest.appendText_appendText sound.top_lt_size _ _

/-! ## Trees and their events -/

open Document

/-- The last node below the top is not a text, so that a text to come is a node of its own. -/
def Building.EndsApart (building : Building) : Prop :=
  ∀ last raw, (building.document.children building.top).getLast? = some last →
    building.document.content last ≠ .text raw

/-- The events add these trees below the top, and leave open what was open. -/
def Builds (trees : List Tree) (events : List Event) : Prop :=
  ∀ building : Building, building.IsSound →
    (trees.head?.any Tree.isText = true → building.EndsApart) →
    (events.foldl Building.take building).opened = building.opened ∧
      building.document.Grows (events.foldl Building.take building).document building.top trees

namespace Builds

theorem nil : Builds [] [] :=
  fun building _ _ => ⟨rfl, .refl building.document building.top⟩

theorem top_eq_of_opened_eq
    {first second : Building}
    (same : second.opened = first.opened) :
    second.top = first.top := by
  rw [Building.top, Building.top, same]

/-- Trees that are built one after another are built together, unless two texts meet. -/
theorem cons
    {tree : Tree}
    {trees : List Tree}
    {events moreEvents : List Event}
    (builds : Builds [tree] events)
    (moreBuild : Builds trees moreEvents)
    (apart : tree.isText = true → trees.head?.any Tree.isText = false) :
    Builds (tree :: trees) (events ++ moreEvents) := by
  intro building sound endsApart
  obtain ⟨opened_eq, grows⟩ := builds building sound endsApart
  have middleSound := sound.foldl events
  rw [List.foldl_append]
  generalize events.foldl Building.take building = middle at *
  have top_eq := top_eq_of_opened_eq opened_eq
  have middleApart : trees.head?.any Tree.isText = true → middle.EndsApart := by
    intro textNext last raw lastListed content
    obtain ⟨ids, children_eq, _, trees_eq⟩ := grows.added
    rw [List.map_singleton] at trees_eq
    obtain ⟨id, rfl, tree_eq⟩ := List.map_eq_singleton_iff.mp trees_eq
    rw [top_eq, children_eq, List.getLast?_concat] at lastListed
    cases lastListed
    rw [middleSound.rooted.forest.tree_eq, content] at tree_eq
    have isText : tree.isText = true := by
      cases tree with
      | node _ treeContent _ =>
          rw [Tree.withoutIds, Tree.withoutIds] at tree_eq
          obtain rfl := (Tree.node.inj tree_eq).2.1
          rfl
    rw [apart isText] at textNext
    cases textNext
  obtain ⟨finalOpened_eq, growsOn⟩ := moreBuild middle middleSound middleApart
  have finalSound := middleSound.foldl moreEvents
  refine ⟨finalOpened_eq.trans opened_eq, ?_⟩
  rw [top_eq] at growsOn
  exact grows.trans growsOn middleSound.rooted.forest finalSound.rooted.forest

/-- One event that adds a node without children. -/
theorem leaf
    {event : Event}
    {content : Content}
    (take_eq : ∀ building : Building, building.take event = building.add content)
    (id : Nat) :
    Builds [.node id content []] [event] := by
  intro building sound _
  rw [List.foldl_cons, List.foldl_nil, take_eq]
  exact ⟨rfl, .appendChild sound.rooted.forest sound.top_lt_size content id⟩

theorem element
    {element : Element}
    (notVoid : isVoid element.name = false)
    {children : List Tree}
    {events : List Event}
    (builds : Builds children events)
    (id : Nat) :
    Builds [.node id (.element element) children]
      (.start element :: (events ++ [.finish element.name])) := by
  intro building sound _
  have startedSound := sound.take (.start element)
  rw [List.foldl_cons, List.foldl_append, List.foldl_cons, List.foldl_nil]
  rw [building.take_start notVoid] at startedSound ⊢
  have startedApart : Building.EndsApart
      ⟨building.document.appendChild building.top (.element element),
        building.document.size :: building.opened⟩ := by
    intro last raw listed
    have childless : (building.document.appendChild building.top (.element element)).children
        building.document.size = [] := by
      rw [appendChild_eq_attach, children_attach sound.top_lt_size, if_pos rfl]
    rw [show Building.top ⟨_, building.document.size :: building.opened⟩ = building.document.size
      from rfl, childless] at listed
    cases listed
  obtain ⟨opened_eq, grows⟩ := builds _ startedSound (fun _ => startedApart)
  have innerSound := startedSound.foldl events
  generalize events.foldl Building.take _ = inner at *
  have content_eq : inner.document.content building.document.size = .element element := by
    rw [grows.content_eq, appendChild_eq_attach, content_attach sound.top_lt_size, if_pos rfl]
    simp [appendChild_eq_attach]
  rw [Building.take, Building.finish_self opened_eq content_eq]
  exact ⟨rfl, .element sound.rooted.forest sound.top_lt_size grows innerSound.rooted.forest id⟩

/-- Events that add raw text are together one text. -/
theorem text
    {events : List Event}
    {raw : String}
    (adds : AddRaw events raw)
    (id : Nat) :
    Builds [.node id (.text raw) []] events := by
  intro building sound endsApart
  have inside := sound.top_lt_size
  have fold_eq : events.foldl Building.take building = building.add (.text raw) := by
    rw [sound.foldl_of_addRaw adds, Building.take, Building.add]
    rcases appendText_cases building.document building.top raw with
      ⟨last, before, listed, content, _⟩ | ⟨_, eq⟩
    · exact absurd content (endsApart rfl last before listed)
    · rw [eq]
  rw [fold_eq]
  exact ⟨rfl, .appendChild sound.rooted.forest inside _ id⟩

end Builds

end Markup
end MailPress
