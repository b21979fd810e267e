import MailPress.Markup.Element

/-!
# Documents

A document is a store of nodes that grows and never shrinks. Nodes are named by
their place in the store, and each knows its parent and its children; the node
at place 0 is the root. A node that is detached stays in the store, out of reach
of the root.

Children are always younger than their parent. Reading a document out of the
store follows only such links, which is why it ends on every store.
-/

namespace MailPress
namespace Markup

/-- What a node stands for. -/
inductive Content
  /-- The document itself. -/
  | root
  /-- An element. -/
  | element (element : Element)
  /-- Raw text, references kept as written. -/
  | text (raw : String)
  /-- The body of a comment. -/
  | comment (body : String)
  /-- A section or an instruction that is passed on as written. -/
  | verbatim (raw : String)
  deriving DecidableEq, Repr, Inhabited

/-- A node of a store. -/
structure Node where
  /-- What the node stands for. -/
  content : Content
  /-- The node it hangs below. -/
  parent : Option Nat
  /-- The nodes that hang below it, in order. -/
  children : List Nat
  deriving DecidableEq, Repr, Inhabited

/-- A node and everything below it. -/
inductive Tree
  | node (id : Nat) (content : Content) (children : List Tree)
  deriving Repr, Inhabited

namespace Tree

mutual

/-- The nodes of a tree in document order. -/
def ids : Tree → List Nat
  | .node id _ children => id :: idsOfAll children

/-- The nodes of several trees in document order. -/
def idsOfAll : List Tree → List Nat
  | [] => []
  | tree :: trees => tree.ids ++ idsOfAll trees

end

/-- The trees below the topmost node. -/
def children : Tree → List Tree
  | .node _ _ children => children

end Tree

/-- A store of nodes, the root first. -/
structure Document where
  /-- The nodes in the order of their creation. -/
  nodes : Array Node
  deriving Repr

namespace Document

/-- The place of the root. -/
def root : Nat := 0

/-- A document without content. -/
def empty : Document :=
  ⟨#[⟨.root, none, []⟩]⟩

instance : Inhabited Document := ⟨empty⟩

/-- The number of nodes ever created. -/
def size (document : Document) : Nat :=
  document.nodes.size

/-- The node at a place; a place outside the store holds an empty root. -/
def node (document : Document) (id : Nat) : Node :=
  document.nodes.getD id ⟨.root, none, []⟩

/-- What the node stands for. -/
def content (document : Document) (id : Nat) : Content :=
  (document.node id).content

/-- The parent of a node. -/
def parent? (document : Document) (id : Nat) : Option Nat :=
  (document.node id).parent

/-- The children of a node. -/
def children (document : Document) (id : Nat) : List Nat :=
  (document.node id).children

/-- The element that a node stands for. -/
def element? (document : Document) (id : Nat) : Option Element :=
  match document.content id with
  | .element element => some element
  | _ => none

/-- Whether a node stands for an element. -/
def isElement (document : Document) (id : Nat) : Bool :=
  (document.element? id).isSome

/-- Whether a node stands for an element of the given name. -/
def isNamed (document : Document) (name : String) (id : Nat) : Bool :=
  (document.element? id).any (·.name == name)

/-- The parent of a node, when it is an element. -/
def parentElement? (document : Document) (id : Nat) : Option Nat :=
  (document.parent? id).filter document.isElement

/-- The children of the parent of a node, itself included; empty without a parent. -/
def siblings (document : Document) (id : Nat) : List Nat :=
  match document.parent? id with
  | some parent => document.children parent
  | none => []

/-- The element siblings in front of a node, nearest first. -/
def precedingSiblings (document : Document) (id : Nat) : List Nat :=
  (((document.siblings id).takeWhile (· != id)).filter document.isElement).reverse

/-- The element siblings behind a node, nearest first. -/
def followingSiblings (document : Document) (id : Nat) : List Nat :=
  (((document.siblings id).dropWhile (· != id)).drop 1).filter document.isElement

/-- The tree of a node. Links lead to younger nodes of the store; no other link is followed. -/
def tree (document : Document) (id : Nat) : Tree :=
  .node id (document.content id) <|
    (document.children id).filterMap fun child =>
      if link : id < child ∧ child < document.size then
        have : document.size - child < document.size - id := by omega
        some (document.tree child)
      else none
termination_by document.size - id

/-- The nodes below a node, in document order. -/
def descendants (document : Document) (id : Nat) : List Nat :=
  Tree.idsOfAll (document.tree id).children

/-- All elements that hang below the root, in document order. -/
def elements (document : Document) : List Nat :=
  (document.descendants root).filter document.isElement

/-- The elements of a name that hang below the root, in document order. -/
def findAll (document : Document) (name : String) : List Nat :=
  document.elements.filter (document.isNamed name)

/-- The first element of a name. -/
def findFirst? (document : Document) (name : String) : Option Nat :=
  (document.findAll name).head?

/-- The raw text of a node that stands for a text. -/
def text? (document : Document) (id : Nat) : Option String :=
  match document.content id with
  | .text raw => some raw
  | _ => none

/-- The raw texts below a node, one after another. -/
def rawText (document : Document) (id : Nat) : String :=
  String.join ((document.descendants id).filterMap document.text?)

/-- Change one node. -/
def modify (document : Document) (id : Nat) (change : Node → Node) : Document :=
  ⟨document.nodes.modify id change⟩

/-- Change what one node stands for. -/
def setContent (document : Document) (id : Nat) (content : Content) : Document :=
  document.modify id fun node => { node with content }

/-- Change the element that a node stands for; other nodes stay as they are. -/
def modifyElement (document : Document) (id : Nat) (change : Element → Element) : Document :=
  match document.element? id with
  | some element => document.setContent id (.element (change element))
  | none => document

/-- Create a node below `parent`, without listing it among the children there. -/
def allocate (document : Document) (parent : Nat) (content : Content) : Document :=
  ⟨document.nodes.push ⟨content, some parent, []⟩⟩

/-- Create a node as the last child of `parent`; its place is the old size. -/
def appendChild (document : Document) (parent : Nat) (content : Content) : Document :=
  (document.allocate parent content).modify parent fun node =>
    { node with children := node.children ++ [document.size] }

/-- Create a node among the children of `parent`, in front of the child with this index. -/
def insertChild
    (document : Document)
    (parent : Nat)
    (index : Nat)
    (content : Content) :
    Document :=
  (document.allocate parent content).modify parent fun node =>
    { node with children := node.children.take index ++ document.size :: node.children.drop index }

/-- Append raw text below `parent`, to the last child when that is a text. -/
def appendText (document : Document) (parent : Nat) (raw : String) : Document :=
  match (document.children parent).getLast? with
  | some last =>
      match document.content last with
      | .text before => document.setContent last (.text (before ++ raw))
      | _ => document.appendChild parent (.text raw)
  | none => document.appendChild parent (.text raw)

/-- Unlink a node from its parent. -/
def detach (document : Document) (id : Nat) : Document :=
  match document.parent? id with
  | some parent =>
      (document.modify id fun node => { node with parent := none }).modify parent fun node =>
        { node with children := node.children.filter (· != id) }
  | none => document

/-- Replace the children of a node by one text. -/
def setText (document : Document) (id : Nat) (raw : String) : Document :=
  ((document.children id).foldl detach document).appendChild id (.text raw)

end Document

end Markup
end MailPress
