import MarkupMetrics.Dom.Element

/-
  This file defines the tree of a page as a store of nodes.

  A node is reached by its id.  Ids are given out by the
  store: a new node takes the id that was freed last, else
  the next one never used.  Parent and child links are kept
  in both directions.

  Reading an id that holds no node is a fault where the
  caller promises a node.

  Key definitions include:
    * `NodeId`
    * `NodeData`
    * `Node`
    * `Tree`
    * `Fault`
    * `Tree.get?`
    * `Tree.node`
    * `Tree.create`
    * `Tree.release`
    * `Tree.modify`
    * `Tree.empty`
-/

namespace MarkupMetrics

namespace Dom

------------------------------------------------------------
-- Nodes
------------------------------------------------------------

/- Identifies a node as long as it is in the tree. -/
abbrev NodeId := Nat

/- What a node is. -/
inductive NodeData where
  | document
  | element (data : Element)
  | text (content : String)
  | comment
deriving DecidableEq, Repr

/- A node with its place in the tree. -/
structure Node where
  id : NodeId
  parent : Option NodeId := none
  children : List NodeId := []
  data : NodeData
deriving DecidableEq, Repr

namespace Node

/- The element data of a node, if it is an element. -/
def element?
    (n : Node) : Option Element :=
  match n.data with
  | .element e => some e
  | _ => none

/- Whether a node is an element. -/
def isElement
    (n : Node) : Bool :=
  n.element?.isSome

/- The position of an id among the children. -/
def indexOf?
    (n : Node)
    (child : NodeId) : Option Nat :=
  n.children.findIdx? (· == child)

end Node

------------------------------------------------------------
-- The store
------------------------------------------------------------

/-
  A store of nodes.  `free` lists the ids without a node,
  the one freed last at the front.
-/
structure Tree where
  slots : Array (Option Node)
  free : List NodeId
deriving DecidableEq, Repr

/- Why an operation cannot be carried out. -/
inductive Fault where
  | missingNode (id : NodeId)
  | notAnElement (id : NodeId)
  | endless
  | cutOffDeclaration
deriving DecidableEq, Repr

namespace Tree

/- The node with an id, if there is one. -/
def get?
    (t : Tree)
    (id : NodeId) : Option Node :=
  (t.slots[id]?).join

/- Whether an id holds a node. -/
def contains
    (t : Tree)
    (id : NodeId) : Bool :=
  (t.get? id).isSome

/- The node with an id the caller promises. -/
def node
    (t : Tree)
    (id : NodeId) : Except Fault Node :=
  match t.get? id with
  | some n => .ok n
  | none => .error (.missingNode id)

/- Put a node into its slot. -/
def put
    (t : Tree)
    (id : NodeId)
    (n : Node) : Tree :=
  { t with slots := t.slots.setIfInBounds id (some n) }

/- Change the node with an id, if there is one. -/
def modify
    (t : Tree)
    (id : NodeId)
    (f : Node → Node) : Tree :=
  match t.get? id with
  | some n => t.put id (f n)
  | none => t

/- Add a node without parent and children. -/
def create
    (t : Tree)
    (data : NodeData) : Tree × NodeId :=
  match t.free with
  | id :: rest =>
      ({ slots := t.slots.setIfInBounds id (some { id, data })
         free := rest }, id)
  | [] =>
      let id := t.slots.size
      ({ t with slots := t.slots.push (some { id, data }) }, id)

/- Give an id back. -/
def release
    (t : Tree)
    (id : NodeId) : Tree :=
  { slots := t.slots.setIfInBounds id none
    free := id :: t.free }

/- The tree that holds only the document node, with id 0. -/
def empty : Tree :=
  (create ⟨#[], []⟩ .document).1

/- The ids that hold a node, in increasing order. -/
def ids
    (t : Tree) : List NodeId :=
  (List.range t.slots.size).filter t.contains

/- The value of an attribute of a node. -/
def attr?
    (t : Tree)
    (id : NodeId)
    (name : String) : Option String :=
  ((t.get? id).bind Node.element?).bind (·.attr? name)

/- The name of an element, if the node is one. -/
def elementName?
    (t : Tree)
    (id : NodeId) : Except Fault (Option QualName) := do
  let n ← t.node id
  return n.element?.map (·.name)

/- The name of a node that the caller promises is an element. -/
def elementName
    (t : Tree)
    (id : NodeId) : Except Fault QualName := do
  match ← t.elementName? id with
  | some name => return name
  | none => throw (.notAnElement id)

/- Whether a node has a parent. -/
def hasParent
    (t : Tree)
    (id : NodeId) : Except Fault Bool := do
  let n ← t.node id
  return n.parent.isSome

/- The last child of a node. -/
def lastChild?
    (t : Tree)
    (id : NodeId) : Except Fault (Option NodeId) := do
  let n ← t.node id
  return n.children.getLast?

/- The sibling just before a node. -/
def previousSibling?
    (t : Tree)
    (id : NodeId) : Except Fault (Option NodeId) := do
  let n ← t.node id
  match n.parent with
  | none => return none
  | some p =>
      let parent ← t.node p
      match parent.indexOf? id with
      | some (i + 1) => return parent.children[i]?
      | _ => return none

end Tree

end Dom

end MarkupMetrics
