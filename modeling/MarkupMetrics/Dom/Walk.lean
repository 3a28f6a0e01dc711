import MarkupMetrics.Dom.Tree

/-
  This file defines the walks through a tree: down to the
  descendants of a node in document order, up to the root of
  its tree, and over the text below it.

  A walk carries fuel for as many nodes as the store can
  hold, which is enough if no node is below itself.  Running
  out is the fault `endless`.

  Key definitions include:
    * `Tree.walk`
    * `Tree.descendants`
    * `Tree.chain`
    * `Tree.textContent`
    * `Tree.elementById?`
-/

namespace MarkupMetrics

namespace Dom

namespace Tree

------------------------------------------------------------
-- Down
------------------------------------------------------------

/-
  The pending nodes and all nodes below them, each node
  before its children.
-/
def walk
    (t : Tree) : Nat → List NodeId → Except Fault (List NodeId)
  | _, [] => .ok []
  | 0, _ :: _ => .error .endless
  | fuel + 1, id :: rest => do
      let n ← t.node id
      let below ← walk t fuel (n.children ++ rest)
      return id :: below

/- The nodes below a node, in document order. -/
def descendants
    (t : Tree)
    (id : NodeId) : Except Fault (List NodeId) :=
  match t.get? id with
  | some n => t.walk t.slots.size n.children
  | none => .ok []

------------------------------------------------------------
-- Up
------------------------------------------------------------

/- A node and its ancestors, nearest first. -/
def climb
    (t : Tree) : Nat → NodeId → Except Fault (List NodeId)
  | 0, id =>
      if t.contains id then .error .endless else .ok []
  | fuel + 1, id =>
      match t.get? id with
      | none => .ok []
      | some n =>
          match n.parent with
          | none => .ok [id]
          | some p => do
              let above ← climb t fuel p
              return id :: above

/- The chain from a node up to the root of its tree. -/
def chain
    (t : Tree)
    (id : NodeId) : Except Fault (List NodeId) :=
  t.climb t.slots.size id

------------------------------------------------------------
-- Text
------------------------------------------------------------

/-
  The text of a node: its own content, or the texts of its
  children for an element or the document.  The fuel bounds
  the depth.
-/
def textBelow
    (t : Tree) : Nat → NodeId → Except Fault String
  | 0, id =>
      if t.contains id then .error .endless else .ok ""
  | fuel + 1, id =>
      match t.get? id with
      | none => .ok ""
      | some n =>
          match n.data with
          | .text content => .ok content
          | .comment => .ok ""
          | .element _ | .document =>
              n.children.foldlM
                (fun acc c => do
                  return acc ++ (← textBelow t fuel c)) ""

/- The text of a node; a missing node has none. -/
def textContent
    (t : Tree)
    (id : NodeId) : Except Fault String :=
  t.textBelow t.slots.size id

/- The texts of several nodes in a row. -/
def textOfAll
    (t : Tree)
    (ids : List NodeId) : Except Fault String :=
  ids.foldlM
    (fun acc id => do return acc ++ (← t.textContent id)) ""

------------------------------------------------------------
-- Lookup
------------------------------------------------------------

/- The first element of the document with an `id` value. -/
def elementById?
    (t : Tree)
    (value : String) : Except Fault (Option NodeId) := do
  let all ← t.descendants 0
  return all.find? fun id => t.attr? id "id" == some value

end Tree

end Dom

end MarkupMetrics
