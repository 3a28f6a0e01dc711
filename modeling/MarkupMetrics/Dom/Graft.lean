import MarkupMetrics.Dom.Edit

/-
  This file defines copies of subtrees between trees.  A
  subtree is read off as a `Shape`, which has no ids, and
  planted into another tree, where a node takes its id
  before its children do.

  Key definitions include:
    * `Shape`
    * `Tree.shape`
    * `Tree.plant`
    * `Tree.graft`
-/

namespace MarkupMetrics

namespace Dom

/- A subtree without ids. -/
inductive Shape where
  | node (data : NodeData) (children : List Shape)

namespace Tree

------------------------------------------------------------
-- Reading
------------------------------------------------------------

/-
  The shape of the subtree at a node.  The fuel bounds the
  depth.
-/
def shapeAt
    (t : Tree) : Nat → NodeId → Except Fault Shape
  | 0, _ => .error .endless
  | fuel + 1, id => do
      let n ← t.node id
      let children ← n.children.mapM (shapeAt t fuel)
      return .node n.data children

/- The shape of the subtree at a node. -/
def shape
    (t : Tree)
    (id : NodeId) : Except Fault Shape :=
  t.shapeAt t.slots.size id

------------------------------------------------------------
-- Planting
------------------------------------------------------------

mutual

/- Add a detached copy of a shape. -/
def plant
    (t : Tree) : Shape → Except Fault (Tree × NodeId)
  | .node data children => do
      let (t, id) := t.create data
      let (t, ids) ← plantAll t children
      let t ← t.append id ids
      return (t, id)

/- Add detached copies of several shapes, in order. -/
def plantAll
    (t : Tree) : List Shape → Except Fault (Tree × List NodeId)
  | [] => return (t, [])
  | s :: rest => do
      let (t, id) ← plant t s
      let (t, ids) ← plantAll t rest
      return (t, id :: ids)

end

/-
  Add copies of several shapes at the end of a node's child
  list, and give the ids of the copies.
-/
def graft
    (t : Tree)
    (parent : NodeId)
    (shapes : List Shape) :
    Except Fault (Tree × List NodeId) := do
  let (t, ids) ← t.plantAll shapes
  let t ← t.append parent ids
  return (t, ids)

end Tree

end Dom

end MarkupMetrics
