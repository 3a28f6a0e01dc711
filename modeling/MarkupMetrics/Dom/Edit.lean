import MarkupMetrics.Dom.Tree

/-
  This file defines the edits of a tree: moving nodes into a
  child list, removing subtrees, and changing text and
  attributes.

  Every edit of child lists detaches a node before it puts
  it in its new place, so a node stands in one child list at
  most.  An id that holds no node is a fault, except where
  removal is asked for.

  Key definitions include:
    * `Tree.detach`
    * `Tree.append`
    * `Tree.insertBefore`
    * `Tree.reparent`
    * `Tree.remove`
    * `Tree.appendText?`
    * `Tree.setAttribute`
    * `Tree.removeAttribute`
    * `Tree.addAttributes`
-/

namespace MarkupMetrics

namespace Dom

namespace Tree

------------------------------------------------------------
-- Single links
------------------------------------------------------------

/- Take an id out of a node's child list. -/
def dropChild
    (t : Tree)
    (parent child : NodeId) : Tree :=
  t.modify parent fun n =>
    { n with children := n.children.filter (· != child) }

/- Set the parent link of a node. -/
def setParent
    (t : Tree)
    (id : NodeId)
    (parent : Option NodeId) : Tree :=
  t.modify id fun n => { n with parent }

/- Set the child list of a node. -/
def setChildren
    (t : Tree)
    (id : NodeId)
    (children : List NodeId) : Tree :=
  t.modify id fun n => { n with children }

/- Take a node out of its parent's child list. -/
def detach
    (t : Tree)
    (id : NodeId) : Except Fault Tree := do
  let n ← t.node id
  match n.parent with
  | none => return t
  | some p =>
      let _ ← t.node p
      return (t.setParent id none).dropChild p id

------------------------------------------------------------
-- Child lists
------------------------------------------------------------

/- Move one node to the end of a child list. -/
def appendOne
    (parent : NodeId)
    (t : Tree)
    (child : NodeId) : Except Fault Tree := do
  let t ← t.detach child
  let p ← t.node parent
  let t := t.setChildren parent (p.children ++ [child])
  return t.setParent child (some parent)

/- Move nodes, in order, to the end of a child list. -/
def append
    (t : Tree)
    (parent : NodeId)
    (children : List NodeId) : Except Fault Tree :=
  children.foldlM (appendOne parent) t

/-
  Put an id before the first place of an anchor, or at the
  end if the anchor is not there.
-/
def insertBeforeAnchor
    (anchor new : NodeId) : List NodeId → List NodeId
  | [] => [new]
  | c :: rest =>
      if c = anchor then
        new :: c :: rest
      else
        c :: insertBeforeAnchor anchor new rest

/- Move one node to the place before an anchor. -/
def insertOneBefore
    (parent anchor : NodeId)
    (t : Tree)
    (new : NodeId) : Except Fault Tree := do
  let t ← t.detach new
  let p ← t.node parent
  let t :=
    t.setChildren parent
      (insertBeforeAnchor anchor new p.children)
  return t.setParent new (some parent)

/-
  Move nodes, in order, to the place before an anchor.  An
  anchor without parent leaves everything as it is.
-/
def insertBefore
    (t : Tree)
    (anchor : NodeId)
    (new : List NodeId) : Except Fault Tree := do
  let a ← t.node anchor
  match a.parent with
  | none => return t
  | some p => new.foldlM (insertOneBefore p anchor) t

/- Clear the parent link of one node. -/
def orphanOne
    (t : Tree)
    (id : NodeId) : Except Fault Tree := do
  let _ ← t.node id
  return t.setParent id none

/- Move all children of a node to the end of another's. -/
def reparent
    (t : Tree)
    (source target : NodeId) : Except Fault Tree := do
  let n ← t.node source
  let t := t.setChildren source []
  let t ← n.children.foldlM orphanOne t
  t.append target n.children

------------------------------------------------------------
-- Removal
------------------------------------------------------------

/-
  Free nodes together with their subtrees, each node before
  its children.  Ids without a node are skipped.  The fuel
  bounds the number of nodes that are freed.
-/
def freeAll :
    Nat → List NodeId → Tree → Tree
  | _, [], t => t
  | 0, _ :: _, t => t
  | fuel + 1, id :: rest, t =>
      match t.get? id with
      | none => freeAll (fuel + 1) rest t
      | some n => freeAll fuel (n.children ++ rest) (t.release id)
termination_by fuel pending => (fuel, pending.length)

/-
  Detach a node and free its subtree.  The document node and
  ids without a node are left alone.
-/
def remove
    (t : Tree)
    (id : NodeId) : Except Fault Tree :=
  if id = 0 || !t.contains id then
    .ok t
  else do
    let t ← t.detach id
    return freeAll t.slots.size [id] t

------------------------------------------------------------
-- Content
------------------------------------------------------------

/-
  Add text at the end of a text node; there is no result if
  the node is not one.
-/
def appendText?
    (t : Tree)
    (id : NodeId)
    (text : String) : Except Fault (Option Tree) := do
  let n ← t.node id
  match n.data with
  | .text content =>
      return some
        (t.put id { n with data := .text (content ++ text) })
  | _ => return none

/- Change the attributes of a node, if it is an element. -/
def modifyAttrs
    (t : Tree)
    (id : NodeId)
    (f : List Attribute → List Attribute) :
    Except Fault Tree := do
  let n ← t.node id
  match n.data with
  | .element e =>
      return t.put id
        { n with data := .element { e with attrs := f e.attrs } }
  | _ => return t

/- Set an attribute without namespace. -/
def setAttribute
    (t : Tree)
    (id : NodeId)
    (name value : String) : Except Fault Tree :=
  t.modifyAttrs id (Attribute.setValue (.plain name) value)

/- Remove the first attribute with a local name. -/
def removeAttribute
    (t : Tree)
    (id : NodeId)
    (name : String) : Except Fault Tree :=
  t.modifyAttrs id (Attribute.removeNamed name)

/- Add the attributes whose name is not there yet. -/
def addAttributes
    (t : Tree)
    (id : NodeId)
    (attrs : List Attribute) : Except Fault Tree :=
  t.modifyAttrs id (Attribute.addMissing · attrs)

/- Add a detached HTML element. -/
def createElement
    (t : Tree)
    (tag : String)
    (attrs : List (String × String)) : Tree × NodeId :=
  t.create (.element
    ⟨.html tag, attrs.map fun a => .plain a.1 a.2⟩)

end Tree

end Dom

end MarkupMetrics
