import MarkupMetrics.Html.Page
import MarkupMetrics.Selector.Query
import MarkupMetrics.Text.Digits

/-
  This file defines documents: a tree together with the
  listeners attached to its nodes.

  Listeners are numbered through the whole life of a document
  and are kept in the order of attaching.  A number is also
  used up where the node is missing.  Removing a node drops
  its listeners.

  Key definitions include:
    * `Delegation`
    * `Listener`
    * `Document`
    * `Document.bind`
    * `Document.delegate`
    * `Document.detach`
    * `Document.editTree`
    * `Document.remove`
    * `Document.appendPage`
-/

namespace MarkupMetrics

open Dom

------------------------------------------------------------
-- Types
------------------------------------------------------------

/-
  What a delegated listener waits for: the text of a selector,
  and the selector if the text is one.
-/
structure Delegation where
  source : String
  selector : Option Selector.SelectorList

/-
  A listener of a node.  It is direct, or delegated to the
  nodes that match a selector.
-/
structure Listener (η : Type) where
  id : Nat
  node : NodeId
  event : String
  delegation : Option Delegation
  handler : η

/- The text of the selector of a delegated listener. -/
def Listener.source?
    {η : Type}
    (l : Listener η) : Option String :=
  l.delegation.map (·.source)

/- A tree with the listeners attached to its nodes. -/
structure Document (η : Type) where
  tree : Tree
  listeners : List (Listener η) := []
  nextListener : Nat := 0

namespace Document

variable {η : Type}

/- A tree without listeners. -/
def ofTree
    (t : Tree) : Document η :=
  { tree := t }

/- The document that holds only the document node. -/
def empty : Document η :=
  ofTree Tree.empty

/- The document of a page. -/
def ofPage
    (html : String) : Except Fault (Document η) := do
  return ofTree (← Tree.ofPage html)

/- The listeners of a node, in the order of attaching. -/
def listenersOf
    (d : Document η)
    (node : NodeId) : List (Listener η) :=
  d.listeners.filter fun l => l.node == node

/- The number of listeners of a node. -/
def listenerCount
    (d : Document η)
    (node : NodeId) : Nat :=
  (d.listenersOf node).length

/- The number of listeners of all nodes. -/
def totalListeners
    (d : Document η) : Nat :=
  d.listeners.length

------------------------------------------------------------
-- Attaching
------------------------------------------------------------

/- Attach a listener, and give its number. -/
def attach
    (d : Document η)
    (node : NodeId)
    (event : String)
    (delegation : Option Delegation)
    (handler : η) : Trace (Document η × Nat) := do
  let id := d.nextListener
  let d := { d with nextListener := id + 1 }
  if d.tree.contains node then
    let l : Listener η := ⟨id, node, event, delegation, handler⟩
    return ({ d with listeners := d.listeners ++ [l] }, id)
  else
    Trace.note .page .warn
      ("Cannot attach listener to missing node " ++
        Text.decimalText node)
    return (d, id)

/- Attach a direct listener. -/
def bind
    (d : Document η)
    (node : NodeId)
    (event : String)
    (handler : η) : Trace (Document η × Nat) :=
  d.attach node event none handler

/- Attach a listener that is delegated by a selector. -/
def delegate
    (d : Document η)
    (node : NodeId)
    (source : String)
    (event : String)
    (handler : η) : Trace (Document η × Nat) := do
  let selector ← Selector.read? source
  d.attach node event (some ⟨source, selector⟩) handler

/-
  Detach the listener with a number from a node, if its event
  and the text of its selector are the given ones.
-/
def detach
    (d : Document η)
    (node : NodeId)
    (event : String)
    (source : Option String)
    (id : Nat) : Document η :=
  { d with
    listeners :=
      d.listeners.filter fun l =>
        !(l.node == node && l.id == id && l.event == event &&
          l.source? == source) }

/- Detach a direct listener. -/
def unbind
    (d : Document η)
    (node : NodeId)
    (event : String)
    (id : Nat) : Document η :=
  d.detach node event none id

/- Detach a delegated listener. -/
def undelegate
    (d : Document η)
    (node : NodeId)
    (source : String)
    (event : String)
    (id : Nat) : Document η :=
  d.detach node event (some source) id

------------------------------------------------------------
-- Edits
------------------------------------------------------------

/- Change the tree by an edit that removes no node. -/
def editTree
    (d : Document η)
    (edit : Tree → Except Fault Tree) :
    Except Fault (Document η) := do
  return { d with tree := ← edit d.tree }

/- Add a detached node, and give its id. -/
def create
    (d : Document η)
    (data : NodeData) : Document η × NodeId :=
  let (tree, id) := d.tree.create data
  ({ d with tree }, id)

/- Remove a node with all nodes below it and their listeners. -/
def remove
    (d : Document η)
    (node : NodeId) : Except Fault (Document η) := do
  let tree ← d.tree.remove node
  return { d with
    tree
    listeners :=
      d.listeners.filter fun l => tree.contains l.node }

/- Add copies of what the body of a page holds to a node. -/
def appendPage
    (d : Document η)
    (parent : NodeId)
    (html : String) :
    Except Fault (Document η × List NodeId) := do
  let (tree, ids) ← d.tree.appendPage parent html
  return ({ d with tree }, ids)

/- Read a page into the document. -/
def addPage
    (d : Document η)
    (html : String) : Except Fault (Document η) :=
  d.editTree (·.addPage html)

end Document

end MarkupMetrics
