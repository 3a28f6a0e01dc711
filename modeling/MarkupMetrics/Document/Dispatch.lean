import MarkupMetrics.Document.Basic

/-
  This file defines how an event runs listeners.

  An event goes from its target up to the root.  At each node
  on the way the delegated listeners come first, once for
  every node passed so far that matches, the target first;
  then come the direct listeners.  Listeners run in the order
  of attaching.  Which ones run is settled before the first
  of them does.

  Key definitions include:
    * `Call`
    * `Listener.waitsFor`
    * `Document.callsAt`
    * `Document.callsAlong`
    * `Document.calls`
    * `Document.dispatch`
-/

namespace MarkupMetrics

open Dom

/- A listener together with the node that it runs for. -/
structure Call (η : Type) where
  listener : Listener η
  current : NodeId

/- Whether a delegated listener runs for a node. -/
def Listener.waitsFor
    {η : Type}
    (l : Listener η)
    (t : Tree)
    (node : NodeId) : Bool :=
  match l.delegation.bind (·.selector) with
  | some list => Selector.matchesList t list node
  | none => false

/- Whether a listener is not delegated. -/
def Listener.isDirect
    {η : Type}
    (l : Listener η) : Bool :=
  l.delegation.isNone

namespace Document

variable {η : Type}

/- The calls at one node, given the nodes passed before it. -/
def callsAt
    (d : Document η)
    (event : String)
    (passed : List NodeId)
    (node : NodeId) : List (Call η) :=
  let here :=
    (d.listenersOf node).filter fun l => l.event == event
  let delegated :=
    passed.flatMap fun current =>
      (here.filter fun l => l.waitsFor d.tree current).map
        fun l => ⟨l, current⟩
  let direct :=
    (here.filter Listener.isDirect).map fun l => ⟨l, node⟩
  delegated ++ direct

/- The calls at the nodes of a chain, from the target up. -/
def callsAlong
    (d : Document η)
    (event : String)
    (passed : List NodeId) : List NodeId → List (Call η)
  | [] => []
  | node :: rest =>
      d.callsAt event passed node ++
        callsAlong d event (passed ++ [node]) rest

/- The calls that an event makes. -/
def calls
    (d : Document η)
    (target : NodeId)
    (event : String) : Except Fault (List (Call η)) := do
  return d.callsAlong event [] (← d.tree.chain target)

/-
  Run the listeners of an event, given how a handler runs,
  and give their number.
-/
def dispatch
    (run : η → Tree → PageEvent → Trace Unit)
    (d : Document η)
    (target : NodeId)
    (event : String) : Trace Nat := do
  let calls ← d.calls target event
  Trace.note .page .trace
    ("Dispatching " ++ event ++ " at node " ++
      Text.decimalText target ++ " to " ++
      Text.decimalText calls.length ++ " listeners")
  calls.forM fun c =>
    run c.listener.handler d.tree ⟨event, target, c.current⟩
  return calls.length

end Document

end MarkupMetrics
