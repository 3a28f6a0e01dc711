import MarkupMetrics.Proofs.Document.Dispatch

/-
  This file compares what an event does in two documents.

  A document with fewer listeners makes the same calls less
  those of the missing ones.  What the listeners are numbered
  makes no difference, as long as they are in the same order
  at each node.

  Key definitions include:
    * `Document.restricted`
    * `Listener.unnumbered`
    * `Document.Matches`

  Key theorems include:
    * `Document.calls_restricted`
    * `Document.Matches.calls`
    * `Document.Matches.dispatch`
-/

namespace MarkupMetrics

open Dom

namespace Document

variable {η : Type}

------------------------------------------------------------
-- Fewer listeners
------------------------------------------------------------

/- A document with some of its listeners only. -/
def restricted
    (d : Document η)
    (keep : Listener η → Bool) : Document η :=
  { d with listeners := d.listeners.filter keep }

@[simp] theorem restricted_tree
    (d : Document η)
    (keep : Listener η → Bool) :
    (d.restricted keep).tree = d.tree :=
  rfl

theorem listenersOf_restricted
    (d : Document η)
    (keep : Listener η → Bool)
    (node : NodeId) :
    (d.restricted keep).listenersOf node =
      (d.listenersOf node).filter keep := by
  simp [listenersOf, restricted, List.filter_filter,
    Bool.and_comm]

theorem callsAt_restricted
    (d : Document η)
    (keep : Listener η → Bool)
    (event : String)
    (passed : List NodeId)
    (node : NodeId) :
    (d.restricted keep).callsAt event passed node =
      (d.callsAt event passed node).filter fun c =>
        keep c.listener := by
  have hKind :
      ∀ (p : Listener η → Bool) (current : NodeId)
          (here : List (Listener η)),
        ((here.filter keep).filter p).map
            (fun l => (⟨l, current⟩ : Call η)) =
          ((here.filter p).map
            (fun l => (⟨l, current⟩ : Call η))).filter
              fun c => keep c.listener := by
    intro p current here
    rw [List.filter_map, List.filter_filter,
      List.filter_filter]
    congr 2
    funext l
    exact Bool.and_comm _ _
  have hHere :
      ((d.restricted keep).listenersOf node).filter
          (fun l => l.event == event) =
        ((d.listenersOf node).filter
          fun l => l.event == event).filter keep := by
    rw [listenersOf_restricted, List.filter_filter,
      List.filter_filter]
    congr 1
    funext l
    exact Bool.and_comm _ _
  simp only [callsAt, hHere, hKind, restricted_tree,
    List.filter_append, List.filter_flatMap]

theorem callsAlong_restricted
    (d : Document η)
    (keep : Listener η → Bool)
    (event : String)
    (passed nodes : List NodeId) :
    (d.restricted keep).callsAlong event passed nodes =
      (d.callsAlong event passed nodes).filter fun c =>
        keep c.listener := by
  induction nodes generalizing passed with
  | nil => rfl
  | cons node rest ih =>
      rw [callsAlong, callsAlong, callsAt_restricted, ih,
        List.filter_append]

/- An event makes the calls of the listeners that are left. -/
theorem calls_restricted
    {d : Document η}
    {target : NodeId}
    {event : String}
    {calls : List (Call η)}
    (hCalls : d.calls target event = .ok calls)
    (keep : Listener η → Bool) :
    (d.restricted keep).calls target event =
      .ok (calls.filter fun c => keep c.listener) := by
  rw [Document.calls, Outcome.bind_eq_ok_iff] at hCalls
  rcases hCalls with ⟨chain, hChain, hDone⟩
  rw [Outcome.pure_eq_ok_iff] at hDone
  subst hDone
  have hSame :
      (d.restricted keep).tree.chain target = .ok chain :=
    hChain
  rw [calls_of_chain hSame, callsAlong_restricted]

end Document

------------------------------------------------------------
-- Other numbers
------------------------------------------------------------

/- A listener without its number. -/
def Listener.unnumbered
    {η : Type}
    (l : Listener η) : Listener η :=
  { l with id := 0 }

/- A call of a listener without its number. -/
def Call.unnumbered
    {η : Type}
    (c : Call η) : Call η :=
  ⟨c.listener.unnumbered, c.current⟩

namespace Document

variable {η : Type}

/-
  Two documents have the same tree, and at each node the same
  listeners in the same order, but for their numbers.
-/
structure Matches
    (d d' : Document η) : Prop where
  tree : d'.tree = d.tree
  listeners :
    ∀ node,
      (d'.listenersOf node).map Listener.unnumbered =
        (d.listenersOf node).map Listener.unnumbered

namespace Matches

variable {d d' : Document η}

theorem refl
    (d : Document η) :
    Matches d d :=
  ⟨rfl, fun _ => rfl⟩

/- What does not look at numbers finds the same listeners. -/
theorem filter
    (hMatches : Matches d d')
    {p : Listener η → Bool}
    (hSame : ∀ l, p l.unnumbered = p l)
    (node : NodeId) :
    ((d'.listenersOf node).filter p).map
        Listener.unnumbered =
      ((d.listenersOf node).filter p).map
        Listener.unnumbered := by
  have hMove :
      ∀ ls : List (Listener η),
        (ls.filter p).map Listener.unnumbered =
          (ls.map Listener.unnumbered).filter p := by
    intro ls
    rw [List.filter_map]
    congr 2
    funext l
    exact (hSame l).symm
  rw [hMove, hMove, hMatches.listeners node]

theorem callsAt
    (hMatches : Matches d d')
    (event : String)
    (passed : List NodeId)
    (node : NodeId) :
    (d'.callsAt event passed node).map Call.unnumbered =
      (d.callsAt event passed node).map Call.unnumbered := by
  have hKind :
      ∀ (p : Listener η → Bool) (current : NodeId),
        (∀ l, p l.unnumbered = p l) →
          ((((d'.listenersOf node).filter
              fun l => l.event == event).filter p).map
              fun l => (⟨l, current⟩ : Call η)).map
                Call.unnumbered =
            ((((d.listenersOf node).filter
              fun l => l.event == event).filter p).map
              fun l => (⟨l, current⟩ : Call η)).map
                Call.unnumbered := by
    intro p current hSame
    have hBoth :=
      hMatches.filter
        (p := fun l => p l && l.event == event)
        (by
          intro l
          simp only [hSame]
          rfl)
        node
    have hCall :=
      congrArg (List.map fun l => (⟨l, current⟩ : Call η))
        hBoth
    rw [List.map_map, List.map_map] at hCall
    rw [List.filter_filter, List.filter_filter, List.map_map,
      List.map_map]
    exact hCall
  have hDelegated :
      ∀ current,
        ∀ l : Listener η,
          l.unnumbered.waitsFor d.tree current =
            l.waitsFor d.tree current :=
    fun _ _ => rfl
  simp only [Document.callsAt, hMatches.tree, List.map_append,
    List.map_flatMap]
  congr 1
  · congr 1
    funext current
    exact hKind _ current (hDelegated current)
  · exact hKind _ node fun _ => rfl

theorem callsAlong
    (hMatches : Matches d d')
    (event : String)
    (passed nodes : List NodeId) :
    (d'.callsAlong event passed nodes).map Call.unnumbered =
      (d.callsAlong event passed nodes).map
        Call.unnumbered := by
  induction nodes generalizing passed with
  | nil => rfl
  | cons node rest ih =>
      rw [Document.callsAlong, Document.callsAlong,
        List.map_append, List.map_append,
        hMatches.callsAt event passed node, ih]

/- An event makes the same calls, but for the numbers. -/
theorem calls
    (hMatches : Matches d d')
    (target : NodeId)
    (event : String) :
    (d'.calls target event).map
        (List.map Call.unnumbered) =
      (d.calls target event).map
        (List.map Call.unnumbered) := by
  cases hChain : d.tree.chain target with
  | error why =>
      have hNone :
          ∀ x : Document η,
            x.tree.chain target = .error why →
              x.calls target event = .error why := by
        intro x hFault
        rw [Document.calls, hFault]
        rfl
      rw [hNone d hChain, hNone d' (hMatches.tree ▸ hChain)]
  | ok chain =>
      have hSame : d'.tree.chain target = .ok chain := by
        rw [hMatches.tree, hChain]
      rw [calls_of_chain hChain, calls_of_chain hSame]
      exact
        congrArg Except.ok
          (hMatches.callsAlong event [] chain)

/- Running the calls does not look at the numbers. -/
theorem forM_unnumbered
    (calls : List (Call η))
    (run : Call η → Trace Unit)
    (hSame : ∀ c, run c.unnumbered = run c) :
    (calls.map Call.unnumbered).forM run =
      calls.forM run := by
  induction calls with
  | nil => rfl
  | cons c rest ih =>
      simp only [List.forM_eq_forM] at ih ⊢
      rw [List.map_cons, List.forM_cons, List.forM_cons, ih,
        hSame c]

/- So an event does the same. -/
theorem dispatch
    (hMatches : Matches d d')
    (run : η → Tree → PageEvent → Trace Unit)
    (target : NodeId)
    (event : String) :
    d'.dispatch run target event =
      d.dispatch run target event := by
  have hCalls := hMatches.calls target event
  unfold Document.dispatch
  cases hOld : d.calls target event with
  | error why =>
      cases hNew : d'.calls target event with
      | error why' =>
          rw [hOld, hNew] at hCalls
          cases hCalls
          rfl
      | ok calls' =>
          rw [hOld, hNew] at hCalls
          cases hCalls
  | ok calls =>
      cases hNew : d'.calls target event with
      | error why' =>
          rw [hOld, hNew] at hCalls
          cases hCalls
      | ok calls' =>
          rw [hOld, hNew] at hCalls
          have hSame :
              calls'.map Call.unnumbered =
                calls.map Call.unnumbered := by
            simpa [Except.map] using hCalls
          have hLength : calls'.length = calls.length := by
            simpa using congrArg List.length hSame
          let each : Call η → Trace Unit := fun c =>
            run c.listener.handler d.tree
              ⟨event, target, c.current⟩
          have hEach : calls'.forM each = calls.forM each := by
            rw [← forM_unnumbered calls' each fun _ => rfl,
              ← forM_unnumbered calls each fun _ => rfl, hSame]
          simp only [Trace.lift_ok, pure_bind, hMatches.tree,
            hLength]
          rw [hEach]

end Matches

end Document

end MarkupMetrics
