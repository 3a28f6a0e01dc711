import MarkupMetrics.Proofs.Document.Dispatch
import MarkupMetrics.Proofs.Session.History
import Mathlib

/-
  This file proves that in every session of a run an event
  runs the listeners that are due, each once, and in the order
  of their ranks.

  Key definitions include:
    * `Session.Dispatches`

  Key theorems include:
    * `Session.dispatches_of_history`
-/

namespace MarkupMetrics

open Dom

namespace Session

/-
  What an event does in a session after some earlier ones.
  The calls are those that are due on the way up from the
  target, in the order of their ranks.  They run in that
  order, and their number is the result.  Without a node as
  target there are none.  A smaller number of a listener
  means that it was attached before.
-/
structure Dispatches
    (s : Session)
    (earlier : List Session)
    (target : NodeId)
    (event : String)
    (chain : List NodeId)
    (calls : List (Call Handler)) : Prop where
  way : s.page.tree.chain target = .ok chain
  found : s.page.calls target event = .ok calls
  due : ∀ c, c ∈ calls ↔ c.Due s.page chain event
  ordered : calls.Pairwise (Call.Before chain)
  once : calls.Nodup
  runs :
    ∀ run,
      s.page.dispatch run target event =
        (do
          Trace.note .page .trace
            ("Dispatching " ++ event ++ " at node " ++
              Text.decimalText target ++ " to " ++
              Text.decimalText calls.length ++ " listeners")
          calls.forM fun c =>
            run c.listener.handler s.page.tree
              ⟨event, target, c.current⟩
          return calls.length)
  missing :
    s.page.tree.contains target = false → calls = []
  attached :
    ∀ r ∈ earlier, ∀ l ∈ s.page.listeners,
      ∀ m ∈ s.page.listeners,
        l ∈ r.page.listeners → m ∉ r.page.listeners →
          l.id < m.id

/- Listeners that were there before have smaller numbers. -/
theorem History.id_lt_id
    {allowed : Session → Action → Prop}
    {s r : Session}
    {earlier : List Session}
    (hHistory : History allowed (s :: earlier))
    (hEarlier : r ∈ earlier)
    {l m : Listener Handler}
    (hMember : m ∈ s.page.listeners)
    (hOld : l ∈ r.page.listeners)
    (hNew : m ∉ r.page.listeners) :
    l.id < m.id := by
  have hAmong := List.mem_cons_of_mem s hEarlier
  have hNumbered := hHistory.numbered r hAmong
  have hBelow := hNumbered.below l hOld
  have hAbove : ¬ m.id < r.page.nextListener := by
    intro hLess
    apply hNew
    exact
      ((hHistory.succeeds r hAmong).mem_old_iff hNumbered
        hMember).mp hLess
  omega

/-
  In every session of a run whose actions are permitted, every
  event at every target runs what is due.
-/
theorem dispatches_of_history
    {s : Session}
    {earlier : List Session}
    (hHistory : History Permits (s :: earlier))
    (target : NodeId)
    (event : String) :
    ∃ chain calls,
      s.Dispatches earlier target event chain calls := by
  have hLinked := hHistory.linked_last
  have hNumbered := hHistory.numbered s (by simp)
  rcases Tree.exists_chain hLinked target with
    ⟨chain, hChain, hNodup⟩
  have hCalls := Document.calls_of_chain hChain event
  have hOrder :
      (s.page.callsAlong event [] chain).Pairwise
        (Call.Before chain) :=
    Document.pairwise_callsAlong hNumbered event
      (Document.pairwise_idxOf hNodup)
  refine ⟨chain, s.page.callsAlong event [] chain, ?_⟩
  constructor
  · exact hChain
  · exact hCalls
  · intro c
    exact Document.mem_callsAlong_iff_due hNumbered hNodup
  · exact hOrder
  · exact Document.nodup_of_pairwise_before hOrder
  · exact Document.dispatch_eq hCalls
  · intro hMissing
    have hNone := Tree.chain_of_not_contains hMissing
    rw [hNone] at hChain
    cases hChain
    rfl
  · intro r hEarlier l _ m hMember hOld hNew
    exact hHistory.id_lt_id hEarlier hMember hOld hNew

/-
  A listener of the document is delegated to elements before
  the element gets one of its own; the latter runs first.
-/
theorem dispatches_of_delegated :
    ∃ s earlier chain calls,
      History Permits (s :: earlier) ∧
        s.Dispatches earlier 1 "click" chain calls ∧
          calls.map
              (fun c => (c.listener.id, c.current)) =
            [(1, 1), (0, 1)] := by
  let box (parent : Option NodeId) : Option Node :=
    some
      { id := 1, parent
        data := .element ⟨.html "div", []⟩ }
  let state (children : List NodeId) (nodes : List (Option Node))
      (listeners : List (Listener Handler)) : Session :=
    start
      { tree :=
          ⟨(some { id := 0, children, data := .document } ::
            nodes).toArray, []⟩
        listeners
        nextListener := listeners.length } {}
  let outer : Listener Handler :=
    ⟨0, 0, "click",
      some ⟨"div", some [.compound [.localName "div"]]⟩,
      .recorder "outer"⟩
  let inner : Listener Handler :=
    ⟨1, 1, "click", none, .recorder "inner"⟩
  have h₀ : History Permits [state [] [] []] := .start {}
  have h₁ :=
    h₀.step (.operation (.page (.createElement "div" [])))
      (state [] [box none] []) trivial rfl
  have h₂ :=
    h₁.step (.build (.append 0 (.node 1)))
      (state [1] [box (some 0)] [])
      (permits_build h₁.linked_last (by decide)) rfl
  have h₃ :=
    h₂.step
      (.operation (.page (.delegate 0 "div" "click" "outer")))
      (state [1] [box (some 0)] [outer]) trivial (by cbv)
  have h₄ :=
    h₃.step (.operation (.page (.bind 1 "click" "inner")))
      (state [1] [box (some 0)] [outer, inner]) trivial rfl
  rcases dispatches_of_history h₄ 1 "click" with
    ⟨chain, calls, hDispatches⟩
  refine ⟨_, _, chain, calls, h₄, hDispatches, ?_⟩
  have hFound := hDispatches.found
  have hCalls :
      (state [1] [box (some 0)] [outer, inner]).page.calls 1
          "click" = .ok [⟨inner, 1⟩, ⟨outer, 1⟩] := by
    cbv
  rw [hCalls] at hFound
  cases hFound
  rfl

end Session

end MarkupMetrics
