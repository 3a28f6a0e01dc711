import MarkupMetrics.Document.Dispatch
import MarkupMetrics.Proofs.Document.Listeners

/-
  This file proves which listeners an event runs, and in what
  order.

  The order is that of the ranks of the calls: the place of
  the listener's node on the way up, delegated before direct,
  the place of the node that the listener runs for, and the
  number of the listener.

  Key definitions include:
    * `Call.Due`
    * `Call.rank`
    * `Call.Before`

  Key theorems include:
    * `Document.mem_callsAlong_iff`
    * `Document.pairwise_callsAlong`
    * `Document.listener_of_calls`
    * `Document.dispatch_eq`
-/

namespace MarkupMetrics

open Dom

------------------------------------------------------------
-- Calls that are due
------------------------------------------------------------

namespace Call

variable {η : Type}

/-
  An event that goes up a chain has to make a call: the
  listener is one for the event on a node of the chain.  A
  direct one runs for that node, and a delegated one for the
  nodes passed before it that match its selector.
-/
structure Due
    (d : Document η)
    (chain : List NodeId)
    (event : String)
    (c : Call η) : Prop where
  attached : c.listener ∈ d.listeners
  event : c.listener.event = event
  reached : c.listener.node ∈ chain
  current :
    match c.listener.source? with
    | none => c.current = c.listener.node
    | some source =>
        c.current ∈ chain ∧
          chain.idxOf c.current <
            chain.idxOf c.listener.node ∧
            ∃ list,
              Selector.parse source = .ok list ∧
                Selector.matchesList d.tree list c.current =
                  true

/- What the order of calls goes by. -/
def rank
    (chain : List NodeId)
    (c : Call η) : Nat × Nat × Nat × Nat :=
  (chain.idxOf c.listener.node,
    if c.listener.isDirect then 1 else 0,
    chain.idxOf c.current,
    c.listener.id)

/- One call has a smaller rank than another. -/
def Before
    (chain : List NodeId)
    (c c' : Call η) : Prop :=
  Prod.Lex (· < ·)
    (Prod.Lex (· < ·) (Prod.Lex (· < ·) (· < ·)))
    (c.rank chain) (c'.rank chain)

/- No call has a smaller rank than itself. -/
theorem not_before_self
    (chain : List NodeId)
    (c : Call η) :
    ¬ c.Before chain c := by
  simp [Before, Prod.lex_def]

variable {chain : List NodeId}
variable {c c' : Call η}

/- A call at a node comes before those further up. -/
theorem before_of_node
    (hLess :
      chain.idxOf c.listener.node <
        chain.idxOf c'.listener.node) :
    c.Before chain c' := by
  simp [Before, rank, Prod.lex_def, hLess]

/- At one node delegated ones come before direct ones. -/
theorem before_of_kind
    (hNode : c.listener.node = c'.listener.node)
    (hDelegated : c.listener.isDirect = false)
    (hDirect : c'.listener.isDirect = true) :
    c.Before chain c' := by
  simp [Before, rank, Prod.lex_def, hNode, hDelegated,
    hDirect]

/- Of one kind the nearer to the target comes before. -/
theorem before_of_current
    (hNode : c.listener.node = c'.listener.node)
    (hKind : c.listener.isDirect = c'.listener.isDirect)
    (hLess :
      chain.idxOf c.current < chain.idxOf c'.current) :
    c.Before chain c' := by
  simp [Before, rank, Prod.lex_def, hNode, hKind, hLess]

/- For one node the listener attached first comes before. -/
theorem before_of_id
    (hNode : c.listener.node = c'.listener.node)
    (hKind : c.listener.isDirect = c'.listener.isDirect)
    (hCurrent : c.current = c'.current)
    (hLess : c.listener.id < c'.listener.id) :
    c.Before chain c' := by
  simp [Before, rank, Prod.lex_def, hNode, hKind, hCurrent,
    hLess]

end Call

------------------------------------------------------------
-- The calls at a node
------------------------------------------------------------

namespace Document

variable {η : Type}
variable {d : Document η}

/- A listener waits for the nodes that match its selector. -/
theorem waitsFor_iff
    (hNumbered : d.Numbered)
    {l : Listener η}
    (hMember : l ∈ d.listeners)
    (t : Tree)
    (node : NodeId) :
    l.waitsFor t node = true ↔
      ∃ source list,
        l.source? = some source ∧
          Selector.parse source = .ok list ∧
            Selector.matchesList t list node = true := by
  have hRead := hNumbered.read l hMember
  unfold Listener.waitsFor
  rw [hRead]
  cases hSource : l.source? with
  | none => simp
  | some source =>
      cases hParse : Selector.parse source with
      | error e =>
          simp [Delegation.ofText, hParse, Except.toOption]
      | ok list =>
          simp [Delegation.ofText, hParse, Except.toOption]

theorem isDirect_iff
    (l : Listener η) :
    l.isDirect = true ↔ l.source? = none := by
  simp [Listener.isDirect, Listener.source?]

/-
  At a node a direct listener runs for the node itself, and a
  delegated one for nodes that were passed.
-/
theorem mem_callsAt_iff
    {event : String}
    {passed : List NodeId}
    {node : NodeId}
    {c : Call η} :
    c ∈ d.callsAt event passed node ↔
      (c.listener ∈ d.listeners ∧ c.listener.node = node ∧
        c.listener.event = event) ∧
        ((c.current ∈ passed ∧
            c.listener.waitsFor d.tree c.current = true) ∨
          (c.listener.isDirect = true ∧ c.current = node)) := by
  rcases c with ⟨l, current⟩
  simp only [callsAt, listenersOf, List.mem_append,
    List.mem_flatMap, List.mem_map, List.mem_filter,
    beq_iff_eq, Call.mk.injEq]
  constructor
  · rintro
      (⟨x, hPassed, m, ⟨⟨⟨hIn, hNode⟩, hEvent⟩, hWaits⟩,
          rfl, rfl⟩ |
        ⟨m, ⟨⟨⟨hIn, hNode⟩, hEvent⟩, hDirect⟩, rfl, rfl⟩)
    · exact
        ⟨⟨hIn, hNode, hEvent⟩, Or.inl ⟨hPassed, hWaits⟩⟩
    · exact ⟨⟨hIn, hNode, hEvent⟩, Or.inr ⟨hDirect, rfl⟩⟩
  · rintro
      ⟨⟨hIn, hNode, hEvent⟩,
        ⟨hPassed, hWaits⟩ | ⟨hDirect, rfl⟩⟩
    · exact
        Or.inl
          ⟨current, hPassed, l,
            ⟨⟨⟨hIn, hNode⟩, hEvent⟩, hWaits⟩, rfl, rfl⟩
    · exact
        Or.inr
          ⟨l, ⟨⟨⟨hIn, hNode⟩, hEvent⟩, hDirect⟩, rfl, rfl⟩

/- The calls of a way up are those at its nodes. -/
theorem mem_callsAlong_iff
    {event : String}
    {passed nodes : List NodeId}
    {c : Call η} :
    c ∈ d.callsAlong event passed nodes ↔
      ∃ before node after,
        nodes = before ++ node :: after ∧
          c ∈ d.callsAt event (passed ++ before) node := by
  induction nodes generalizing passed with
  | nil => simp [callsAlong]
  | cons first rest ih =>
      rw [callsAlong, List.mem_append, ih]
      constructor
      · rintro (hHere | ⟨before, node, after, rfl, hLater⟩)
        · exact ⟨[], first, rest, rfl, by simpa using hHere⟩
        · exact
            ⟨first :: before, node, after, rfl,
              by simpa using hLater⟩
      · rintro ⟨before, node, after, hSplit, hCall⟩
        cases before with
        | nil =>
            simp only [List.nil_append, List.cons.injEq]
              at hSplit
            rcases hSplit with ⟨rfl, rfl⟩
            exact Or.inl (by simpa using hCall)
        | cons head before =>
            simp only [List.cons_append, List.cons.injEq]
              at hSplit
            rcases hSplit with ⟨rfl, rfl⟩
            exact
              Or.inr
                ⟨before, node, after, rfl,
                  by simpa using hCall⟩

------------------------------------------------------------
-- The calls of a way up
------------------------------------------------------------

/- Places in a list without repetition increase along it. -/
theorem pairwise_idxOf
    {nodes : List NodeId}
    (hNodup : nodes.Nodup) :
    nodes.Pairwise fun x y =>
      nodes.idxOf x < nodes.idxOf y := by
  rw [List.pairwise_iff_getElem]
  intro i j hi hj hLess
  rw [hNodup.idxOf_getElem i hi, hNodup.idxOf_getElem j hj]
  exact hLess

/- What comes before a node in a chain has a smaller place. -/
theorem mem_before_iff
    {before after : List NodeId}
    {node x : NodeId}
    (hNodup : (before ++ node :: after).Nodup) :
    x ∈ before ↔
      x ∈ before ++ node :: after ∧
        (before ++ node :: after).idxOf x <
          (before ++ node :: after).idxOf node := by
  have hOrder := pairwise_idxOf hNodup
  rw [List.pairwise_append, List.pairwise_cons] at hOrder
  rcases hOrder with ⟨_, ⟨hAfter, _⟩, hBefore⟩
  constructor
  · intro hMember
    exact
      ⟨by simp [hMember], hBefore x hMember node (by simp)⟩
  · rintro ⟨hMember, hLess⟩
    rcases List.mem_append.mp hMember with hFirst | hLater
    · exact hFirst
    · rcases List.mem_cons.mp hLater with rfl | hLast
      · exact (Nat.lt_irrefl _ hLess).elim
      · exact
          (Nat.lt_asymm hLess (hAfter x hLast)).elim

/- The calls of a way up are those that are due. -/
theorem mem_callsAlong_iff_due
    (hNumbered : d.Numbered)
    {chain : List NodeId}
    (hNodup : chain.Nodup)
    {event : String}
    {c : Call η} :
    c ∈ d.callsAlong event [] chain ↔ c.Due d chain event := by
  rw [mem_callsAlong_iff]
  constructor
  · rintro ⟨before, node, after, rfl, hCall⟩
    rw [List.nil_append, mem_callsAt_iff] at hCall
    rcases hCall with ⟨⟨hIn, rfl, hEvent⟩, hCurrent⟩
    refine ⟨hIn, hEvent, by simp, ?_⟩
    rcases hCurrent with ⟨hPassed, hWaits⟩ | ⟨hDirect, hSame⟩
    · rw [waitsFor_iff hNumbered hIn] at hWaits
      rcases hWaits with ⟨source, list, hSource, hMatch⟩
      rcases (mem_before_iff hNodup).mp hPassed with
        ⟨hMember, hLess⟩
      rw [hSource]
      exact ⟨hMember, hLess, list, hMatch⟩
    · rw [isDirect_iff] at hDirect
      rw [hDirect]
      exact hSame
  · rintro ⟨hIn, hEvent, hReached, hCurrent⟩
    rcases List.append_of_mem hReached with
      ⟨before, after, hSplit⟩
    refine ⟨before, _, after, hSplit, ?_⟩
    rw [List.nil_append, mem_callsAt_iff]
    refine ⟨⟨hIn, rfl, hEvent⟩, ?_⟩
    cases hSource : c.listener.source? with
    | none =>
        rw [hSource] at hCurrent
        exact Or.inr ⟨(isDirect_iff _).mpr hSource, hCurrent⟩
    | some source =>
        rw [hSource] at hCurrent
        rcases hCurrent with ⟨hMember, hLess, list, hMatch⟩
        rw [hSplit] at hNodup hMember hLess
        refine
          Or.inl
            ⟨(mem_before_iff hNodup).mpr ⟨hMember, hLess⟩, ?_⟩
        rw [waitsFor_iff hNumbered hIn]
        exact ⟨source, list, hSource, hMatch⟩

/- At one node the calls are in the order of their ranks. -/
theorem pairwise_callsAt
    (hNumbered : d.Numbered)
    {chain passed : List NodeId}
    (hOrder :
      passed.Pairwise fun x y =>
        chain.idxOf x < chain.idxOf y)
    (event : String)
    (node : NodeId) :
    (d.callsAt event passed node).Pairwise
      (Call.Before chain) := by
  have hHere :
      ((d.listenersOf node).filter fun l =>
        l.event == event).Pairwise fun l m => l.id < m.id :=
    (hNumbered.increasing.filter _).filter _
  have hNode :
      ∀ l ∈ (d.listenersOf node).filter
          (fun l => l.event == event), l.node = node := by
    intro l hMember
    simpa [listenersOf] using
      (List.mem_filter.mp (List.mem_filter.mp hMember).1).2
  have hDelegated :
      ∀ {l : Listener η} {current : NodeId},
        l.waitsFor d.tree current = true →
          l.isDirect = false := by
    intro l current hWaits
    cases hDelegation : l.delegation with
    | none => simp [Listener.waitsFor, hDelegation] at hWaits
    | some delegation =>
        simp [Listener.isDirect, hDelegation]
  simp only [callsAt]
  rw [List.pairwise_append, List.pairwise_flatMap]
  refine ⟨⟨?_, ?_⟩, ?_, ?_⟩
  · intro current _
    rw [List.pairwise_map]
    refine (hHere.filter _).imp_of_mem ?_
    intro l m hFirst hSecond hLess
    rw [List.mem_filter] at hFirst hSecond
    apply Call.before_of_id
    · exact (hNode l hFirst.1).trans (hNode m hSecond.1).symm
    · exact
        (hDelegated hFirst.2).trans (hDelegated hSecond.2).symm
    · rfl
    · exact hLess
  · refine hOrder.imp ?_
    intro x y hLess c hFirst c' hSecond
    rw [List.mem_map] at hFirst hSecond
    rcases hFirst with ⟨l, hMember, rfl⟩
    rcases hSecond with ⟨m, hOther, rfl⟩
    rw [List.mem_filter] at hMember hOther
    apply Call.before_of_current
    · exact (hNode l hMember.1).trans (hNode m hOther.1).symm
    · exact
        (hDelegated hMember.2).trans (hDelegated hOther.2).symm
    · exact hLess
  · rw [List.pairwise_map]
    refine (hHere.filter _).imp_of_mem ?_
    intro l m hFirst hSecond hLess
    rw [List.mem_filter] at hFirst hSecond
    apply Call.before_of_id
    · exact (hNode l hFirst.1).trans (hNode m hSecond.1).symm
    · exact hFirst.2.trans hSecond.2.symm
    · rfl
    · exact hLess
  · intro c hFirst c' hSecond
    rw [List.mem_flatMap] at hFirst
    rw [List.mem_map] at hSecond
    rcases hFirst with ⟨current, _, hFirst⟩
    rw [List.mem_map] at hFirst
    rcases hFirst with ⟨l, hMember, rfl⟩
    rcases hSecond with ⟨m, hOther, rfl⟩
    rw [List.mem_filter] at hMember hOther
    apply Call.before_of_kind
    · exact (hNode l hMember.1).trans (hNode m hOther.1).symm
    · exact hDelegated hMember.2
    · exact hOther.2

/-
  So they are along the whole way up: a node that comes later
  has a greater place in the chain.
-/
theorem pairwise_callsAlong
    (hNumbered : d.Numbered)
    (event : String)
    {chain passed nodes : List NodeId}
    (hOrder :
      (passed ++ nodes).Pairwise fun x y =>
        chain.idxOf x < chain.idxOf y) :
    (d.callsAlong event passed nodes).Pairwise
      (Call.Before chain) := by
  induction nodes generalizing passed with
  | nil => exact List.Pairwise.nil
  | cons node rest ih =>
      have hParts := List.pairwise_append.mp hOrder
      have hLater := (List.pairwise_cons.mp hParts.2.1).1
      rw [callsAlong, List.pairwise_append]
      refine
        ⟨pairwise_callsAt hNumbered hParts.1 event node,
          ih (by simpa using hOrder), ?_⟩
      intro c hFirst c' hSecond
      rw [mem_callsAt_iff] at hFirst
      rw [mem_callsAlong_iff] at hSecond
      rcases hSecond with
        ⟨before, node', after, hSplit, hSecond⟩
      rw [mem_callsAt_iff] at hSecond
      have hLess := hLater node' (by simp [hSplit])
      rw [← hFirst.1.2.1, ← hSecond.1.2.1] at hLess
      exact Call.before_of_node hLess

/- All calls of an event are ranked, and none is made twice. -/
theorem nodup_of_pairwise_before
    {chain : List NodeId}
    {calls : List (Call η)}
    (hOrder : calls.Pairwise (Call.Before chain)) :
    calls.Nodup := by
  refine hOrder.imp ?_
  rintro c c' hBefore rfl
  exact c.not_before_self chain hBefore

/- The calls of an event are those along the way up. -/
theorem calls_of_chain
    {target : NodeId}
    {chain : List NodeId}
    (hChain : d.tree.chain target = .ok chain)
    (event : String) :
    d.calls target event =
      .ok (d.callsAlong event [] chain) := by
  simp [calls, hChain]

/- Whatever is called is attached. -/
theorem listener_of_calls
    {target : NodeId}
    {event : String}
    {calls : List (Call η)}
    (hCalls : d.calls target event = .ok calls)
    {c : Call η}
    (hMember : c ∈ calls) :
    c.listener ∈ d.listeners := by
  rw [Document.calls, Outcome.bind_eq_ok_iff] at hCalls
  rcases hCalls with ⟨chain, _, hDone⟩
  cases Outcome.pure_eq_ok_iff.mp hDone
  rcases mem_callsAlong_iff.mp hMember with
    ⟨before, node, after, _, hAt⟩
  exact (mem_callsAt_iff.mp hAt).1.1

/-
  An event makes its calls in order, each for the same target
  and for the node that the call is for, and gives their
  number.
-/
theorem dispatch_eq
    {target : NodeId}
    {event : String}
    {calls : List (Call η)}
    (hCalls : d.calls target event = .ok calls)
    (run : η → Tree → PageEvent → Trace Unit) :
    d.dispatch run target event =
      (do
        Trace.note .page .trace
          ("Dispatching " ++ event ++ " at node " ++
            Text.decimalText target ++ " to " ++
            Text.decimalText calls.length ++ " listeners")
        calls.forM fun c =>
          run c.listener.handler d.tree
            ⟨event, target, c.current⟩
        return calls.length) := by
  rw [dispatch, hCalls, Trace.lift_ok, pure_bind]

end Document

end MarkupMetrics
