import MarkupMetrics.Proofs.Document.Comparing
import MarkupMetrics.Proofs.Dom.Climb
import Mathlib.Data.List.Nodup

/-
  This file compares a delegated listener with direct ones on
  the nodes that its selector finds at the moment.

  On the way up from a target the delegated listener runs for
  the nodes that were passed and match.  The direct ones run
  for the nodes on the way that were found.  These are the
  same, as the nodes passed before the listening one are those
  that stand below it.

  Key definitions include:
    * `Document.bindEach`
    * `Document.Runs`

  Key theorems include:
    * `Document.bindEach_gives_iff`
    * `Document.currents_of_delegated`
    * `Document.currents_of_direct`
    * `Tree.filter_found_eq`
    * `Document.runs_of_delegated`
    * `Document.runs_of_directs`
-/

namespace MarkupMetrics

open Dom

namespace Document

variable {η : Type}

------------------------------------------------------------
-- Binding several nodes
------------------------------------------------------------

/- Attach a direct listener to each of some nodes. -/
def bindEach
    (d : Document η)
    (event : String)
    (h : η) : List NodeId → Trace (Document η × List Nat)
  | [] => return (d, [])
  | node :: rest => do
      let (d, id) ← d.bind node event h
      let (d, ids) ← d.bindEach event h rest
      return (d, id :: ids)

/- The direct listeners for some nodes, with numbers in a row. -/
def directs
    (event : String)
    (h : η)
    (first : Nat)
    (nodes : List NodeId) : List (Listener η) :=
  (nodes.zipIdx first).map fun x => ⟨x.2, x.1, event, none, h⟩

/- A document with a direct listener on each of some nodes. -/
def boundEach
    (d : Document η)
    (event : String)
    (h : η)
    (nodes : List NodeId) : Document η :=
  { d with
    listeners :=
      d.listeners ++ directs event h d.nextListener nodes
    nextListener := d.nextListener + nodes.length }

/- Binding always ends, and missing nodes aside attaches all. -/
theorem bindEach_gives_iff
    {d : Document η}
    {event : String}
    {h : η}
    {nodes : List NodeId}
    (hLive : ∀ x ∈ nodes, d.tree.contains x = true)
    {result : Document η × List Nat} :
    (d.bindEach event h nodes).Gives result ↔
      result =
        (d.boundEach event h nodes,
          List.range' d.nextListener nodes.length) := by
  induction nodes generalizing d result with
  | nil =>
      rw [bindEach, Trace.gives_pure_iff, eq_comm]
      simp [boundEach, directs]
  | cons node rest ih =>
      have hFirst := hLive node List.mem_cons_self
      have hRest :
          ∀ x ∈ rest,
            (d.attached node event none h).tree.contains x =
              true :=
        fun x hMember => hLive x (List.mem_cons_of_mem _ hMember)
      have hBoth :
          (d.attached node event none h).boundEach event h rest =
            d.boundEach event h (node :: rest) := by
        simp [boundEach, attached, hFirst, directs,
          Nat.add_comm, Nat.add_left_comm]
      simp only [bindEach, Trace.gives_bind_iff,
        bind_gives_iff, exists_eq_left, ih hRest, hBoth,
        Trace.gives_pure_iff]
      rw [eq_comm]
      rfl

------------------------------------------------------------
-- What listeners run for
------------------------------------------------------------

/-
  In an event the listeners with certain numbers, all of which
  have the same handler, run for certain nodes in this order.
-/
structure Runs
    (d : Document η)
    (ids : List Nat)
    (h : η)
    (target : NodeId)
    (event : String)
    (calls : List (Call η))
    (currents : List NodeId) : Prop where
  dispatch :
    ∀ run,
      d.dispatch run target event =
        (do
          Trace.note .page .trace
            ("Dispatching " ++ event ++ " at node " ++
              Text.decimalText target ++ " to " ++
              Text.decimalText calls.length ++ " listeners")
          calls.forM fun c =>
            run c.listener.handler d.tree
              ⟨event, target, c.current⟩
          return calls.length)
  handlers :
    ∀ c ∈ calls, c.listener.id ∈ ids → c.listener.handler = h
  currents :
    (calls.filter fun c => ids.contains c.listener.id).map
        (·.current) =
      currents

/- The document with the listeners with certain numbers only. -/
def only
    (d : Document η)
    (ids : List Nat) : Document η :=
  d.restricted fun l => ids.contains l.id

/- What listeners run for does not depend on the others. -/
theorem runs_of_only
    {d : Document η}
    {ids : List Nat}
    {h : η}
    {target : NodeId}
    {event : String}
    {chain currents : List NodeId}
    (hChain : d.tree.chain target = .ok chain)
    (hHandlers :
      ∀ l ∈ (d.only ids).listeners, l.handler = h)
    (hCurrents :
      ((d.only ids).callsAlong event [] chain).map
          (·.current) =
        currents) :
    d.Runs ids h target event (d.callsAlong event [] chain)
      currents where
  dispatch := dispatch_eq (calls_of_chain hChain event)
  handlers := by
    intro c hMember hId
    rcases mem_callsAlong_iff.mp hMember with
      ⟨before, node, after, _, hCall⟩
    apply hHandlers
    exact
      List.mem_filter.mpr
        ⟨(mem_callsAt_iff.mp hCall).1.1, by simpa using hId⟩
  currents := by
    rw [← hCurrents, only, callsAlong_restricted]

section Delegated

variable {d : Document η}
variable {event : String}
variable {l : Listener η}

/- Where their node is not met listeners do not run. -/
theorem callsAlong_of_not_met
    {node : NodeId}
    (hOnly : ∀ m ∈ d.listeners, m.node = node)
    {passed nodes : List NodeId}
    (hAway : node ∉ nodes) :
    d.callsAlong event passed nodes = [] := by
  rw [List.eq_nil_iff_forall_not_mem]
  intro c hMember
  rcases mem_callsAlong_iff.mp hMember with
    ⟨before, met, after, rfl, hCall⟩
  rcases (mem_callsAt_iff.mp hCall).1 with ⟨hIn, hNode, _⟩
  apply hAway
  rw [← hOnly _ hIn, hNode]
  simp

/- At its node a delegated listener runs for what was passed. -/
theorem currents_at_delegated
    (hOnly : d.listeners = [l])
    (hEvent : l.event = event)
    (hDelegated : l.isDirect = false)
    (passed : List NodeId) :
    (d.callsAt event passed l.node).map (·.current) =
      passed.filter (l.waitsFor d.tree) := by
  have hHere :
      ((d.listenersOf l.node).filter fun m =>
        m.event == event) = [l] := by
    simp [listenersOf, hOnly, hEvent]
  simp only [callsAt, hHere, List.filter_cons, hDelegated,
    Bool.false_eq_true, if_false, List.filter_nil,
    List.map_nil, List.append_nil, List.map_flatMap]
  induction passed with
  | nil => rfl
  | cons x rest ih =>
      rw [List.flatMap_cons, ih, List.filter_cons]
      cases l.waitsFor d.tree x with
      | true => rfl
      | false => rfl

/-
  On a way up through its node it runs for those before that
  node that match.
-/
theorem currents_of_delegated
    (hOnly : d.listeners = [l])
    (hEvent : l.event = event)
    (hDelegated : l.isDirect = false)
    {passed before after : List NodeId}
    (hNodup : (before ++ l.node :: after).Nodup) :
    (d.callsAlong event passed
        (before ++ l.node :: after)).map (·.current) =
      (passed ++ before).filter (l.waitsFor d.tree) := by
  have hAll : ∀ m ∈ d.listeners, m.node = l.node := by
    simp [hOnly]
  induction before generalizing passed with
  | nil =>
      have hLater : l.node ∉ after :=
        (List.nodup_cons.mp hNodup).1
      rw [List.nil_append, callsAlong,
        callsAlong_of_not_met hAll hLater, List.append_nil,
        List.append_nil,
        currents_at_delegated hOnly hEvent hDelegated]
  | cons x rest ih =>
      rw [List.cons_append, List.nodup_cons] at hNodup
      have hOther : l.node ≠ x := by
        rintro rfl
        exact hNodup.1 (by simp)
      have hHere : d.callsAt event passed x = [] := by
        have hFirst : l.node ∉ [x] := by simpa using hOther
        have hNone : d.callsAlong event passed [x] = [] :=
          callsAlong_of_not_met hAll hFirst
        simpa [callsAlong] using hNone
      rw [List.cons_append, callsAlong, hHere, List.nil_append,
        ih hNodup.2, List.append_assoc]
      rfl

end Delegated

section Direct

variable {d : Document η}
variable {event : String}

/- Direct listeners at a node run for that node. -/
theorem callsAt_of_direct
    (hDirect :
      ∀ l ∈ d.listeners, l.isDirect = true ∧ l.event = event)
    (passed : List NodeId)
    (node : NodeId) :
    d.callsAt event passed node =
      (d.listenersOf node).map fun l => ⟨l, node⟩ := by
  have hThere :
      ∀ l ∈ d.listenersOf node,
        l.isDirect = true ∧ l.event = event :=
    fun l hMember => hDirect l (List.mem_of_mem_filter hMember)
  have hHere :
      ((d.listenersOf node).filter fun l => l.event == event) =
        d.listenersOf node :=
    List.filter_eq_self.mpr fun l hMember =>
      beq_iff_eq.mpr (hThere l hMember).2
  have hKind :
      (d.listenersOf node).filter Listener.isDirect =
        d.listenersOf node :=
    List.filter_eq_self.mpr fun l hMember =>
      (hThere l hMember).1
  have hNone :
      ∀ current,
        (d.listenersOf node).filter
            (fun l => l.waitsFor d.tree current) = [] := by
    intro current
    apply List.filter_eq_nil_iff.mpr
    intro l hMember hWaits
    have hDelegation : l.delegation = none := by
      simpa [Listener.isDirect] using (hThere l hMember).1
    simp [Listener.waitsFor, hDelegation] at hWaits
  simp [callsAt, hHere, hKind, hNone]

/-
  If no node has two of them they run for those nodes on the
  way up that they are attached to.
-/
theorem currents_of_direct
    (hDirect :
      ∀ l ∈ d.listeners, l.isDirect = true ∧ l.event = event)
    (hOnce : (d.listeners.map (·.node)).Nodup)
    (passed nodes : List NodeId) :
    (d.callsAlong event passed nodes).map (·.current) =
      nodes.filter fun x =>
        decide (x ∈ d.listeners.map (·.node)) := by
  have hHere :
      ∀ passed node,
        (d.callsAt event passed node).map (·.current) =
          if node ∈ d.listeners.map (·.node) then [node]
          else [] := by
    intro passed node
    have hNodes :
        (d.callsAt event passed node).map (·.current) =
          (d.listeners.map (·.node)).filter (· == node) := by
      rw [callsAt_of_direct hDirect, List.map_map,
        List.filter_map]
      apply List.map_congr_left
      intro l hMember
      exact (beq_iff_eq.mp (List.mem_filter.mp hMember).2).symm
    rw [hNodes, List.filter_beq, hOnce.count]
    split <;> rfl
  induction nodes generalizing passed with
  | nil => rfl
  | cons x rest ih =>
      rw [callsAlong, List.map_append, ih, hHere,
        List.filter_cons]
      by_cases hMember : x ∈ d.listeners.map (·.node)
      · simp [hMember]
      · simp [hMember]

end Direct

end Document

------------------------------------------------------------
-- What is found on the way up
------------------------------------------------------------

namespace Dom.Tree

variable {t : Tree}
variable {source : String}
variable {target scope : NodeId}
variable {found chain before after : List NodeId}

/-
  Of a chain through the scope what is found stands before the
  scope, and all that does and matches is found.
-/
theorem filter_found_eq
    (hLinked : t.Linked)
    (hFind : (t.find scope source).Gives found)
    (hChain : t.chain target = .ok chain)
    (hSplit : chain = before ++ scope :: after)
    (hNodup : chain.Nodup) :
    chain.filter (fun x => decide (x ∈ found)) =
      before.filter (t.selects source) := by
  have hThere : scope ∈ chain := by simp [hSplit]
  have hLive : t.contains scope = true := by
    rcases (mem_chain_iff hLinked hChain).mp hThere with
      ⟨hTarget, hWithin⟩
    exact hLinked.contains_of_within hTarget hWithin
  have hOrder := pairwise_chain hChain
  rw [hSplit, List.pairwise_append, List.pairwise_cons]
    at hOrder
  rw [hSplit, List.nodup_append, List.nodup_cons] at hNodup
  have hBefore :
      ∀ x ∈ before,
        decide (x ∈ found) = t.selects source x := by
    intro x hMember
    have hOther : x ≠ scope :=
      hNodup.2.2 x hMember scope List.mem_cons_self
    have hWithin : t.Within x scope :=
      hOrder.2.2 x hMember scope List.mem_cons_self
    have hFound := mem_found_iff (x := x) hLinked hFind
    rw [Bool.eq_iff_iff, decide_eq_true_eq, hFound]
    simp [hLive, hOther, hWithin]
  have hScope : scope ∉ found := fun hMember =>
    ((mem_found_iff hLinked hFind).mp hMember).2.1 rfl
  have hAfter : ∀ x ∈ after, x ∉ found := by
    intro x hLater hMember
    rcases (mem_found_iff hLinked hFind).mp hMember with
      ⟨_, hOther, hWithin, _⟩
    exact
      hOther
        (hLinked.eq_of_within hWithin (hOrder.2.1.1 x hLater))
  have hNone :
      after.filter (fun x => decide (x ∈ found)) = [] :=
    List.filter_eq_nil_iff.mpr (by simpa using hAfter)
  rw [hSplit, List.filter_append,
    List.filter_cons_of_neg (by simpa using hScope), hNone,
    List.append_nil, List.filter_congr hBefore]

/- Of a chain that misses the scope nothing is found. -/
theorem filter_found_eq_nil
    (hLinked : t.Linked)
    (hFind : (t.find scope source).Gives found)
    (hChain : t.chain target = .ok chain)
    (hAway : scope ∉ chain) :
    chain.filter (fun x => decide (x ∈ found)) = [] := by
  apply List.filter_eq_nil_iff.mpr
  intro x hMember hThere
  rcases (mem_found_iff hLinked hFind).mp
      (of_decide_eq_true hThere) with ⟨_, _, hWithin, _⟩
  rcases (mem_chain_iff hLinked hChain).mp hMember with
    ⟨hTarget, hAbove⟩
  exact
    hAway
      ((mem_chain_iff hLinked hChain).mpr
        ⟨hTarget, hAbove.trans hWithin⟩)

end Dom.Tree

------------------------------------------------------------
-- Delegated and direct
------------------------------------------------------------

namespace Document

variable {η : Type}
variable {d : Document η}

/- The number given last is that of the new listener alone. -/
theorem only_newest
    (hNumbered : d.Numbered)
    (node : NodeId)
    (event : String)
    (delegation : Option Delegation)
    (h : η) :
    ((d.attached node event delegation h).only
        [d.nextListener]).listeners =
      if d.tree.contains node then
        [⟨d.nextListener, node, event, delegation, h⟩]
      else [] := by
  have hOld :
      (d.listeners.filter fun l =>
        [d.nextListener].contains l.id) = [] := by
    apply List.filter_eq_nil_iff.mpr
    intro l hMember hSame
    have hBelow := hNumbered.below l hMember
    have hId : l.id = d.nextListener := by simpa using hSame
    omega
  cases hLive : d.tree.contains node with
  | true =>
      simp only [only, restricted, attached, hLive, if_true,
        List.filter_append, hOld, List.nil_append]
      simp
  | false =>
      simp only [only, restricted, attached, hLive,
        Bool.false_eq_true, if_false, hOld]

/- The numbers given last are those of the new listeners. -/
theorem only_newest_directs
    (hNumbered : d.Numbered)
    (event : String)
    (h : η)
    (nodes : List NodeId) :
    ((d.boundEach event h nodes).only
        (List.range' d.nextListener nodes.length)).listeners =
      directs event h d.nextListener nodes := by
  have hOld :
      (d.listeners.filter fun l =>
        (List.range' d.nextListener nodes.length).contains
          l.id) = [] := by
    apply List.filter_eq_nil_iff.mpr
    intro l hMember hSame
    have hBelow := hNumbered.below l hMember
    have hRange := List.mem_range'_1.mp (by simpa using hSame)
    omega
  have hNew :
      ((directs event h d.nextListener nodes).filter fun l =>
        (List.range' d.nextListener nodes.length).contains
          l.id) = directs event h d.nextListener nodes := by
    apply List.filter_eq_self.mpr
    intro l hMember
    rcases List.mem_map.mp hMember with ⟨x, hThere, rfl⟩
    have hLower := List.le_snd_of_mem_zipIdx hThere
    have hUpper := List.snd_lt_add_of_mem_zipIdx hThere
    have hRange :
        x.2 ∈ List.range' d.nextListener nodes.length :=
      List.mem_range'_1.mpr ⟨hLower, by omega⟩
    simpa using hRange
  simp only [only, restricted, boundEach, List.filter_append,
    hOld, List.nil_append, hNew]

/- A delegated listener waits for what its text selects. -/
theorem waitsFor_eq_selects
    {l : Listener η}
    {source : String}
    (hDelegation : l.delegation = some (.ofText source))
    (t : Tree) :
    l.waitsFor t = t.selects source := by
  funext x
  rw [Listener.waitsFor, hDelegation, Tree.selects,
    Option.bind_some, Delegation.ofText]
  cases (Selector.parse source).toOption with
  | none => rfl
  | some list => rfl

variable {node target : NodeId}
variable {source : String}
variable {found chain : List NodeId}

/- A delegated listener runs for what was found on the way. -/
theorem runs_of_delegated
    (hLinked : d.tree.Linked)
    (hNumbered : d.Numbered)
    (hFind : (d.tree.find node source).Gives found)
    (hChain : d.tree.chain target = .ok chain)
    (hNodup : chain.Nodup)
    (event : String)
    (h : η) :
    (d.attached node event (some (.ofText source)) h).Runs
      [d.nextListener] h target event
      ((d.attached node event (some (.ofText source))
        h).callsAlong event [] chain)
      (chain.filter fun x => decide (x ∈ found)) := by
  have hOnly :=
    only_newest hNumbered node event (some (.ofText source)) h
  have hSame :
      (d.attached node event (some (.ofText source))
        h).tree.chain target = .ok chain :=
    hChain
  apply runs_of_only hSame
  · intro l hMember
    rw [hOnly] at hMember
    split at hMember
    · rw [List.mem_singleton.mp hMember]
    · cases hMember
  · by_cases hThere : node ∈ chain
    · rcases (Tree.mem_chain_iff hLinked hChain).mp hThere with
        ⟨hTarget, hWithin⟩
      rw [hLinked.contains_of_within hTarget hWithin, if_pos rfl]
        at hOnly
      rcases List.append_of_mem hThere with
        ⟨before, after, hSplit⟩
      rw [Tree.filter_found_eq hLinked hFind hChain hSplit
        hNodup]
      subst hSplit
      rw [currents_of_delegated hOnly rfl rfl hNodup,
        waitsFor_eq_selects rfl]
      rfl
    · rw [Tree.filter_found_eq_nil hLinked hFind hChain hThere,
        callsAlong_of_not_met _ hThere]
      · rfl
      · intro l hMember
        rw [hOnly] at hMember
        split at hMember
        · rw [List.mem_singleton.mp hMember]
        · cases hMember

/- So do direct listeners on all that was found. -/
theorem runs_of_directs
    (hLinked : d.tree.Linked)
    (hNumbered : d.Numbered)
    (hFind : (d.tree.find node source).Gives found)
    (hChain : d.tree.chain target = .ok chain)
    (event : String)
    (h : η) :
    (d.boundEach event h found).Runs
      (List.range' d.nextListener found.length) h target event
      ((d.boundEach event h found).callsAlong event [] chain)
      (chain.filter fun x => decide (x ∈ found)) := by
  have hOnly := only_newest_directs hNumbered event h found
  have hDirects :
      ∀ l ∈ directs event h d.nextListener found,
        l.handler = h ∧ l.isDirect = true ∧
          l.event = event := by
    intro l hMember
    rcases List.mem_map.mp hMember with ⟨x, _, rfl⟩
    exact ⟨rfl, rfl, rfl⟩
  have hNodes :
      (directs event h d.nextListener found).map (·.node) =
        found := by
    simp [directs, Function.comp_def]
  have hSame :
      (d.boundEach event h found).tree.chain target =
        .ok chain :=
    hChain
  apply runs_of_only hSame
  · intro l hMember
    rw [hOnly] at hMember
    exact (hDirects l hMember).1
  · rw [currents_of_direct, hOnly, hNodes]
    · rw [hOnly]
      exact fun l hMember => (hDirects l hMember).2
    · rw [hOnly, hNodes]
      exact Tree.nodup_of_find hLinked hFind

end Document

end MarkupMetrics
