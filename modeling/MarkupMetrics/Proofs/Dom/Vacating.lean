import MarkupMetrics.Proofs.Dom.Preorder
import MarkupMetrics.Proofs.Dom.Touching

/-
  This file proves what is left after a subtree was removed,
  and which ids the nodes get that are made then.

  The order in which ids will be given out is settled at any
  time: first those that were given back, the last one first,
  then those never used.  A removal puts the ids of its nodes
  in front, beginning with the node that comes last in
  document order.

  Key definitions include:
    * `queued`
    * `Tree.upcoming`
    * `Tree.Supplied`
    * `Tree.Pruned`

  Key theorems include:
    * `Tree.upcoming_injective`
    * `Tree.Touched.supplied`
    * `Tree.Freed.upcoming`
    * `Tree.Preorder.congr`
    * `Tree.exists_remove`
    * `Tree.pruned_of_freed`
-/

namespace MarkupMetrics

namespace Dom

------------------------------------------------------------
-- Queues
------------------------------------------------------------

/- The members of a list in order, then what comes next. -/
def queued
    (ids : List NodeId)
    (next : Nat → NodeId)
    (k : Nat) : NodeId :=
  ids[k]?.getD (next (k - ids.length))

@[simp] theorem queued_nil
    (next : Nat → NodeId) :
    queued [] next = next := by
  funext k
  simp [queued]

@[simp] theorem queued_cons_zero
    (id : NodeId)
    (ids : List NodeId)
    (next : Nat → NodeId) :
    queued (id :: ids) next 0 = id := by
  simp [queued]

@[simp] theorem queued_cons_succ
    (id : NodeId)
    (ids : List NodeId)
    (next : Nat → NodeId)
    (k : Nat) :
    queued (id :: ids) next (k + 1) = queued ids next k := by
  simp [queued]

theorem queued_append
    (ids ids' : List NodeId)
    (next : Nat → NodeId) :
    queued (ids ++ ids') next =
      queued ids (queued ids' next) := by
  induction ids with
  | nil => simp
  | cons id ids ih =>
      funext k
      cases k with
      | zero => simp
      | succ k =>
          rw [List.cons_append, queued_cons_succ, ih,
            queued_cons_succ]

namespace Tree

open Outcome

/- The ids that new nodes will take, in this order. -/
def upcoming
    (t : Tree) : Nat → NodeId :=
  queued t.free (t.slots.size + ·)

/- An id that is to come holds no node. -/
theorem FreeListed.vacant_upcoming
    {t : Tree}
    (hFree : t.FreeListed)
    (k : Nat) :
    t.contains (t.upcoming k) = false := by
  rw [not_contains_iff, upcoming, queued]
  by_cases hListed : k < t.free.length
  · rw [List.getElem?_eq_getElem hListed]
    exact hFree.vacant _ (List.getElem_mem hListed)
  · rw [List.getElem?_eq_none (Nat.le_of_not_lt hListed)]
    simp [get?]

/- No id is to come twice. -/
theorem upcoming_injective
    {t : Tree}
    (hFree : t.FreeListed) :
    Function.Injective t.upcoming := by
  intro j k hSame
  have hBelow :
      ∀ i, i < t.free.length → t.upcoming i < t.slots.size := by
    intro i hListed
    rw [upcoming, queued, List.getElem?_eq_getElem hListed]
    exact hFree.inSlots _ (List.getElem_mem hListed)
  have hBeyond :
      ∀ i, ¬ i < t.free.length →
        t.upcoming i = t.slots.size + (i - t.free.length) := by
    intro i hUnlisted
    rw [upcoming, queued,
      List.getElem?_eq_none (Nat.le_of_not_lt hUnlisted)]
    rfl
  by_cases hFirst : j < t.free.length
  · by_cases hSecond : k < t.free.length
    · rw [upcoming, queued, queued,
        List.getElem?_eq_getElem hFirst,
        List.getElem?_eq_getElem hSecond] at hSame
      exact
        (List.Nodup.getElem_inj_iff hFree.nodup).mp hSame
    · have hLess := hBelow j hFirst
      rw [hSame, hBeyond k hSecond] at hLess
      exact (Nat.not_lt.mpr (Nat.le_add_right _ _) hLess).elim
  · by_cases hSecond : k < t.free.length
    · have hLess := hBelow k hSecond
      rw [← hSame, hBeyond j hFirst] at hLess
      exact (Nat.not_lt.mpr (Nat.le_add_right _ _) hLess).elim
    · rw [hBeyond j hFirst, hBeyond k hSecond] at hSame
      have hOffset := Nat.add_left_cancel hSame
      omega

------------------------------------------------------------
-- Making nodes
------------------------------------------------------------

theorem create_id
    (t : Tree)
    (data : NodeData) :
    (t.create data).2 = t.upcoming 0 := by
  unfold create upcoming
  cases t.free <;> simp

theorem upcoming_create
    (t : Tree)
    (data : NodeData)
    (k : Nat) :
    (t.create data).1.upcoming k = t.upcoming (k + 1) := by
  unfold create upcoming
  cases t.free with
  | nil => simp [Nat.add_assoc, Nat.add_comm 1]
  | cons id rest => simp

/-
  Some nodes were made, with the first of the ids that were to
  come, and no other id has gained or lost a node.
-/
structure Supplied
    (made : Nat)
    (t t' : Tree) : Prop where
  next : ∀ k, t'.upcoming k = t.upcoming (made + k)
  live :
    ∀ i, t'.contains i = true ↔
      t.contains i = true ∨ ∃ k < made, t.upcoming k = i

theorem Supplied.create
    {made : Nat}
    {t u : Tree}
    (hSupplied : Supplied made t u)
    (hFree : u.FreeListed)
    (data : NodeData) :
    Supplied (made + 1) t (u.create data).1 where
  next k := by
    rw [upcoming_create, hSupplied.next]
    congr 1
    omega
  live i := by
    have hNew : (u.create data).2 = t.upcoming made := by
      rw [create_id, hSupplied.next, Nat.add_zero]
    have hRead := (get?_create hFree data).2 i
    have hOne :
        (u.create data).1.contains i = true ↔
          u.contains i = true ∨ t.upcoming made = i := by
      rw [contains, hRead, hNew]
      by_cases hSame : i = t.upcoming made
      · simp [hSame]
      · have hOther : t.upcoming made ≠ i := fun h => hSame h.symm
        simp [hSame, hOther, contains]
    rw [hOne, hSupplied.live, Nat.exists_lt_succ_right, or_assoc]

/- Nodes that were made in two steps were made in one. -/
theorem Supplied.trans
    {made made' : Nat}
    {t u v : Tree}
    (hFirst : Supplied made t u)
    (hSecond : Supplied made' u v) :
    Supplied (made + made') t v where
  next k := by
    rw [hSecond.next, hFirst.next, Nat.add_assoc]
  live i := by
    rw [hSecond.live, hFirst.live, or_assoc]
    refine or_congr_right ?_
    constructor
    · rintro (⟨k, hLess, rfl⟩ | ⟨k, hLess, rfl⟩)
      · exact ⟨k, by omega, rfl⟩
      · exact ⟨made + k, by omega, (hFirst.next k).symm⟩
    · rintro ⟨k, hLess, rfl⟩
      by_cases hEarly : k < made
      · exact Or.inl ⟨k, hEarly, rfl⟩
      · refine Or.inr ⟨k - made, by omega, ?_⟩
        rw [hFirst.next]
        congr 1
        omega

theorem Supplied.same
    {made : Nat}
    {t u v : Tree}
    (hSupplied : Supplied made t u)
    (hSame : ∀ i, v.contains i = u.contains i)
    (hFree : v.free = u.free)
    (hSize : v.slots.size = u.slots.size) :
    Supplied made t v where
  next k := by
    rw [upcoming, hFree, hSize]
    exact hSupplied.next k
  live i := by
    rw [hSame]
    exact hSupplied.live i

/-
  Edits that remove no node take the ids that are to come, one
  for each node that they make.
-/
theorem Touched.supplied
    {t t' : Tree}
    (hTouched : t.Touched t')
    (hFree : t.FreeListed) :
    ∃ made, Supplied made t t' := by
  induction hTouched with
  | refl => exact ⟨0, by simp, by simp⟩
  | tail hBefore hTouch ih =>
      rename_i u v
      rcases ih with ⟨made, hSupplied⟩
      cases hTouch with
      | create data =>
          have hListed := Touched.freeListed hBefore hFree
          exact ⟨made + 1, hSupplied.create hListed data⟩
      | relink hSame =>
          exact
            ⟨made,
              hSupplied.same hSame.contains hSame.free
                hSame.size⟩
      | rewrite hNode data _ =>
          have hSame := SameLinks.put hNode data
          exact
            ⟨made,
              hSupplied.same hSame.contains hSame.free
                hSame.size⟩

------------------------------------------------------------
-- Removing a subtree
------------------------------------------------------------

/- Ids that are given back come up again before all others. -/
theorem Freed.upcoming
    {gone : List NodeId}
    {t t' : Tree}
    (hFreed : Freed gone t t') :
    t'.upcoming = queued gone t.upcoming := by
  rw [Tree.upcoming, hFreed.free, hFreed.size, queued_append]
  rfl

/- A node and its descendants are one subtree in order. -/
theorem preorder_of_subtree
    {t : Tree}
    {id : NodeId}
    {below : List NodeId}
    (hLive : t.contains id = true)
    (hBelow : t.descendants id = .ok below) :
    t.Preorder [id] (id :: below) :=
  .single hLive (preorder_of_descendants hBelow)

/- Where child lists stay the same document order does. -/
theorem Preorder.congr
    {t t' : Tree}
    {tops all : List NodeId}
    (hAll : t.Preorder tops all)
    (hSame :
      ∀ x ∈ all,
        t'.contains x = true ∧
          t'.childrenOf x = t.childrenOf x) :
    t'.Preorder tops all := by
  have hRenamed := hAll.map (f := id) (by simpa using hSame)
  simpa using hRenamed

/-
  The node is cut off first, and then freed with what is
  listed below it.  The cut takes no child from these nodes,
  so the order in which they are freed is their document order
  in the tree as it was.
-/
theorem exists_remove
    {t : Tree}
    {id : NodeId}
    (hLinked : t.Linked)
    (hLive : t.contains id = true)
    (hOther : id ≠ 0) :
    ∃ below u t',
      t.descendants id = .ok below ∧
        t.remove id = .ok t' ∧
        Cut [id] t u ∧ Freed (id :: below).reverse u t' := by
  rcases exists_descendants hLinked id with ⟨below, hBelow⟩
  rcases exists_detach hLinked hLive with ⟨u, hDetach⟩
  have hCut := cut_of_detach hLinked hDetach
  have hCutLinked := hLinked.cut hCut
  have hOrder := preorder_of_subtree hLive hBelow
  have hSame :
      ∀ x ∈ id :: below,
        u.contains x = true ∧
          u.childrenOf x = t.childrenOf x := by
    intro x hMember
    have hThere : t.contains x = true ∧ t.Within x id := by
      rcases List.mem_cons.mp hMember with rfl | hUnder
      · exact ⟨hLive, t.within_self x⟩
      · exact
          ⟨contains_of_mem_descendants hBelow hUnder,
            ((mem_descendants_iff hLinked hLive hBelow).mp
              hUnder).2⟩
    refine ⟨(hCut.nodes.contains x).trans hThere.1, ?_⟩
    rw [hCut.children]
    apply List.filter_eq_self.mpr
    intro c hChild
    have hApart : c ≠ id := by
      rintro rfl
      exact
        hLinked.not_within_child
          ((hLinked.listed c x).mp hChild) hThere.2
    simpa using hApart
  have hStart : Sweep u id [] [id] :=
    .ofTop ((hCut.nodes.contains id).trans hLive)
  rcases walk_eq_ok hCutLinked u.slots.size hStart (by simp)
    with ⟨all, hWalk, _⟩
  have hAll : all = id :: below :=
    (preorder_of_walk _ hWalk).unique (hOrder.congr hSame)
  subst hAll
  have hFreed :=
    freed_of_walk hCutLinked _ hStart hWalk
      (Freed.refl hCutLinked.free)
  rw [List.append_nil] at hFreed
  refine ⟨below, u, _, hBelow, ?_, hCut, hFreed⟩
  rw [remove, if_neg (by simp [hOther, hLive]), hDetach]
  rfl

/-
  A node is gone with the nodes below it.  All other nodes are
  the same, but that the parent has one child less, and the
  ids that are free now come before those that were.
-/
structure Pruned
    (id : NodeId)
    (below : List NodeId)
    (t t' : Tree) : Prop where
  live :
    ∀ x, t'.contains x = true ↔
      t.contains x = true ∧ x ∉ id :: below
  parent :
    ∀ p n, t.parent? id = some p → t.get? p = some n →
      t'.get? p =
        some { n with children := n.children.filter (· ≠ id) }
  others :
    ∀ x, x ∉ id :: below → t.parent? id ≠ some x →
      t'.get? x = t.get? x
  upcoming :
    t'.upcoming = queued (id :: below).reverse t.upcoming

/- A node that is not cut off keeps all but the cut children. -/
theorem Cut.get?
    {cut : List NodeId}
    {t u : Tree}
    (hCut : Cut cut t u)
    {x : NodeId}
    (hStays : x ∉ cut) :
    u.get? x =
      (t.get? x).map fun n =>
        { n with children := n.children.filter (· ∉ cut) } := by
  cases hOld : t.get? x with
  | none =>
      rw [Option.map_none, ← not_contains_iff,
        hCut.nodes.contains]
      exact not_contains_iff.mpr hOld
  | some n =>
      rcases get?_eq_some_iff.mp hOld with
        ⟨hContent, hParent, hChildren⟩
      rw [Option.map_some, get?_eq_some_iff, hCut.nodes.content,
        hCut.parent, if_neg hStays, hCut.children, hChildren]
      exact ⟨hContent, hParent, rfl⟩

theorem pruned_of_freed
    {t u t' : Tree}
    {id : NodeId}
    {below : List NodeId}
    (hLinked : t.Linked)
    (hLive : t.contains id = true)
    (hBelow : t.descendants id = .ok below)
    (hCut : Cut [id] t u)
    (hFreed : Freed (id :: below).reverse u t') :
    Pruned id below t t' := by
  have hRead :
      ∀ x, x ∉ id :: below →
        t'.get? x =
          (t.get? x).map fun n =>
            { n with
              children := n.children.filter (· ∉ [id]) } := by
    intro x hStays
    have hOther : x ∉ [id] := fun h =>
      hStays (by simp [List.mem_singleton.mp h])
    rw [hFreed.get, if_neg (mt List.mem_reverse.mp hStays),
      hCut.get? hOther]
  constructor
  · intro x
    by_cases hMember : x ∈ id :: below
    · rw [contains, hFreed.get,
        if_pos (List.mem_reverse.mpr hMember)]
      simp [hMember]
    · rw [contains, hRead x hMember, Option.isSome_map]
      exact (and_iff_left hMember).symm
  · intro p n hParent hNode
    have hStays : p ∉ id :: below := by
      intro hMember
      apply hLinked.not_within_child hParent
      rcases List.mem_cons.mp hMember with rfl | hUnder
      · exact t.within_self p
      · exact
          ((mem_descendants_iff hLinked hLive hBelow).mp
            hUnder).2
    rw [hRead p hStays, hNode]
    simp
  · intro x hStays hOther
    rw [hRead x hStays]
    cases hNode : t.get? x with
    | none => rfl
    | some n =>
        have hNone : id ∉ n.children := by
          rw [← childrenOf_of_get? hNode, hLinked.listed]
          exact hOther
        have hAll :
            n.children.filter (· ∉ [id]) = n.children := by
          apply List.filter_eq_self.mpr
          intro c hChild
          have hApart : c ≠ id := fun h => hNone (h ▸ hChild)
          simpa using hApart
        rw [Option.map_some, hAll]
  · rw [hFreed.upcoming, upcoming, upcoming, hCut.nodes.free,
      hCut.nodes.size]

end Tree

end Dom

end MarkupMetrics
