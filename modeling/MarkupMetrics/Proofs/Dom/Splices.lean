import MarkupMetrics.Proofs.Dom.Moves
import Mathlib.Data.List.Dedup

/-
  This file proves what child lists are after an edit that
  moves nodes, in which order.

  An edit moves its nodes one after the other: each is taken
  out of every child list, and put into its place in the list
  of the owner.  On that list alone this is a fold, so the
  order it ends in is a matter of lists.  A node that is moved
  twice stays where it was put last.

  Key definitions include:
    * `Tree.Spliced`
    * `Tree.Movable`
    * `Tree.MovesTo`

  Key theorems include:
    * `Tree.foldl_toEnd`
    * `Tree.foldl_beforeAnchor`
    * `Tree.MovesTo.run`
    * `Tree.exists_append`
    * `Tree.exists_insertBefore`
    * `Tree.exists_reparent`
-/

namespace MarkupMetrics

namespace Dom

namespace Tree

open Outcome

------------------------------------------------------------
-- Lists
------------------------------------------------------------

/- Nodes can be left out in two steps. -/
theorem filter_notMem_append
    (list moved moved' : List NodeId) :
    (list.filter (· ∉ moved)).filter (· ∉ moved') =
      list.filter (· ∉ moved ++ moved') := by
  rw [List.filter_filter]
  apply List.filter_congr
  intro x _
  simp [Bool.and_comm]

/-
  A node that is moved behind others stays there unless it is
  among those that move later.
-/
theorem filter_dedup_cons
    (list : List NodeId)
    (c : NodeId)
    (ids : List NodeId) :
    (list.filter (· ∉ [c]) ++ [c]).filter (· ∉ ids) ++
        ids.dedup =
      list.filter (· ∉ c :: ids) ++ (c :: ids).dedup := by
  rw [List.filter_append, filter_notMem_append,
    List.singleton_append]
  by_cases hAgain : c ∈ ids
  · simp [List.dedup_cons_of_mem hAgain, hAgain]
  · simp [List.dedup_cons_of_notMem hAgain, hAgain]

/- Nodes that move to the end gather there. -/
theorem foldl_toEnd
    (ids list : List NodeId) :
    ids.foldl (fun l c => l.filter (· ∉ [c]) ++ [c]) list =
      list.filter (· ∉ ids) ++ ids.dedup := by
  induction ids generalizing list with
  | nil => simp
  | cons c ids ih =>
      rw [List.foldl_cons, ih, filter_dedup_cons]

theorem insertBeforeAnchor_eq
    {anchor : NodeId}
    {front : List NodeId}
    (hFront : anchor ∉ front)
    (c : NodeId)
    (back : List NodeId) :
    insertBeforeAnchor anchor c (front ++ anchor :: back) =
      front ++ c :: anchor :: back := by
  induction front with
  | nil => simp [insertBeforeAnchor]
  | cons x front ih =>
      rw [List.mem_cons, not_or] at hFront
      have hOther : x ≠ anchor := fun h => hFront.1 h.symm
      rw [List.cons_append, insertBeforeAnchor, if_neg hOther,
        ih hFront.2]
      rfl

/-
  Nodes that move to an anchor gather in front of it.  What
  stands before the anchor is a list of its own, to the end of
  which they move, and the anchor stays where it is.
-/
theorem foldl_beforeAnchor
    {anchor : NodeId}
    {ids : List NodeId}
    (hOutside : anchor ∉ ids)
    {front : List NodeId}
    (hFront : anchor ∉ front)
    (back : List NodeId) :
    ids.foldl
        (fun l c =>
          insertBeforeAnchor anchor c (l.filter (· ∉ [c])))
        (front ++ anchor :: back) =
      front.filter (· ∉ ids) ++ ids.dedup ++
        anchor :: back.filter (· ∉ ids) := by
  induction ids generalizing front back with
  | nil => simp
  | cons c ids ih =>
      rw [List.mem_cons, not_or] at hOutside
      have hStays :
          (front ++ anchor :: back).filter (· ∉ [c]) =
            front.filter (· ∉ [c]) ++
              anchor :: back.filter (· ∉ [c]) := by
        simp [hOutside.1]
      have hBefore : anchor ∉ front.filter (· ∉ [c]) :=
        fun hMember => hFront (List.mem_of_mem_filter hMember)
      have hGathered :
          anchor ∉ front.filter (· ∉ [c]) ++ [c] := by
        simpa [hOutside.1] using fun h => absurd h hFront
      rw [List.foldl_cons, hStays,
        insertBeforeAnchor_eq hBefore, List.append_cons,
        ih hOutside.2 hGathered, filter_dedup_cons,
        filter_notMem_append, List.singleton_append]

------------------------------------------------------------
-- Splices
------------------------------------------------------------

/-
  Some nodes have moved to an owner, whose child list is then
  `list`.  The other lists have lost them and keep their order,
  and no node has other content.
-/
structure Spliced
    (moved : List NodeId)
    (owner : NodeId)
    (list : List NodeId)
    (t t' : Tree) : Prop where
  nodes : SameNodes t t'
  parent :
    ∀ x, t'.parent? x =
      if x ∈ moved then some owner else t.parent? x
  listed : t'.childrenOf owner = list
  others :
    ∀ q, q ≠ owner →
      t'.childrenOf q = (t.childrenOf q).filter (· ∉ moved)

/- Nodes can be put below an owner that is not within them. -/
def Movable
    (t : Tree)
    (owner : NodeId)
    (ids : List NodeId) : Prop :=
  ∀ c ∈ ids, t.contains c = true ∧ ¬ t.Within owner c

/-
  A step moves a node to an owner, into the place it is given
  in the list of the other children.
-/
def MovesTo
    (owner : NodeId)
    (place : NodeId → List NodeId → List NodeId)
    (f : Tree → NodeId → Except Fault Tree) : Prop :=
  ∀ t c,
    t.Linked → t.contains owner = true → t.contains c = true →
      ∃ t', f t c = .ok t' ∧ Moved c owner t t' ∧
        Spliced [c] owner
          (place c ((t.childrenOf owner).filter (· ∉ [c]))) t t'

theorem spliced_of_detach
    {t u : Tree}
    {owner c : NodeId}
    (hLinked : t.Linked)
    (hDetach : t.detach c = .ok u)
    (hChild : u.contains c = true)
    (hOwner : u.contains owner = true)
    (list : List NodeId) :
    Spliced [c] owner list t
      ((u.setChildren owner list).setParent c
        (some owner)) := by
  have hCut := cut_of_detach hLinked hDetach
  have hAttached := attached_links list hChild hOwner
  constructor
  · exact hCut.nodes.trans hAttached.nodes
  · intro x
    rw [hAttached.parent, hCut.parent]
    by_cases hSame : x = c <;> simp [hSame]
  · rw [hAttached.children, if_pos rfl]
  · intro q hOther
    rw [hAttached.children, if_neg hOther, hCut.children]

/-
  It is enough to know what is set once the node has left its
  place, as the node always can.
-/
theorem movesTo_of_detach
    {owner : NodeId}
    {place : NodeId → List NodeId → List NodeId}
    {f : Tree → NodeId → Except Fault Tree}
    (hRun :
      ∀ t u c n,
        t.detach c = .ok u → u.get? owner = some n →
          f t c =
            .ok
              ((u.setChildren owner
                (place c n.children)).setParent c
                  (some owner)))
    (hMoved :
      ∀ t t' c,
        t.Linked → f t c = .ok t' → Moved c owner t t') :
    MovesTo owner place f := by
  intro t c hLinked hOwner hChild
  rcases exists_detach hLinked hChild with ⟨u, hDetach⟩
  have hCut := cut_of_detach hLinked hDetach
  have hOwner' := (hCut.nodes.contains owner).trans hOwner
  have hChild' := (hCut.nodes.contains c).trans hChild
  rcases contains_iff.mp hOwner' with ⟨n, hNode⟩
  have hDone := hRun t u c n hDetach hNode
  refine ⟨_, hDone, hMoved t _ c hLinked hDone, ?_⟩
  rw [← hCut.children, childrenOf_of_get? hNode]
  exact spliced_of_detach hLinked hDetach hChild' hOwner' _

theorem movesTo_appendOne
    (owner : NodeId) :
    MovesTo owner (fun c l => l ++ [c]) (appendOne owner) := by
  apply movesTo_of_detach
  · intro t u c n hDetach hNode
    rw [appendOne, hDetach, ok_bind, node_eq_ok_iff.mpr hNode]
    rfl
  · exact fun _ _ _ => moved_of_appendOne

theorem movesTo_insertOneBefore
    (owner anchor : NodeId) :
    MovesTo owner (insertBeforeAnchor anchor)
      (insertOneBefore owner anchor) := by
  apply movesTo_of_detach
  · intro t u c n hDetach hNode
    rw [insertOneBefore, hDetach, ok_bind,
      node_eq_ok_iff.mpr hNode]
    rfl
  · exact fun _ _ _ => moved_of_insertOneBefore

theorem Spliced.refl
    (t : Tree)
    (owner : NodeId) :
    Spliced [] owner (t.childrenOf owner) t t where
  nodes := SameNodes.refl t
  parent x := by simp
  listed := rfl
  others q _ := by simp

/- The nodes of two splices in a row have moved together. -/
theorem Spliced.trans
    {moved moved' list list' : List NodeId}
    {owner : NodeId}
    {t u t' : Tree}
    (hFirst : Spliced moved owner list t u)
    (hSecond : Spliced moved' owner list' u t') :
    Spliced (moved ++ moved') owner list' t t' where
  nodes := hFirst.nodes.trans hSecond.nodes
  parent x := by
    rw [hSecond.parent, hFirst.parent]
    by_cases hLater : x ∈ moved' <;> simp [hLater]
  listed := hSecond.listed
  others q hOther := by
    rw [hSecond.others q hOther, hFirst.others q hOther,
      filter_notMem_append]

/-
  Moving nodes one after the other comes to an end, and on the
  child list of the owner it is a fold.  The owner is within
  none of them all along, since the way up from it stays the
  same.
-/
theorem MovesTo.run
    {owner : NodeId}
    {place : NodeId → List NodeId → List NodeId}
    {f : Tree → NodeId → Except Fault Tree}
    (hMoves : MovesTo owner place f)
    {ids : List NodeId}
    {t : Tree}
    (hLinked : t.Linked)
    (hOwner : t.contains owner = true)
    (hIds : t.Movable owner ids) :
    ∃ t', ids.foldlM f t = .ok t' ∧
      Spliced ids owner
        (ids.foldl (fun l c => place c (l.filter (· ∉ [c])))
          (t.childrenOf owner)) t t' := by
  induction ids generalizing t with
  | nil => exact ⟨t, rfl, Spliced.refl t owner⟩
  | cons c ids ih =>
      rcases hIds c List.mem_cons_self with ⟨hChild, hApart⟩
      rcases hMoves t c hLinked hOwner hChild with
        ⟨u, hFirst, hMoved, hOne⟩
      have hLater : u.Movable owner ids := by
        intro c' hMember
        rcases hIds c' (List.mem_cons_of_mem c hMember) with
          ⟨hThere, hOutside⟩
        refine ⟨(hOne.nodes.contains c').trans hThere, ?_⟩
        intro hWithin
        exact
          hOutside
            (within_of_same_elsewhere hMoved.parent_elsewhere
              hApart hWithin)
      rcases
        ih (hMoved.linked hLinked hApart)
          ((hOne.nodes.contains owner).trans hOwner) hLater with
        ⟨t', hRest, hOthers⟩
      refine ⟨t', ?_, ?_⟩
      · rw [List.foldlM_cons, hFirst]
        exact hRest
      · rw [hOne.listed] at hOthers
        exact hOne.trans hOthers

------------------------------------------------------------
-- Edits
------------------------------------------------------------

/- Nodes that are appended come behind the other children. -/
theorem exists_append
    {t : Tree}
    {owner : NodeId}
    {ids : List NodeId}
    (hLinked : t.Linked)
    (hOwner : t.contains owner = true)
    (hIds : t.Movable owner ids) :
    ∃ t', t.append owner ids = .ok t' ∧
      Spliced ids owner
        ((t.childrenOf owner).filter (· ∉ ids) ++ ids.dedup)
        t t' := by
  rw [← foldl_toEnd]
  exact (movesTo_appendOne owner).run hLinked hOwner hIds

/-
  Nodes that are put before an anchor come behind what else
  stands before it.
-/
theorem exists_insertBefore
    {t : Tree}
    {owner anchor : NodeId}
    {ids front back : List NodeId}
    (hLinked : t.Linked)
    (hChildren : t.childrenOf owner = front ++ anchor :: back)
    (hOutside : anchor ∉ ids)
    (hIds : t.Movable owner ids) :
    ∃ t', t.insertBefore anchor ids = .ok t' ∧
      Spliced ids owner
        (front.filter (· ∉ ids) ++ ids.dedup ++
          anchor :: back.filter (· ∉ ids)) t t' := by
  have hMember : anchor ∈ t.childrenOf owner := by
    simp [hChildren]
  have hParent := (hLinked.listed anchor owner).mp hMember
  have hFront : anchor ∉ front := by
    have hNodup := hLinked.nodup owner
    rw [hChildren] at hNodup
    exact fun h =>
      (List.nodup_append.mp hNodup).2.2 anchor h anchor
        List.mem_cons_self rfl
  rcases contains_iff.mp (hLinked.contains_child hMember) with
    ⟨n, hNode⟩
  rcases
    (movesTo_insertOneBefore owner anchor).run hLinked
      (contains_of_mem_childrenOf hMember) hIds with
    ⟨t', hRun, hSpliced⟩
  refine ⟨t', ?_, ?_⟩
  · rw [parent?_of_get? hNode] at hParent
    rw [insertBefore, node_eq_ok_iff.mpr hNode, ok_bind,
      hParent]
    exact hRun
  · rwa [hChildren, foldl_beforeAnchor hOutside hFront]
      at hSpliced

/- An anchor without parent keeps everything in its place. -/
theorem insertBefore_of_root
    {t : Tree}
    {anchor : NodeId}
    (hLive : t.contains anchor = true)
    (hRoot : t.parent? anchor = none)
    (ids : List NodeId) :
    t.insertBefore anchor ids = .ok t := by
  rcases contains_iff.mp hLive with ⟨n, hNode⟩
  rw [parent?_of_get? hNode] at hRoot
  rw [insertBefore, node_eq_ok_iff.mpr hNode, ok_bind, hRoot]
  rfl

theorem exists_orphans
    {t : Tree}
    {ids : List NodeId}
    (hLive : ∀ c ∈ ids, t.contains c = true) :
    ∃ u, ids.foldlM orphanOne t = .ok u := by
  induction ids generalizing t with
  | nil => exact ⟨t, rfl⟩
  | cons c ids ih =>
      rcases contains_iff.mp (hLive c List.mem_cons_self) with
        ⟨n, hNode⟩
      have hFirst : orphanOne t c = .ok (t.setParent c none) := by
        rw [orphanOne, node_eq_ok_iff.mpr hNode]
        rfl
      have hSame := SameNodes.setParent t c none
      rcases
        ih (t := t.setParent c none) fun c' hMember =>
          (hSame.contains c').trans
            (hLive c' (List.mem_cons_of_mem c hMember)) with
        ⟨u, hRest⟩
      exact ⟨u, by rw [List.foldlM_cons, hFirst]; exact hRest⟩

/-
  All children of a node come behind those of another.  They
  lose their parent first, and are appended to the other node
  then.
-/
theorem exists_reparent
    {t : Tree}
    {source target : NodeId}
    (hLinked : t.Linked)
    (hSource : t.contains source = true)
    (hTarget : t.contains target = true)
    (hOther : target ≠ source)
    (hApart : t.Movable target (t.childrenOf source)) :
    ∃ t', t.reparent source target = .ok t' ∧
      Spliced (t.childrenOf source) target
        (t.childrenOf target ++ t.childrenOf source) t t' := by
  rcases contains_iff.mp hSource with ⟨n, hNode⟩
  have hSame := SameNodes.setChildren t source []
  rcases
    exists_orphans (t := t.setChildren source [])
      fun c hMember =>
        (hSame.contains c).trans (hApart c hMember).1 with
    ⟨u, hOrphans⟩
  have hCut := cut_of_orphans hLinked hSource hOrphans
  have hLeft : u.Movable target (t.childrenOf source) := by
    intro c hMember
    rcases hApart c hMember with ⟨hLive, hOutside⟩
    exact
      ⟨(hCut.nodes.contains c).trans hLive, fun hWithin =>
        hOutside (within_mono hCut.parent_of hWithin)⟩
  rcases
    exists_append (hLinked.cut hCut)
      ((hCut.nodes.contains target).trans hTarget) hLeft with
    ⟨t', hRun, hSpliced⟩
  refine ⟨t', ?_, ?_⟩
  · rw [reparent, node_eq_ok_iff.mpr hNode, ok_bind,
      ← childrenOf_of_get? hNode]
    exact bind_eq_ok_iff.mpr ⟨u, hOrphans, hRun⟩
  · constructor
    · exact hCut.nodes.trans hSpliced.nodes
    · intro x
      rw [hSpliced.parent, hCut.parent]
      by_cases hMoved : x ∈ t.childrenOf source <;> simp [hMoved]
    · rw [hSpliced.listed, hCut.children,
        filter_notMem_append,
        (hLinked.nodup source).dedup]
      have hTwice :
          (t.childrenOf target).filter
              (· ∉ t.childrenOf source ++ t.childrenOf source) =
            t.childrenOf target := by
        rw [← filter_notMem_append,
          hLinked.filter_children_of_ne hOther,
          hLinked.filter_children_of_ne hOther]
      rw [hTwice]
    · intro q hElse
      rw [hSpliced.others q hElse, hCut.children,
        List.filter_filter]
      simp

end Tree

end Dom

end MarkupMetrics
