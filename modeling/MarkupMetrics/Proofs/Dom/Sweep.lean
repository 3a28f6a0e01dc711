import MarkupMetrics.Dom.Walk
import MarkupMetrics.Proofs.Dom.Moves
import Mathlib.Data.List.Nodup

/-
  This file proves what the loops down a tree go through.

  Listing the descendants of a node and freeing its subtree
  are the same sweep: take a pending node, and put its
  children in front of the rest.  In a tree whose links agree
  a sweep meets every node within its top once, so as much
  fuel as there are slots is enough.

  Key definitions include:
    * `Tree.Sweep`
    * `Tree.Freed`

  Key theorems include:
    * `Tree.Sweep.next`
    * `Tree.Sweep.mem_seen_iff`
    * `Tree.descendants_eq_ok`
    * `Tree.freed_of_walk`
    * `Tree.remove_cases`
    * `Tree.contentOf?_of_remove`
    * `Tree.Linked.remove`
-/

namespace MarkupMetrics

namespace Dom

namespace Tree

open Outcome

------------------------------------------------------------
-- Sweeps
------------------------------------------------------------

/-
  A sweep below `top` has gone through the nodes `seen` and
  goes on with the nodes `pending`.  The children of what was
  seen are seen or pending, and all but the top have their
  parent among what was seen.
-/
structure Sweep
    (t : Tree)
    (top : NodeId)
    (seen pending : List NodeId) : Prop where
  nodup : (seen ++ pending).Nodup
  live : ∀ x ∈ seen ++ pending, t.contains x = true
  within : ∀ x ∈ seen ++ pending, t.Within x top
  found :
    ∀ x ∈ seen ++ pending,
      x = top ∨ ∃ p ∈ seen, t.parent? x = some p
  closed :
    ∀ x ∈ seen, ∀ c ∈ t.childrenOf x, c ∈ seen ++ pending
  start : top ∈ seen ++ pending

/- Distinct ids with nodes are no more than there are slots. -/
theorem length_le_size
    {t : Tree}
    {ids : List NodeId}
    (hNodup : ids.Nodup)
    (hLive : ∀ x ∈ ids, t.contains x = true) :
    ids.length ≤ t.slots.size := by
  have hSubset : ids ⊆ List.range t.slots.size := by
    intro x hMember
    exact
      List.mem_range.mpr
        (lt_size_of_contains (hLive x hMember))
  have hLength :=
    List.Nodup.length_le_of_subset hNodup hSubset
  simpa using hLength

namespace Sweep

variable {t : Tree}
variable {top : NodeId}

theorem ofTop
    (hLive : t.contains top = true) :
    Sweep t top [] [top] where
  nodup := by simp
  live x hMember := by
    have hSame : x = top := by simpa using hMember
    exact hSame ▸ hLive
  within x hMember := by
    have hSame : x = top := by simpa using hMember
    exact hSame ▸ t.within_self top
  found x hMember := Or.inl (by simpa using hMember)
  closed x hMember := by cases hMember
  start := by simp

/-
  The children of the next node were not met before: they
  would have that node among what was seen, or be the top and
  stand below themselves.
-/
theorem fresh_child
    (hLinked : t.Linked)
    {seen rest : List NodeId}
    {id c : NodeId}
    (hSweep : Sweep t top seen (id :: rest))
    (hChild : c ∈ t.childrenOf id) :
    c ∉ seen ++ id :: rest := by
  intro hMember
  have hParent := (hLinked.listed c id).mp hChild
  rcases hSweep.found c hMember with
    rfl | ⟨p, hSeen, hOther⟩
  · exact
      hLinked.not_within_child hParent
        (hSweep.within id (by simp))
  · have hSame : id = p := by
      rw [hParent] at hOther
      exact Option.some.inj hOther
    subst hSame
    have hApart :=
      (List.nodup_append.mp hSweep.nodup).2.2
    exact hApart id hSeen id (by simp) rfl

theorem next
    (hLinked : t.Linked)
    {seen rest : List NodeId}
    {id : NodeId}
    (hSweep : Sweep t top seen (id :: rest)) :
    Sweep t top (id :: seen) (t.childrenOf id ++ rest) := by
  have hPerm :
      (seen ++ id :: rest).Perm (id :: seen ++ rest) := by
    simp
  have hOld :
      ∀ x, x ∈ id :: seen ++ rest ↔ x ∈ seen ++ id :: rest :=
    fun x => hPerm.mem_iff.symm
  have hSplit :
      ∀ x, x ∈ id :: seen ++ (t.childrenOf id ++ rest) ↔
        x ∈ t.childrenOf id ∨ x ∈ seen ++ id :: rest := by
    intro x
    rw [← hOld]
    simp only [List.mem_append]
    tauto
  constructor
  · have hParts :
        (t.childrenOf id ++ (seen ++ id :: rest)).Nodup := by
      rw [List.nodup_append]
      refine ⟨hLinked.nodup id, hSweep.nodup, ?_⟩
      rintro x hChild y hMember rfl
      exact hSweep.fresh_child hLinked hChild hMember
    refine (List.Perm.nodup_iff ?_).mp hParts
    have hMiddle :
        (t.childrenOf id ++ (seen ++ id :: rest)).Perm
          (t.childrenOf id ++ (id :: seen ++ rest)) :=
      hPerm.append_left _
    apply hMiddle.trans
    have hSwap :
        (t.childrenOf id ++ id :: seen).Perm
          (id :: seen ++ t.childrenOf id) :=
      List.perm_append_comm
    simpa only [List.append_assoc] using
      hSwap.append_right rest
  · intro x hMember
    rcases (hSplit x).mp hMember with hChild | hBefore
    · exact hLinked.contains_child hChild
    · exact hSweep.live x hBefore
  · intro x hMember
    rcases (hSplit x).mp hMember with hChild | hBefore
    · exact
        within_of_parent? ((hLinked.listed x id).mp hChild)
          (hSweep.within id (by simp))
    · exact hSweep.within x hBefore
  · intro x hMember
    rcases (hSplit x).mp hMember with hChild | hBefore
    · exact
        Or.inr
          ⟨id, by simp, (hLinked.listed x id).mp hChild⟩
    · rcases hSweep.found x hBefore with
        hTop | ⟨p, hSeen, hParent⟩
      · exact Or.inl hTop
      · exact Or.inr ⟨p, by simp [hSeen], hParent⟩
  · intro x hSeen c hChild
    rw [hSplit]
    rcases List.mem_cons.mp hSeen with rfl | hBefore
    · exact Or.inl hChild
    · exact Or.inr (hSweep.closed x hBefore c hChild)
  · rw [hSplit]
    exact Or.inr hSweep.start

/- A finished sweep has seen what is within its top. -/
theorem mem_seen_iff
    (hLinked : t.Linked)
    {seen : List NodeId}
    (hSweep : Sweep t top seen [])
    (x : NodeId) :
    x ∈ seen ↔ t.Within x top := by
  constructor
  · intro hSeen
    exact hSweep.within x (by simpa using hSeen)
  · intro hWithin
    induction hWithin using
      Relation.ReflTransGen.head_induction_on with
    | refl => simpa using hSweep.start
    | head hChild _ ih =>
        rename_i c p _
        have hListed := (hLinked.listed c p).mpr hChild
        simpa using hSweep.closed p ih c hListed

/- Fuel for all slots is not used up by a sweep. -/
theorem length_lt_size
    {seen rest : List NodeId}
    {id : NodeId}
    (hSweep : Sweep t top seen (id :: rest)) :
    seen.length < t.slots.size := by
  have hLength := length_le_size hSweep.nodup hSweep.live
  simp only [List.length_append, List.length_cons] at hLength
  omega

end Sweep

------------------------------------------------------------
-- Listing
------------------------------------------------------------

/- With fuel for what was not seen yet a walk completes the sweep. -/
theorem walk_eq_ok
    {t : Tree}
    {top : NodeId}
    (hLinked : t.Linked)
    (fuel : Nat)
    {seen pending : List NodeId}
    (hSweep : Sweep t top seen pending)
    (hFuel : t.slots.size ≤ fuel + seen.length) :
    ∃ below, t.walk fuel pending = .ok below ∧
      Sweep t top (below.reverse ++ seen) [] := by
  induction fuel generalizing seen pending with
  | zero =>
      cases pending with
      | nil => exact ⟨[], by simp [walk], by simpa using hSweep⟩
      | cons id rest =>
          have hLess := hSweep.length_lt_size
          omega
  | succ fuel ih =>
      cases pending with
      | nil => exact ⟨[], by simp [walk], by simpa using hSweep⟩
      | cons id rest =>
          have hLive := hSweep.live id (by simp)
          rcases contains_iff.mp hLive with ⟨n, hNode⟩
          have hNext := hSweep.next hLinked
          rw [childrenOf_of_get? hNode] at hNext
          have hEnough :
              t.slots.size ≤ fuel + (id :: seen).length := by
            simp only [List.length_cons]
            omega
          rcases ih hNext hEnough with ⟨below, hWalk, hDone⟩
          refine ⟨id :: below, ?_, by simpa using hDone⟩
          rw [walk, node_eq_ok_iff.mpr hNode]
          simp only [ok_bind, hWalk]
          rfl

/- The descendants of a node are found, and are a whole sweep. -/
theorem descendants_eq_ok
    {t : Tree}
    {id : NodeId}
    (hLinked : t.Linked)
    (hLive : t.contains id = true) :
    ∃ below, t.descendants id = .ok below ∧
      Sweep t id (below.reverse ++ [id]) [] := by
  rcases contains_iff.mp hLive with ⟨n, hNode⟩
  have hStart := (Sweep.ofTop hLive).next hLinked
  rw [childrenOf_of_get? hNode, List.append_nil] at hStart
  rcases walk_eq_ok hLinked t.slots.size hStart (by simp) with
    ⟨below, hWalk, hDone⟩
  refine ⟨below, ?_, hDone⟩
  simpa [descendants, hNode] using hWalk

/- Looking for the descendants of any id comes to a result. -/
theorem exists_descendants
    {t : Tree}
    (hLinked : t.Linked)
    (id : NodeId) :
    ∃ below, t.descendants id = .ok below := by
  cases hLive : t.contains id with
  | true =>
      rcases descendants_eq_ok hLinked hLive with
        ⟨below, hBelow, _⟩
      exact ⟨below, hBelow⟩
  | false =>
      rw [not_contains_iff] at hLive
      exact ⟨[], by simp [descendants, hLive]⟩

/- The descendants of a node are what stands below it. -/
theorem mem_descendants_iff
    {t : Tree}
    {id : NodeId}
    {below : List NodeId}
    (hLinked : t.Linked)
    (hLive : t.contains id = true)
    (hBelow : t.descendants id = .ok below)
    {x : NodeId} :
    x ∈ below ↔ x ≠ id ∧ t.Within x id := by
  rcases descendants_eq_ok hLinked hLive with
    ⟨below', hSame, hSweep⟩
  rw [hBelow] at hSame
  cases hSame
  have hNodup := hSweep.nodup
  have hAll := hSweep.mem_seen_iff hLinked x
  simp only [List.append_nil, List.nodup_append,
    List.nodup_reverse, List.mem_reverse,
    List.mem_singleton] at hNodup
  simp only [List.mem_append, List.mem_reverse,
    List.mem_singleton] at hAll
  rw [← hAll]
  constructor
  · intro hMember
    exact
      ⟨hNodup.2.2 x hMember id rfl, Or.inl hMember⟩
  · rintro ⟨hOther, hMember | hSame⟩
    · exact hMember
    · exact (hOther hSame).elim

/- No node is listed twice among them. -/
theorem nodup_of_descendants
    {t : Tree}
    {id : NodeId}
    {below : List NodeId}
    (hLinked : t.Linked)
    (hBelow : t.descendants id = .ok below) :
    below.Nodup := by
  cases hLive : t.contains id with
  | true =>
      rcases descendants_eq_ok hLinked hLive with
        ⟨below', hSame, hSweep⟩
      rw [hBelow] at hSame
      cases hSame
      have hNodup := hSweep.nodup
      rw [List.append_nil, List.nodup_append,
        List.nodup_reverse] at hNodup
      exact hNodup.1
  | false =>
      rw [not_contains_iff] at hLive
      rw [descendants, hLive] at hBelow
      cases hBelow
      exact List.nodup_nil

/- What a walk lists are nodes. -/
theorem contains_of_mem_walk
    {t : Tree}
    (fuel : Nat)
    {pending below : List NodeId}
    (hWalk : t.walk fuel pending = .ok below) :
    ∀ x ∈ below, t.contains x = true := by
  induction fuel generalizing pending below with
  | zero =>
      cases pending with
      | nil =>
          have hEmpty : below = [] := by
            simpa [walk, eq_comm] using hWalk
          simp [hEmpty]
      | cons id rest => simp [walk] at hWalk
  | succ fuel ih =>
      cases pending with
      | nil =>
          have hEmpty : below = [] := by
            simpa [walk, eq_comm] using hWalk
          simp [hEmpty]
      | cons id rest =>
          rw [walk, bind_eq_ok_iff] at hWalk
          rcases hWalk with ⟨n, hNode, hRest⟩
          rcases bind_eq_ok_iff.mp hRest with
            ⟨others, hOthers, hDone⟩
          rw [pure_eq_ok_iff] at hDone
          subst hDone
          intro x hMember
          rcases List.mem_cons.mp hMember with rfl | hLater
          · exact contains_of_get? (node_eq_ok_iff.mp hNode)
          · exact ih hOthers x hLater

theorem contains_of_mem_descendants
    {t : Tree}
    {id : NodeId}
    {below : List NodeId}
    (hBelow : t.descendants id = .ok below)
    {x : NodeId}
    (hMember : x ∈ below) :
    t.contains x = true := by
  unfold descendants at hBelow
  cases hNode : t.get? id with
  | none =>
      have hEmpty : below = [] := by
        simpa [hNode, eq_comm] using hBelow
      simp [hEmpty] at hMember
  | some n =>
      rw [hNode] at hBelow
      exact contains_of_mem_walk _ hBelow x hMember

------------------------------------------------------------
-- Freeing
------------------------------------------------------------

/-
  Some ids lost their nodes and were put in front of the free
  list, the one freed last first.
-/
structure Freed
    (gone : List NodeId)
    (t t' : Tree) : Prop where
  get :
    ∀ i, t'.get? i = if i ∈ gone then none else t.get? i
  free : t'.free = gone ++ t.free
  size : t'.slots.size = t.slots.size
  listed : t'.FreeListed

theorem Freed.refl
    {t : Tree}
    (hFree : t.FreeListed) :
    Freed [] t t :=
  ⟨by simp, rfl, rfl, hFree⟩

theorem Freed.release
    {gone : List NodeId}
    {t t' : Tree}
    {id : NodeId}
    (hFreed : Freed gone t t')
    (hLive : t'.contains id = true) :
    Freed (id :: gone) t (t'.release id) where
  get i := by
    rw [get?_release, hFreed.get]
    by_cases hSame : i = id
    · simp [hSame]
    · simp [hSame]
  free := by simp [Tree.release, hFreed.free]
  size := by simp [Tree.release, hFreed.size]
  listed := freeListed_release hFreed.listed hLive

theorem Freed.parent_eq
    {gone : List NodeId}
    {t t' : Tree}
    (hFreed : Freed gone t t')
    (x : NodeId) :
    t'.parent? x =
      if x ∈ gone then none else t.parent? x := by
  unfold parent?
  rw [hFreed.get]
  by_cases hMember : x ∈ gone <;> simp [hMember]

theorem Freed.children_eq
    {gone : List NodeId}
    {t t' : Tree}
    (hFreed : Freed gone t t')
    (q : NodeId) :
    t'.childrenOf q =
      if q ∈ gone then [] else t.childrenOf q := by
  unfold childrenOf
  rw [hFreed.get]
  by_cases hMember : q ∈ gone <;> simp [hMember]

/- Freeing keeps the free list in order, whatever is pending. -/
theorem freeListed_freeAll
    {t : Tree}
    (hFree : t.FreeListed)
    (fuel : Nat)
    (pending : List NodeId) :
    (freeAll fuel pending t).FreeListed := by
  fun_induction freeAll fuel pending t with
  | case1 => exact hFree
  | case2 => exact hFree
  | case3 fuel id rest t hMissing ih => exact ih hFree
  | case4 fuel id rest t n hNode ih =>
      exact ih (freeListed_release hFree (contains_of_get? hNode))

/- So does removal, whether the links agree or not. -/
theorem freeListed_of_remove
    {t t' : Tree}
    {id : NodeId}
    (hFree : t.FreeListed)
    (hRun : t.remove id = .ok t') :
    t'.FreeListed := by
  unfold remove at hRun
  by_cases hSkip : (decide (id = 0) || !t.contains id) = true
  · rw [if_pos hSkip] at hRun
    cases hRun
    exact hFree
  · rw [if_neg hSkip, bind_eq_ok_iff] at hRun
    rcases hRun with ⟨u, hDetach, hDone⟩
    rw [pure_eq_ok_iff] at hDone
    have hDetached :=
      (sameNodes_of_detach hDetach).freeListed hFree
    exact hDone ▸ freeListed_freeAll hDetached _ _

/-
  What is freed is what a walk lists, in the order of the walk.
  What was freed before stays out of the way: no node comes up
  twice in a sweep, so those that come up still have their
  children.
-/
theorem freed_of_walk
    {t : Tree}
    {top : NodeId}
    (hLinked : t.Linked)
    (fuel : Nat)
    {seen pending below : List NodeId}
    {u : Tree}
    (hSweep : Sweep t top seen pending)
    (hWalk : t.walk fuel pending = .ok below)
    (hFreed : Freed seen t u) :
    Freed (below.reverse ++ seen) t
      (freeAll fuel pending u) := by
  induction fuel generalizing seen pending below u with
  | zero =>
      cases pending with
      | nil =>
          cases hWalk
          simpa [freeAll] using hFreed
      | cons id rest => cases hWalk
  | succ fuel ih =>
      cases pending with
      | nil =>
          cases hWalk
          simpa [freeAll] using hFreed
      | cons id rest =>
          rw [walk, bind_eq_ok_iff] at hWalk
          rcases hWalk with ⟨n, hNode, hRest⟩
          rcases bind_eq_ok_iff.mp hRest with
            ⟨others, hOthers, hDone⟩
          rw [pure_eq_ok_iff] at hDone
          subst hDone
          rw [node_eq_ok_iff] at hNode
          have hNew : id ∉ seen := by
            intro hSeen
            exact
              (List.nodup_append.mp hSweep.nodup).2.2
                id hSeen id (by simp) rfl
          have hThere : u.get? id = some n := by
            rw [hFreed.get, if_neg hNew, hNode]
          have hNext := hSweep.next hLinked
          rw [childrenOf_of_get? hNode] at hNext
          have hAll :=
            ih hNext hOthers
              (hFreed.release (contains_of_get? hThere))
          rw [freeAll, hThere]
          simpa using hAll

/- With fuel for what was not seen yet a whole sweep is freed. -/
theorem freeAll_freed
    {t : Tree}
    {top : NodeId}
    (hLinked : t.Linked)
    (fuel : Nat)
    {seen pending : List NodeId}
    {u : Tree}
    (hSweep : Sweep t top seen pending)
    (hFuel : t.slots.size ≤ fuel + seen.length)
    (hFreed : Freed seen t u) :
    ∃ gone, Sweep t top gone [] ∧
      Freed gone t (freeAll fuel pending u) := by
  rcases walk_eq_ok hLinked fuel hSweep hFuel with
    ⟨below, hWalk, hDone⟩
  exact
    ⟨below.reverse ++ seen, hDone,
      freed_of_walk hLinked fuel hSweep hWalk hFreed⟩

/-
  Removal does nothing to the document node or a missing one;
  else the node is cut off and all within it is freed.
-/
theorem remove_cases
    {t t' : Tree}
    {id : NodeId}
    (hLinked : t.Linked)
    (hRun : t.remove id = .ok t') :
    ((id = 0 ∨ t.contains id = false) ∧ t' = t) ∨
      ∃ u gone, Cut [id] t u ∧ Freed gone u t' ∧
        ∀ x, x ∈ gone ↔ u.Within x id := by
  unfold remove at hRun
  by_cases hSkip : (decide (id = 0) || !t.contains id) = true
  · rw [if_pos hSkip] at hRun
    cases hRun
    exact Or.inl ⟨by simpa using hSkip, rfl⟩
  · rw [if_neg hSkip, bind_eq_ok_iff] at hRun
    rcases hRun with ⟨u, hDetach, hDone⟩
    rw [pure_eq_ok_iff] at hDone
    have hCut := cut_of_detach hLinked hDetach
    have hCutLinked := hLinked.cut hCut
    have hLive : u.contains id = true := by
      rcases detach_cases hDetach with ⟨n, hNode, _⟩
      rw [hCut.nodes.contains]
      exact contains_of_get? hNode
    rcases
      freeAll_freed hCutLinked u.slots.size
        (Sweep.ofTop hLive) (by simp)
        (Freed.refl hCutLinked.free) with
      ⟨gone, hSweep, hFreed⟩
    rw [hDone] at hFreed
    exact
      Or.inr
        ⟨u, gone, hCut, hFreed,
          hSweep.mem_seen_iff hCutLinked⟩

/- The document node is never asked to go. -/
theorem remove_document
    (t : Tree) :
    t.remove 0 = .ok t := by
  simp [remove]

/- What goes with any other node is what stands within it. -/
theorem contentOf?_of_remove
    {t t' : Tree}
    {id : NodeId}
    (hLinked : t.Linked)
    (hOther : id ≠ 0)
    (hRun : t.remove id = .ok t')
    (x : NodeId) :
    (t.Within x id → t'.contentOf? x = none) ∧
      (¬ t.Within x id → t'.contentOf? x = t.contentOf? x) := by
  rcases remove_cases hLinked hRun with
    ⟨hSkip, rfl⟩ | ⟨u, gone, hCut, hFreed, hGone⟩
  · refine ⟨?_, fun _ => rfl⟩
    intro hWithin
    have hMissing : t'.contains id = false :=
      hSkip.resolve_left hOther
    have hNone : t'.contains x = false := by
      by_contra hLive
      rw [Bool.not_eq_false] at hLive
      rw [hLinked.contains_of_within hLive hWithin] at hMissing
      cases hMissing
    rw [contentOf?, not_contains_iff.mp hNone]
    rfl
  · have hWent : x ∈ gone ↔ t.Within x id :=
      (hGone x).trans hCut.within_iff
    rw [← hWent, contentOf?, hFreed.get,
      ← hCut.nodes.content]
    constructor
    · intro hMember
      rw [if_pos hMember]
      rfl
    · intro hStays
      rw [if_neg hStays]
      rfl

/- Of a whole subtree a parent goes with its children. -/
theorem gone_iff_of_parent
    {t : Tree}
    {top : NodeId}
    {gone : List NodeId}
    (hRoot : t.parent? top = none)
    (hGone : ∀ x, x ∈ gone ↔ t.Within x top)
    {c p : NodeId}
    (hParent : t.parent? c = some p) :
    c ∈ gone ↔ p ∈ gone := by
  rw [hGone, hGone]
  constructor
  · intro hWithin
    rcases within_cases hWithin with
      rfl | ⟨q, hOther, hAbove⟩
    · rw [hRoot] at hParent
      cases hParent
    · rw [hParent] at hOther
      exact Option.some.inj hOther ▸ hAbove
  · exact within_of_parent? hParent

/-
  What is left after a subtree was freed is linked among
  itself: a parent and its child go together.
-/
theorem Linked.freed
    {t t' : Tree}
    {top : NodeId}
    {gone : List NodeId}
    (hLinked : t.Linked)
    (hRoot : t.parent? top = none)
    (hFreed : Freed gone t t')
    (hGone : ∀ x, x ∈ gone ↔ t.Within x top) :
    t'.Linked := by
  constructor
  · intro i n hNode
    rw [hFreed.get] at hNode
    by_cases hMember : i ∈ gone
    · simp [hMember] at hNode
    · rw [if_neg hMember] at hNode
      exact hLinked.ids i n hNode
  · intro c p
    rw [hFreed.parent_eq, hFreed.children_eq]
    by_cases hParent : t.parent? c = some p
    · have hBoth := gone_iff_of_parent hRoot hGone hParent
      have hChild := (hLinked.listed c p).mpr hParent
      by_cases hMember : p ∈ gone
      · simp [hMember, hBoth.mpr hMember]
      · have hLeft : c ∉ gone := fun h => hMember (hBoth.mp h)
        simp [hMember, hLeft, hParent, hChild]
    · have hNot : c ∉ t.childrenOf p := fun h =>
        hParent ((hLinked.listed c p).mp h)
      by_cases hMember : p ∈ gone <;>
        by_cases hLeft : c ∈ gone <;>
          simp [hMember, hLeft, hParent, hNot]
  · intro p
    rw [hFreed.children_eq]
    by_cases hMember : p ∈ gone
    · simp [hMember]
    · simpa [hMember] using hLinked.nodup p
  · rcases hLinked.ranked with ⟨rank, hRank⟩
    refine ⟨rank, ?_⟩
    intro c p hParent
    rw [hFreed.parent_eq] at hParent
    by_cases hMember : c ∈ gone
    · simp [hMember] at hParent
    · rw [if_neg hMember] at hParent
      exact hRank c p hParent
  · exact hFreed.listed

theorem Linked.remove
    {t t' : Tree}
    {id : NodeId}
    (hLinked : t.Linked)
    (hRun : t.remove id = .ok t') :
    t'.Linked := by
  rcases remove_cases hLinked hRun with
    ⟨_, rfl⟩ | ⟨u, gone, hCut, hFreed, hGone⟩
  · exact hLinked
  · apply (hLinked.cut hCut).freed _ hFreed hGone
    rw [hCut.parent]
    simp

end Tree

end Dom

end MarkupMetrics
