import MarkupMetrics.Dom.Kin
import MarkupMetrics.Proofs.Dom.Climb
import Mathlib.Data.List.Nodup

/-
  This file proves what the searches for relatives of a node
  find, in terms of parent links and child lists.

  The way up stops at a parent that is no element, whatever
  stands above it.  Among siblings, nodes that are no elements
  are passed over.

  Key definitions include:
    * `Tree.BelowElement`
    * `Tree.Follows`
    * `Tree.FollowsNext`

  Key theorems include:
    * `Tree.mem_ancestorElements_iff`
    * `Tree.mem_precedingElements_iff`
    * `Tree.previousElement?_eq_some_iff`
-/

namespace MarkupMetrics

namespace Dom

namespace Tree

open Outcome

------------------------------------------------------------
-- Above
------------------------------------------------------------

/- A node stands below an element, with elements between. -/
def BelowElement
    (t : Tree)
    (x y : NodeId) : Prop :=
  Relation.TransGen
    (fun c p => t.IsChild c p ∧ t.isElement p = true) x y

/- What a node stands below in this way is an element. -/
theorem BelowElement.isElement
    {t : Tree}
    {x y : NodeId}
    (hBelow : t.BelowElement x y) :
    t.isElement y = true := by
  cases hBelow with
  | single hUp => exact hUp.2
  | tail _ hUp => exact hUp.2

theorem parentElement?_eq_some_iff
    {t : Tree}
    {x p : NodeId} :
    t.parentElement? x = some p ↔
      t.IsChild x p ∧ t.isElement p = true := by
  simp [parentElement?, IsChild, Option.filter_eq_some_iff]

theorem belowElement_of_mem_climbElements
    {t : Tree}
    (fuel : Nat)
    {x y : NodeId}
    (hMember : y ∈ t.climbElements fuel x) :
    t.BelowElement x y := by
  induction fuel generalizing x with
  | zero => cases hMember
  | succ fuel ih =>
      cases hParent : t.parentElement? x with
      | none => simp [climbElements, hParent] at hMember
      | some p =>
          have hUp := parentElement?_eq_some_iff.mp hParent
          simp only [climbElements, hParent, List.mem_cons]
            at hMember
          rcases hMember with rfl | hAbove
          · exact Relation.TransGen.single hUp
          · exact Relation.TransGen.head hUp (ih hAbove)

/- If the way up comes to an end, the fuel was enough. -/
theorem mem_climbElements_of_belowElement
    {t : Tree}
    (fuel : Nat)
    {x y : NodeId}
    {above : List NodeId}
    (hClimb : t.climb fuel x = .ok above)
    (hBelow : t.BelowElement x y) :
    y ∈ t.climbElements fuel x := by
  induction fuel generalizing x above with
  | zero =>
      rcases Relation.TransGen.head'_iff.mp hBelow with
        ⟨p, ⟨hUp, _⟩, _⟩
      simp [climb, contains_of_parent? hUp] at hClimb
  | succ fuel ih =>
      rcases Relation.TransGen.head'_iff.mp hBelow with
        ⟨p, hUp, hRest⟩
      have hParent := parentElement?_eq_some_iff.mpr hUp
      rw [climbElements, hParent, List.mem_cons]
      rcases Relation.reflTransGen_iff_eq_or_transGen.mp hRest
        with rfl | hAbove
      · exact Or.inl rfl
      · rcases Option.bind_eq_some_iff.mp hUp.1 with
          ⟨n, hNode, hLink⟩
        simp only [climb, hNode, hLink, bind_eq_ok_iff]
          at hClimb
        rcases hClimb with ⟨rest, hClimb, _⟩
        exact Or.inr (ih hClimb hAbove)

theorem mem_ancestorElements_iff
    {t : Tree}
    (hLinked : t.Linked)
    {x y : NodeId} :
    y ∈ t.ancestorElements x ↔ t.BelowElement x y := by
  constructor
  · exact belowElement_of_mem_climbElements t.slots.size
  · intro hBelow
    rcases exists_chain hLinked x with ⟨above, hChain, _⟩
    exact
      mem_climbElements_of_belowElement t.slots.size hChain
        hBelow

------------------------------------------------------------
-- Beside
------------------------------------------------------------

/- One node stands somewhere after another in a child list. -/
def Follows
    (t : Tree)
    (x y : NodeId) : Prop :=
  ∃ p before between after,
    t.childrenOf p = before ++ y :: (between ++ x :: after)

/- One node stands after another, with no element between. -/
def FollowsNext
    (t : Tree)
    (x y : NodeId) : Prop :=
  ∃ p before between after,
    t.childrenOf p = before ++ y :: (between ++ x :: after) ∧
      ∀ z ∈ between, t.isElement z = false

/- A node has one place in the child list it stands in. -/
theorem place_of_childrenOf
    {t : Tree}
    (hLinked : t.Linked)
    {p x : NodeId}
    {front after : List NodeId}
    (hChildren : t.childrenOf p = front ++ x :: after) :
    t.siblings x = front ++ x :: after ∧
      (front ++ x :: after).findIdx? (· == x) =
        some front.length := by
  have hParent : t.parent? x = some p :=
    (hLinked.listed x p).mp (by simp [hChildren])
  have hFresh : x ∉ front := by
    have hNodup := hLinked.nodup p
    rw [hChildren, List.nodup_append] at hNodup
    intro hMember
    exact hNodup.2.2 x hMember x (by simp) rfl
  constructor
  · simp only [siblings, hParent, hChildren]
  · rw [List.findIdx?_eq_some_iff_getElem]
    refine ⟨by simp, by simp, ?_⟩
    intro i hLess
    rw [List.getElem_append_left hLess]
    simp only [beq_iff_eq]
    intro hSame
    exact hFresh (hSame ▸ List.getElem_mem hLess)

/- What precedes a node is read off backwards. -/
theorem precedingElements_of_childrenOf
    {t : Tree}
    (hLinked : t.Linked)
    {p x : NodeId}
    {front after : List NodeId}
    (hChildren : t.childrenOf p = front ++ x :: after) :
    t.precedingElements x =
      front.reverse.filter t.isElement := by
  rcases place_of_childrenOf hLinked hChildren with
    ⟨hSiblings, hPlace⟩
  simp only [precedingElements, hSiblings, hPlace,
    List.take_left]

/- What follows it is read off forwards. -/
theorem followingElements_of_childrenOf
    {t : Tree}
    (hLinked : t.Linked)
    {p x : NodeId}
    {front after : List NodeId}
    (hChildren : t.childrenOf p = front ++ x :: after) :
    t.followingElements x = after.filter t.isElement := by
  rcases place_of_childrenOf hLinked hChildren with
    ⟨hSiblings, hPlace⟩
  have hDrop :
      (front ++ x :: after).drop (front.length + 1) = after := by
    rw [← List.drop_drop, List.drop_left]
    rfl
  simp only [followingElements, hSiblings, hPlace, hDrop]

/- A node with elements before it stands in a child list. -/
theorem exists_childrenOf
    {t : Tree}
    (hLinked : t.Linked)
    {x y : NodeId}
    (hMember : y ∈ t.precedingElements x) :
    ∃ p front after, t.childrenOf p = front ++ x :: after := by
  cases hParent : t.parent? x with
  | none =>
      simp [precedingElements, siblings, hParent] at hMember
  | some p =>
      have hThere := (hLinked.listed x p).mpr hParent
      rcases List.append_of_mem hThere with
        ⟨front, after, hSplit⟩
      exact ⟨p, front, after, hSplit⟩

theorem mem_precedingElements_iff
    {t : Tree}
    (hLinked : t.Linked)
    {x y : NodeId} :
    y ∈ t.precedingElements x ↔
      t.isElement y = true ∧ t.Follows x y := by
  constructor
  · intro hMember
    rcases exists_childrenOf hLinked hMember with
      ⟨p, front, after, hChildren⟩
    rw [precedingElements_of_childrenOf hLinked hChildren,
      List.mem_filter, List.mem_reverse] at hMember
    rcases List.append_of_mem hMember.1 with
      ⟨before, between, rfl⟩
    exact
      ⟨hMember.2, p, before, between, after, by
        simp [hChildren]⟩
  · rintro ⟨hElement, p, before, between, after, hChildren⟩
    have hFront :
        t.childrenOf p =
          (before ++ y :: between) ++ x :: after := by
      simp [hChildren]
    rw [precedingElements_of_childrenOf hLinked hFront,
      List.mem_filter]
    exact ⟨by simp, hElement⟩

theorem previousElement?_eq_some_iff
    {t : Tree}
    (hLinked : t.Linked)
    {x y : NodeId} :
    t.previousElement? x = some y ↔
      t.isElement y = true ∧ t.FollowsNext x y := by
  constructor
  · intro hFirst
    have hMember := List.mem_of_mem_head? hFirst
    rcases exists_childrenOf hLinked hMember with
      ⟨p, front, after, hChildren⟩
    rw [previousElement?,
      precedingElements_of_childrenOf hLinked hChildren,
      List.head?_filter, List.find?_eq_some_iff_append]
      at hFirst
    rcases hFirst with
      ⟨hElement, between, before, hSplit, hOthers⟩
    have hFront :
        front = before.reverse ++ y :: between.reverse := by
      rw [← front.reverse_reverse, hSplit]
      simp
    refine
      ⟨hElement, p, before.reverse, between.reverse, after,
        by simp [hChildren, hFront], ?_⟩
    intro z hBetween
    simpa using hOthers z (List.mem_reverse.mp hBetween)
  · rintro
      ⟨hElement, p, before, between, after, hChildren, hOthers⟩
    have hFront :
        t.childrenOf p =
          (before ++ y :: between) ++ x :: after := by
      simp [hChildren]
    rw [previousElement?,
      precedingElements_of_childrenOf hLinked hFront,
      List.head?_filter, List.find?_eq_some_iff_append]
    refine
      ⟨hElement, between.reverse, before.reverse, by simp, ?_⟩
    intro z hBetween
    simp [hOthers z (List.mem_reverse.mp hBetween)]

end Tree

end Dom

end MarkupMetrics
