import MarkupMetrics.Proofs.Dom.Kinship

/-
  This file proves that texts and comments that are put into
  a tree do not come between elements.

  A tree is filled up by new nodes without children that are
  texts or comments, at any places of any child lists.  Then
  its elements have the same relatives as before, and the
  nodes below a node are the same but for the new ones.

  Key definitions include:
    * `NodeData.isFiller`
    * `NodeData.isBlank`
    * `Tree.Filled`
    * `Tree.OnlyBlanks`

  Key theorems include:
    * `Tree.Filled.precedingElements_eq`
    * `Tree.Filled.ancestorElements_eq`
    * `Tree.Filled.descendants_filter`
-/

namespace MarkupMetrics

namespace Dom

------------------------------------------------------------
-- Fillers
------------------------------------------------------------

namespace NodeData

/- Whether a node is a text or a comment. -/
def isFiller : NodeData → Bool
  | .text _ => true
  | .comment => true
  | _ => false

/- Whether it is a comment or a text without characters. -/
def isBlank : NodeData → Bool
  | .text content => content == ""
  | .comment => true
  | _ => false

end NodeData

namespace Tree

open Outcome

/-
  One tree is another with new nodes without children that
  are texts or comments.  The old nodes have their content and
  their parents, and without the new ones their child lists.
-/
structure Filled
    (t t' : Tree) : Prop where
  content :
    ∀ x, t.contains x = true →
      t'.contentOf? x = t.contentOf? x
  parent :
    ∀ x, t.contains x = true → t'.parent? x = t.parent? x
  children :
    ∀ x, t.contains x = true →
      (t'.childrenOf x).filter t.contains = t.childrenOf x
  added :
    ∀ x n, t.contains x = false → t'.get? x = some n →
      n.data.isFiller = true ∧ n.children = []

/- The new nodes are comments and texts without characters. -/
def OnlyBlanks
    (t t' : Tree) : Prop :=
  ∀ x n, t.contains x = false → t'.get? x = some n →
    n.data.isBlank = true

namespace Filled

variable {t t' : Tree}

theorem contains
    (hFilled : t.Filled t')
    {x : NodeId}
    (hLive : t.contains x = true) :
    t'.contains x = true := by
  rw [contains_iff_contentOf?, hFilled.content x hLive,
    ← contains_iff_contentOf?, hLive]

/- What was there before is still the same kind of node. -/
theorem exists_node
    (hFilled : t.Filled t')
    {x : NodeId}
    {n : Node}
    (hNode : t.get? x = some n) :
    ∃ n', t'.get? x = some n' ∧ n'.data = n.data :=
  exists_same_data
    (hFilled.content x (contains_of_get? hNode)) hNode

/- No elements are added. -/
theorem elementAt?_eq
    (hFilled : t.Filled t')
    (x : NodeId) :
    t'.elementAt? x = t.elementAt? x := by
  cases hNode : t.get? x with
  | some n =>
      rcases hFilled.exists_node hNode with ⟨n', hNode', hData⟩
      simp [elementAt?, hNode, hNode', Node.element?, hData]
  | none =>
      have hNone : t.elementAt? x = none := by
        simp [elementAt?, hNode]
      rw [hNone]
      cases hNode' : t'.get? x with
      | none => simp [elementAt?, hNode']
      | some n' =>
          have hAdded :=
            (hFilled.added x n' (not_contains_iff.mpr hNode)
              hNode').1
          cases hData : n'.data with
          | element e => simp [hData, NodeData.isFiller] at hAdded
          | _ =>
              simp [elementAt?, hNode', Node.element?, hData]

theorem isElement_eq
    (hFilled : t.Filled t')
    (x : NodeId) :
    t'.isElement x = t.isElement x := by
  rw [isElement, isElement, hFilled.elementAt?_eq]

/- An element of the filled tree was there before. -/
theorem contains_of_isElement
    {x : NodeId}
    (hElement : t.isElement x = true) :
    t.contains x = true := by
  rcases Option.isSome_iff_exists.mp hElement with ⟨e, hE⟩
  rcases Option.bind_eq_some_iff.mp hE with ⟨n, hNode, _⟩
  exact contains_of_get? hNode

/- So elements are found among the old nodes alone. -/
theorem filter_isElement
    (hFilled : t.Filled t')
    (ids : List NodeId) :
    ids.filter t'.isElement =
      (ids.filter t.contains).filter t.isElement := by
  rw [List.filter_filter]
  apply List.filter_congr
  intro x _
  rw [hFilled.isElement_eq]
  cases hElement : t.isElement x with
  | true => simp [contains_of_isElement hElement]
  | false => rfl

------------------------------------------------------------
-- Relatives
------------------------------------------------------------

theorem parentElement?_eq
    (hFilled : t.Filled t')
    {x : NodeId}
    (hLive : t.contains x = true) :
    t'.parentElement? x = t.parentElement? x := by
  have hSame : t'.isElement = t.isElement :=
    funext hFilled.isElement_eq
  rw [parentElement?, parentElement?, hFilled.parent x hLive,
    hSame]

/- The document node is in its place. -/
theorem isRoot_eq
    (hFilled : t.Filled t')
    (hLinked : t.Linked)
    {x : NodeId}
    (hLive : t.contains x = true) :
    t'.isRoot x = t.isRoot x := by
  rw [isRoot, isRoot, hFilled.parent x hLive]
  cases hParent : t.parent? x with
  | none => rfl
  | some p =>
      rcases contains_iff.mp (hLinked.contains_parent hParent)
        with ⟨n, hNode⟩
      rcases hFilled.exists_node hNode with ⟨n', hNode', hData⟩
      simp [hNode, hNode', hData]

/-
  A node with a parent stands in both child lists, and what is
  around it in the old one is in the new one, too.
-/
theorem exists_places
    (hFilled : t.Filled t')
    (hLinked : t.Linked)
    (hLinked' : t'.Linked)
    {x p : NodeId}
    (hParent : t.parent? x = some p) :
    ∃ front after,
      t'.childrenOf p = front ++ x :: after ∧
        t.childrenOf p =
          front.filter t.contains ++
            x :: after.filter t.contains := by
  have hLive := contains_of_parent? hParent
  have hParent' : t'.parent? x = some p :=
    (hFilled.parent x hLive).trans hParent
  rcases List.append_of_mem
    ((hLinked'.listed x p).mpr hParent') with
    ⟨front, after, hSplit⟩
  refine ⟨front, after, hSplit, ?_⟩
  rw [← hFilled.children p (hLinked.contains_parent hParent),
    hSplit]
  simp [hLive]

theorem precedingElements_eq
    (hFilled : t.Filled t')
    (hLinked : t.Linked)
    (hLinked' : t'.Linked)
    {x : NodeId}
    (hLive : t.contains x = true) :
    t'.precedingElements x = t.precedingElements x := by
  cases hParent : t.parent? x with
  | none =>
      simp [precedingElements, siblings,
        hFilled.parent x hLive, hParent]
  | some p =>
      rcases hFilled.exists_places hLinked hLinked' hParent with
        ⟨front, after, hNew, hOld⟩
      rw [precedingElements_of_childrenOf hLinked' hNew,
        precedingElements_of_childrenOf hLinked hOld,
        hFilled.filter_isElement, List.filter_reverse]

theorem followingElements_eq
    (hFilled : t.Filled t')
    (hLinked : t.Linked)
    (hLinked' : t'.Linked)
    {x : NodeId}
    (hLive : t.contains x = true) :
    t'.followingElements x = t.followingElements x := by
  cases hParent : t.parent? x with
  | none =>
      simp [followingElements, siblings,
        hFilled.parent x hLive, hParent]
  | some p =>
      rcases hFilled.exists_places hLinked hLinked' hParent with
        ⟨front, after, hNew, hOld⟩
      rw [followingElements_of_childrenOf hLinked' hNew,
        followingElements_of_childrenOf hLinked hOld,
        hFilled.filter_isElement]

/- Blanks are no content, and what was content still is. -/
theorem hasNoContent_eq
    (hFilled : t.Filled t')
    (hBlanks : t.OnlyBlanks t')
    {x : NodeId}
    (hLive : t.contains x = true) :
    t'.hasNoContent x = t.hasNoContent x := by
  have hOld :
      ∀ c, t.contains c = true → t'.isVoid c = t.isVoid c := by
    intro c hThere
    rcases contains_iff.mp hThere with ⟨n, hNode⟩
    rcases hFilled.exists_node hNode with ⟨n', hNode', hData⟩
    simp [isVoid, hNode, hNode', hData]
  have hNew :
      ∀ c, t.contains c = false → t'.isVoid c = true := by
    intro c hFresh
    cases hNode : t'.get? c with
    | none => simp [isVoid, hNode]
    | some n =>
        have hBlank := hBlanks c n hFresh hNode
        cases hData : n.data with
        | text content =>
            simpa [isVoid, hNode, hData, NodeData.isBlank]
              using hBlank
        | element e => simp [hData, NodeData.isBlank] at hBlank
        | _ => simp [isVoid, hNode, hData]
  rw [hasNoContent, hasNoContent, ← hFilled.children x hLive,
    List.all_filter]
  apply List.all_congr rfl
  intro c
  cases hThere : t.contains c with
  | true => simp [hOld c hThere]
  | false => simp [hNew c hThere]

------------------------------------------------------------
-- Up
------------------------------------------------------------

end Filled

/- More fuel does not lead further up than to the root. -/
theorem climbElements_of_climb
    {t : Tree}
    {fuel more : Nat}
    (hMore : fuel ≤ more)
    {x : NodeId}
    {above : List NodeId}
    (hClimb : t.climb fuel x = .ok above) :
    t.climbElements more x = t.climbElements fuel x := by
  induction fuel generalizing more x above with
  | zero =>
      have hNone : t.parentElement? x = none := by
        rw [Option.eq_none_iff_forall_ne_some]
        intro p hParent
        have hUp := (parentElement?_eq_some_iff.mp hParent).1
        simp [climb, contains_of_parent? hUp] at hClimb
      cases more with
      | zero => rfl
      | succ more => simp [climbElements, hNone]
  | succ fuel ih =>
      cases more with
      | zero => omega
      | succ more =>
          rw [climbElements, climbElements]
          cases hParent : t.parentElement? x with
          | none => rfl
          | some p =>
              have hUp :=
                (parentElement?_eq_some_iff.mp hParent).1
              rcases Option.bind_eq_some_iff.mp hUp with
                ⟨n, hNode, hLink⟩
              simp only [climb, hNode, hLink, bind_eq_ok_iff]
                at hClimb
              rcases hClimb with ⟨rest, hRest, _⟩
              have hEnough := Nat.le_of_succ_le_succ hMore
              exact congrArg (p :: ·) (ih hEnough hRest)

namespace Filled

variable {t t' : Tree}

theorem climbElements_eq
    (hFilled : t.Filled t')
    (hLinked : t.Linked)
    (fuel : Nat)
    {x : NodeId}
    (hLive : t.contains x = true) :
    t'.climbElements fuel x = t.climbElements fuel x := by
  induction fuel generalizing x with
  | zero => rfl
  | succ fuel ih =>
      rw [climbElements, climbElements,
        hFilled.parentElement?_eq hLive]
      cases hParent : t.parentElement? x with
      | none => rfl
      | some p =>
          have hUp := (parentElement?_eq_some_iff.mp hParent).1
          simp only [ih (hLinked.contains_parent hUp)]

theorem ancestorElements_eq
    (hFilled : t.Filled t')
    (hLinked : t.Linked)
    (hLinked' : t'.Linked)
    {x : NodeId}
    (hLive : t.contains x = true) :
    t'.ancestorElements x = t.ancestorElements x := by
  rcases exists_chain hLinked x with ⟨above, hChain, _⟩
  rcases exists_chain hLinked' x with ⟨above', hChain', _⟩
  let most := max t.slots.size t'.slots.size
  calc
    t'.ancestorElements x = t'.climbElements most x :=
      (climbElements_of_climb (Nat.le_max_right _ _)
        hChain').symm
    _ = t.climbElements most x :=
      hFilled.climbElements_eq hLinked most hLive
    _ = t.ancestorElements x :=
      climbElements_of_climb (Nat.le_max_left _ _) hChain

end Filled

------------------------------------------------------------
-- Down
------------------------------------------------------------

/- More fuel does not change what a walk lists. -/
theorem walk_of_walk
    {t : Tree}
    {fuel more : Nat}
    (hMore : fuel ≤ more)
    {pending below : List NodeId}
    (hWalk : t.walk fuel pending = .ok below) :
    t.walk more pending = .ok below := by
  induction fuel generalizing more pending below with
  | zero =>
      cases pending with
      | nil => simpa [walk] using hWalk
      | cons id rest => cases hWalk
  | succ fuel ih =>
      cases pending with
      | nil => simpa [walk] using hWalk
      | cons id rest =>
          cases more with
          | zero => omega
          | succ more =>
              rw [walk, bind_eq_ok_iff] at hWalk ⊢
              rcases hWalk with ⟨n, hNode, hRest⟩
              rcases bind_eq_ok_iff.mp hRest with
                ⟨others, hOthers, hDone⟩
              exact
                ⟨n, hNode,
                  bind_eq_ok_iff.mpr
                    ⟨others, ih (by omega) hOthers, hDone⟩⟩

namespace Filled

variable {t t' : Tree}

/- A walk passes new nodes by, as there is nothing below them. -/
theorem walk_filter
    (hFilled : t.Filled t')
    (fuel : Nat)
    {pending below : List NodeId}
    (hWalk : t'.walk fuel pending = .ok below) :
    t.walk fuel (pending.filter t.contains) =
      .ok (below.filter t.contains) := by
  induction fuel generalizing pending below with
  | zero =>
      cases pending with
      | nil =>
          cases hWalk
          rfl
      | cons id rest => cases hWalk
  | succ fuel ih =>
      cases pending with
      | nil =>
          cases hWalk
          rfl
      | cons id rest =>
          rw [walk, bind_eq_ok_iff] at hWalk
          rcases hWalk with ⟨n', hNode', hRest⟩
          rcases bind_eq_ok_iff.mp hRest with
            ⟨others, hOthers, hDone⟩
          rw [pure_eq_ok_iff] at hDone
          subst hDone
          rw [node_eq_ok_iff] at hNode'
          have hNext := ih hOthers
          cases hThere : t.contains id with
          | true =>
              rcases contains_iff.mp hThere with ⟨n, hNode⟩
              have hChildren := hFilled.children id hThere
              rw [childrenOf_of_get? hNode,
                childrenOf_of_get? hNode'] at hChildren
              rw [List.filter_append, hChildren] at hNext
              rw [List.filter_cons_of_pos hThere,
                List.filter_cons_of_pos hThere, walk,
                node_eq_ok_iff.mpr hNode]
              simp only [ok_bind, hNext]
              rfl
          | false =>
              have hLeaf := (hFilled.added id n' hThere hNode').2
              rw [hLeaf, List.nil_append] at hNext
              rw [List.filter_cons_of_neg (by simp [hThere]),
                List.filter_cons_of_neg (by simp [hThere])]
              exact walk_of_walk (Nat.le_succ fuel) hNext

/- The old nodes below a node are in the order they were in. -/
theorem descendants_filter
    (hFilled : t.Filled t')
    (hLinked : t.Linked)
    {id : NodeId}
    {below' : List NodeId}
    (hBelow' : t'.descendants id = .ok below') :
    t.descendants id = .ok (below'.filter t.contains) := by
  cases hNode : t.get? id with
  | none =>
      have hEmpty : below' = [] := by
        unfold descendants at hBelow'
        cases hNode' : t'.get? id with
        | none =>
            rw [hNode'] at hBelow'
            cases hBelow'
            rfl
        | some n' =>
            have hLeaf :=
              (hFilled.added id n' (not_contains_iff.mpr hNode)
                hNode').2
            simp only [hNode', hLeaf] at hBelow'
            simpa [walk, eq_comm] using hBelow'
      simp [descendants, hNode, hEmpty]
  | some n =>
      rcases hFilled.exists_node hNode with ⟨n', hNode', _⟩
      rcases exists_descendants hLinked id with ⟨below, hBelow⟩
      have hChildren :=
        hFilled.children id (contains_of_get? hNode)
      rw [childrenOf_of_get? hNode, childrenOf_of_get? hNode']
        at hChildren
      simp only [descendants, hNode'] at hBelow'
      have hWalk := hFilled.walk_filter _ hBelow'
      rw [hChildren] at hWalk
      have hSame := hBelow
      simp only [descendants, hNode] at hSame
      have hMost :=
        walk_of_walk
          (Nat.le_max_left t.slots.size t'.slots.size) hSame
      have hMost' :=
        walk_of_walk
          (Nat.le_max_right t.slots.size t'.slots.size) hWalk
      rw [hMost] at hMost'
      rw [hBelow, hMost']

------------------------------------------------------------
-- Filling up
------------------------------------------------------------

/- To begin with nothing is added. -/
theorem refl
    (hLinked : t.Linked) :
    t.Filled t where
  content _ _ := rfl
  parent _ _ := rfl
  children x _ := by
    apply List.filter_eq_self.mpr
    intro c hChild
    exact hLinked.contains_child hChild
  added x n hFresh hNode := by
    rw [contains_of_get? hNode] at hFresh
    cases hFresh

/- A filler that is made stands nowhere yet. -/
theorem create
    (hFilled : t.Filled t')
    (hFree : t'.FreeListed)
    (data : NodeData)
    (hData : data.isFiller = true) :
    t.Filled (t'.create data).1 ∧
      t.contains (t'.create data).2 = false := by
  have hRead := get?_create hFree data
  have hNew : t.contains (t'.create data).2 = false := by
    rw [← Bool.not_eq_true]
    intro hLive
    have hThere := hFilled.contains hLive
    simp [Tree.contains, hRead.1] at hThere
  have hOld :
      ∀ x, t.contains x = true →
        (t'.create data).1.get? x = t'.get? x := by
    intro x hLive
    rw [hRead.2, if_neg (ne_of_missing hLive hNew)]
  refine ⟨?_, hNew⟩
  constructor
  · intro x hLive
    rw [contentOf?, hOld x hLive]
    exact hFilled.content x hLive
  · intro x hLive
    rw [parent?, hOld x hLive]
    exact hFilled.parent x hLive
  · intro x hLive
    rw [childrenOf, hOld x hLive]
    exact hFilled.children x hLive
  · intro x n hFresh hNode
    rw [hRead.2] at hNode
    by_cases hSame : x = (t'.create data).2
    · rw [if_pos hSame] at hNode
      cases hNode
      exact ⟨hData, rfl⟩
    · rw [if_neg hSame] at hNode
      exact hFilled.added x n hFresh hNode

/-
  A new node may be moved among the children of an old one,
  wherever the old ones stand in their order.
-/
theorem placed
    (hFilled : t.Filled t')
    (hLinked' : t'.Linked)
    {child owner : NodeId}
    (hNew : t.contains child = false)
    (hOwner : t.contains owner = true)
    {u : Tree}
    (hDetach : t'.detach child = .ok u)
    {list : List NodeId}
    (hList :
      list.filter t.contains =
        (u.childrenOf owner).filter t.contains) :
    t.Filled
      ((u.setChildren owner list).setParent child
        (some owner)) := by
  have hCut := cut_of_detach hLinked' hDetach
  have hChild : u.contains child = true := by
    rcases detach_cases hDetach with ⟨n, hNode, _⟩
    rw [hCut.nodes.contains]
    exact contains_of_get? hNode
  have hThere : u.contains owner = true := by
    rw [hCut.nodes.contains]
    exact hFilled.contains hOwner
  have hAttached := attached_links list hChild hThere
  have hNodes := hCut.nodes.trans hAttached.nodes
  have hKept :
      ∀ x, t.contains x = true →
        (u.childrenOf x).filter t.contains = t.childrenOf x := by
    intro x hLive
    rw [hCut.children, ← hFilled.children x hLive,
      List.filter_filter]
    apply List.filter_congr
    intro c _
    cases hOld : t.contains c with
    | false => rfl
    | true =>
        simp [ne_of_missing hOld hNew]
  constructor
  · intro x hLive
    rw [hNodes.content]
    exact hFilled.content x hLive
  · intro x hLive
    have hOther := ne_of_missing hLive hNew
    rw [hAttached.parent, if_neg hOther, hCut.parent,
      if_neg (by simp [hOther])]
    exact hFilled.parent x hLive
  · intro x hLive
    rw [hAttached.children]
    by_cases hSame : x = owner
    · subst hSame
      rw [if_pos rfl, hList]
      exact hKept x hLive
    · rw [if_neg hSame]
      exact hKept x hLive
  · intro x n hFresh hNode
    have hOther : x ≠ owner := by
      rintro rfl
      rw [hOwner] at hFresh
      cases hFresh
    rcases exists_same_data (hNodes.content x).symm hNode with
      ⟨n', hNode', hData⟩
    have hAdded := hFilled.added x n' hFresh hNode'
    refine ⟨hData ▸ hAdded.1, ?_⟩
    rw [← childrenOf_of_get? hNode, hAttached.children,
      if_neg hOther, hCut.children, childrenOf_of_get? hNode',
      hAdded.2]
    rfl

/- At the end of a child list, for instance. -/
theorem appendOne
    (hFilled : t.Filled t')
    (hLinked' : t'.Linked)
    (child owner : NodeId)
    (hNew : t.contains child = false)
    (hOwner : t.contains owner = true)
    {t'' : Tree}
    (hRun : Tree.appendOne owner t' child = .ok t'') :
    t.Filled t'' := by
  rcases appendOne_cases hRun with ⟨u, hDetach, _, rfl⟩
  apply hFilled.placed hLinked' hNew hOwner hDetach
  simp [hNew]

/- Or before any child. -/
theorem insertOneBefore
    (hFilled : t.Filled t')
    (hLinked' : t'.Linked)
    (child owner anchor : NodeId)
    (hNew : t.contains child = false)
    (hOwner : t.contains owner = true)
    {t'' : Tree}
    (hRun :
      Tree.insertOneBefore owner anchor t' child = .ok t'') :
    t.Filled t'' := by
  rcases insertOneBefore_cases hRun with ⟨u, hDetach, _, rfl⟩
  apply hFilled.placed hLinked' hNew hOwner hDetach
  exact filter_insertBeforeAnchor hNew anchor _

end Filled

end Tree

end Dom

end MarkupMetrics
