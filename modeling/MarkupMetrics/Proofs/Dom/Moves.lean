import MarkupMetrics.Html.TreeCall
import MarkupMetrics.Proofs.Dom.Links

/-
  This file proves what the edits of child lists do to the
  links of a tree.

  Each of them moves nodes one after the other: a node is cut
  from its place and attached to its new parent.  Moves keep
  the links in agreement, as long as no node is moved below
  itself.

  Key definitions include:
    * `Tree.Moved`
    * `Tree.MayHold`

  Key theorems include:
    * `Tree.cut_of_detach`
    * `Tree.Linked.moves`
    * `Tree.Linked.append`
    * `Tree.Linked.insertBefore`
    * `Tree.Linked.reparent`
-/

namespace MarkupMetrics

namespace Dom

namespace Tree

open Outcome

------------------------------------------------------------
-- What moves leave alone
------------------------------------------------------------

theorem sameNodes_dropChild
    (t : Tree)
    (parent child : NodeId) :
    SameNodes t (t.dropChild parent child) := by
  rw [dropChild_eq]
  exact SameNodes.setChildren t parent _

/- A node that is detached has no parent, or a known one. -/
theorem detach_cases
    {t t' : Tree}
    {id : NodeId}
    (hRun : t.detach id = .ok t') :
    ∃ n, t.get? id = some n ∧
      ((n.parent = none ∧ t' = t) ∨
        ∃ p, n.parent = some p ∧ t.contains p = true ∧
          t' = (t.setParent id none).dropChild p id) := by
  rw [detach, bind_eq_ok_iff] at hRun
  rcases hRun with ⟨n, hNode, hRest⟩
  rw [node_eq_ok_iff] at hNode
  refine ⟨n, hNode, ?_⟩
  cases hParent : n.parent with
  | none =>
      rw [hParent] at hRest
      exact Or.inl ⟨rfl, (pure_eq_ok_iff.mp hRest).symm⟩
  | some p =>
      rw [hParent] at hRest
      rcases bind_eq_ok_iff.mp hRest with
        ⟨parent, hThere, hDone⟩
      rw [node_eq_ok_iff] at hThere
      exact
        Or.inr
          ⟨p, rfl, contains_of_get? hThere,
            (pure_eq_ok_iff.mp hDone).symm⟩

theorem sameNodes_of_detach
    {t t' : Tree}
    {id : NodeId}
    (hRun : t.detach id = .ok t') :
    SameNodes t t' := by
  rcases detach_cases hRun with
    ⟨n, _, ⟨_, rfl⟩ | ⟨p, _, _, rfl⟩⟩
  · exact SameNodes.refl t'
  · exact
      (SameNodes.setParent t id none).trans
        (sameNodes_dropChild _ p id)

/- A node that is unlinked has no parent, or a known one. -/
theorem unlink_cases
    (t : Tree)
    (id : NodeId) :
    (t.parent? id = none ∧ t.unlink id = t) ∨
      ∃ p, t.parent? id = some p ∧
        t.unlink id =
          (t.dropChild p id).setParent id none := by
  unfold unlink
  cases hNode : t.get? id with
  | none => simp [parent?, hNode]
  | some n =>
      rw [parent?_of_get? hNode]
      cases hParent : n.parent with
      | none => simp [hParent]
      | some p => simp [hParent]

theorem sameNodes_of_unlink
    (t : Tree)
    (id : NodeId) :
    SameNodes t (t.unlink id) := by
  rcases unlink_cases t id with ⟨_, hSame⟩ | ⟨p, _, hDone⟩
  · rw [hSame]
    exact SameNodes.refl t
  · rw [hDone]
    exact
      (sameNodes_dropChild t p id).trans
        (SameNodes.setParent _ id none)

/- Both kinds of moves end by setting two links. -/
theorem appendOne_cases
    {t t' : Tree}
    {owner child : NodeId}
    (hRun : appendOne owner t child = .ok t') :
    ∃ u, t.detach child = .ok u ∧ u.contains owner = true ∧
      t' =
        (u.setChildren owner
          (u.childrenOf owner ++ [child])).setParent child
            (some owner) := by
  rw [appendOne, bind_eq_ok_iff] at hRun
  rcases hRun with ⟨u, hDetach, hRest⟩
  rcases bind_eq_ok_iff.mp hRest with ⟨p, hOwner, hDone⟩
  rw [node_eq_ok_iff] at hOwner
  refine ⟨u, hDetach, contains_of_get? hOwner, ?_⟩
  rw [childrenOf_of_get? hOwner]
  exact (pure_eq_ok_iff.mp hDone).symm

theorem insertOneBefore_cases
    {t t' : Tree}
    {owner anchor child : NodeId}
    (hRun : insertOneBefore owner anchor t child = .ok t') :
    ∃ u, t.detach child = .ok u ∧ u.contains owner = true ∧
      t' =
        (u.setChildren owner
          (insertBeforeAnchor anchor child
            (u.childrenOf owner))).setParent child
              (some owner) := by
  rw [insertOneBefore, bind_eq_ok_iff] at hRun
  rcases hRun with ⟨u, hDetach, hRest⟩
  rcases bind_eq_ok_iff.mp hRest with ⟨p, hOwner, hDone⟩
  rw [node_eq_ok_iff] at hOwner
  refine ⟨u, hDetach, contains_of_get? hOwner, ?_⟩
  rw [childrenOf_of_get? hOwner]
  exact (pure_eq_ok_iff.mp hDone).symm

theorem sameNodes_of_appendOne
    {t t' : Tree}
    {owner child : NodeId}
    (hRun : appendOne owner t child = .ok t') :
    SameNodes t t' := by
  rcases appendOne_cases hRun with ⟨u, hDetach, _, rfl⟩
  exact
    (sameNodes_of_detach hDetach).trans
      ((SameNodes.setChildren u owner _).trans
        (SameNodes.setParent _ child _))

theorem sameNodes_of_append
    {t t' : Tree}
    {owner : NodeId}
    {children : List NodeId}
    (hRun : t.append owner children = .ok t') :
    SameNodes t t' :=
  foldlM_keeps
    (fun _ _ _ hSame hStep =>
      SameNodes.trans hSame (sameNodes_of_appendOne hStep))
    children (SameNodes.refl t) hRun

theorem sameNodes_of_insertOneBefore
    {t t' : Tree}
    {owner anchor child : NodeId}
    (hRun : insertOneBefore owner anchor t child = .ok t') :
    SameNodes t t' := by
  rcases insertOneBefore_cases hRun with ⟨u, hDetach, _, rfl⟩
  exact
    (sameNodes_of_detach hDetach).trans
      ((SameNodes.setChildren u owner _).trans
        (SameNodes.setParent _ child _))

/- Without a parent the anchor keeps everything in its place. -/
theorem insertBefore_cases
    {t t' : Tree}
    {anchor : NodeId}
    {nodes : List NodeId}
    (hRun : t.insertBefore anchor nodes = .ok t') :
    (t.parent? anchor = none ∧ t' = t) ∨
      ∃ p, t.parent? anchor = some p ∧
        nodes.foldlM (insertOneBefore p anchor) t =
          .ok t' := by
  rw [insertBefore, bind_eq_ok_iff] at hRun
  rcases hRun with ⟨a, hAnchor, hRest⟩
  rw [node_eq_ok_iff] at hAnchor
  rw [parent?_of_get? hAnchor]
  cases hParent : a.parent with
  | none =>
      rw [hParent] at hRest
      exact Or.inl ⟨rfl, (pure_eq_ok_iff.mp hRest).symm⟩
  | some p =>
      rw [hParent] at hRest
      exact Or.inr ⟨p, rfl, hRest⟩

theorem sameNodes_of_insertBefore
    {t t' : Tree}
    {anchor : NodeId}
    {nodes : List NodeId}
    (hRun : t.insertBefore anchor nodes = .ok t') :
    SameNodes t t' := by
  rcases insertBefore_cases hRun with
    ⟨_, rfl⟩ | ⟨p, _, hMoves⟩
  · exact SameNodes.refl t'
  · exact
      foldlM_keeps
        (fun _ _ _ hSame hStep =>
          SameNodes.trans hSame
            (sameNodes_of_insertOneBefore hStep))
        nodes (SameNodes.refl t) hMoves

theorem orphanOne_cases
    {t t' : Tree}
    {id : NodeId}
    (hRun : orphanOne t id = .ok t') :
    t.contains id = true ∧ t' = t.setParent id none := by
  rw [orphanOne, bind_eq_ok_iff] at hRun
  rcases hRun with ⟨n, hNode, hDone⟩
  rw [node_eq_ok_iff] at hNode
  exact
    ⟨contains_of_get? hNode, (pure_eq_ok_iff.mp hDone).symm⟩

/- The children are taken out first, and then appended. -/
theorem reparent_cases
    {t t' : Tree}
    {source target : NodeId}
    (hRun : t.reparent source target = .ok t') :
    ∃ u, t.contains source = true ∧
      (t.childrenOf source).foldlM orphanOne
          (t.setChildren source []) = .ok u ∧
        u.append target (t.childrenOf source) = .ok t' := by
  rw [reparent, bind_eq_ok_iff] at hRun
  rcases hRun with ⟨n, hSource, hRest⟩
  rw [node_eq_ok_iff] at hSource
  rcases bind_eq_ok_iff.mp hRest with ⟨u, hOrphans, hAppend⟩
  rw [childrenOf_of_get? hSource]
  exact ⟨u, contains_of_get? hSource, hOrphans, hAppend⟩

theorem sameNodes_of_orphans
    {t t' : Tree}
    {ids : List NodeId}
    (hRun : ids.foldlM orphanOne t = .ok t') :
    SameNodes t t' :=
  foldlM_keeps
    (fun _ id _ hSame hStep => by
      rcases orphanOne_cases hStep with ⟨_, rfl⟩
      exact SameNodes.trans hSame (SameNodes.setParent _ id _))
    ids (SameNodes.refl t) hRun

theorem sameNodes_of_reparent
    {t t' : Tree}
    {source target : NodeId}
    (hRun : t.reparent source target = .ok t') :
    SameNodes t t' := by
  rcases reparent_cases hRun with ⟨u, _, hOrphans, hAppend⟩
  exact
    (SameNodes.setChildren t source []).trans
      ((sameNodes_of_orphans hOrphans).trans
        (sameNodes_of_append hAppend))

------------------------------------------------------------
-- Cutting
------------------------------------------------------------

/- A node without parent stands in no child list. -/
theorem Linked.cut_refl
    {t : Tree}
    {id : NodeId}
    (hLinked : t.Linked)
    (hFree : t.parent? id = none) :
    Cut [id] t t where
  nodes := SameNodes.refl t
  parent x := by
    by_cases hSame : x = id
    · simp [hSame, hFree]
    · simp [hSame]
  children q := by
    refine (List.filter_eq_self.mpr ?_).symm
    intro c hChild
    have hParent := (hLinked.listed c q).mp hChild
    have hOther : c ≠ id := by
      rintro rfl
      rw [hFree] at hParent
      cases hParent
    simpa using hOther

/- Clearing both links of a node cuts it. -/
theorem Linked.cut_links
    {t t' : Tree}
    {id p : NodeId}
    (hLinked : t.Linked)
    (hParent : t.parent? id = some p)
    (hNodes : SameNodes t t')
    (hUp :
      ∀ x, t'.parent? x =
        if x = id then none else t.parent? x)
    (hDown :
      ∀ q, t'.childrenOf q =
        if q = p then (t.childrenOf p).filter (· != id)
        else t.childrenOf q) :
    Cut [id] t t' where
  nodes := hNodes
  parent x := by simp [hUp]
  children q := by
    rw [hDown]
    by_cases hSame : q = p
    · subst hSame
      rw [if_pos rfl]
      apply List.filter_congr
      intro c _
      simp [bne, Bool.beq_eq_decide_eq]
    · rw [if_neg hSame]
      refine (List.filter_eq_self.mpr ?_).symm
      intro c hChild
      have hOld := (hLinked.listed c q).mp hChild
      have hOther : c ≠ id := by
        rintro rfl
        rw [hParent] at hOld
        exact hSame (Option.some.inj hOld).symm
      simpa using hOther

theorem cut_of_detach
    {t t' : Tree}
    {id : NodeId}
    (hLinked : t.Linked)
    (hRun : t.detach id = .ok t') :
    Cut [id] t t' := by
  have hNodes := sameNodes_of_detach hRun
  rcases detach_cases hRun with
    ⟨n, hNode, ⟨hFree, rfl⟩ | ⟨p, hParent, hThere, rfl⟩⟩
  · exact
      hLinked.cut_refl ((parent?_of_get? hNode).trans hFree)
  · have hLive := contains_of_get? hNode
    have hOwner :
        (t.setParent id none).contains p = true := by
      rw [(SameNodes.setParent t id none).contains]
      exact hThere
    apply
      hLinked.cut_links
        ((parent?_of_get? hNode).trans hParent) hNodes
    · intro x
      simp [parent?_setParent, hLive]
    · intro q
      simp [childrenOf_dropChild hOwner]

/- Every node can be cut off. -/
theorem exists_detach
    {t : Tree}
    {id : NodeId}
    (hLinked : t.Linked)
    (hLive : t.contains id = true) :
    ∃ t', t.detach id = .ok t' := by
  rcases contains_iff.mp hLive with ⟨n, hNode⟩
  rw [detach, node_eq_ok_iff.mpr hNode]
  cases hParent : n.parent with
  | none => exact ⟨t, by simp [hParent]⟩
  | some p =>
      have hThere :=
        hLinked.contains_parent
          ((parent?_of_get? hNode).trans hParent)
      rcases contains_iff.mp hThere with ⟨parent, hOwner⟩
      exact
        ⟨(t.setParent id none).dropChild p id, by
          simp [hParent, node_eq_ok_iff.mpr hOwner]⟩

/- Taking a node out of its place cuts it, too. -/
theorem cut_of_unlink
    {t : Tree}
    (hLinked : t.Linked)
    (id : NodeId) :
    Cut [id] t (t.unlink id) := by
  rcases unlink_cases t id with
    ⟨hFree, hSame⟩ | ⟨p, hUp, hDone⟩
  · rw [hSame]
    exact hLinked.cut_refl hFree
  · have hNodes := sameNodes_of_unlink t id
    rw [hDone] at hNodes ⊢
    have hThere := hLinked.contains_parent hUp
    have hStill : (t.dropChild p id).contains id = true := by
      rw [(sameNodes_dropChild t p id).contains]
      exact contains_of_parent? hUp
    apply hLinked.cut_links hUp hNodes
    · intro x
      simp [parent?_setParent, hStill]
    · intro q
      simp [childrenOf_dropChild hThere]

/- What loses its parent in turn is cut altogether. -/
theorem orphans_links
    {t t' : Tree}
    {ids : List NodeId}
    (hRun : ids.foldlM orphanOne t = .ok t') :
    (∀ x, t'.parent? x =
        if x ∈ ids then none else t.parent? x) ∧
      ∀ q, t'.childrenOf q = t.childrenOf q := by
  induction ids generalizing t with
  | nil =>
      simp only [List.foldlM_nil, pure_eq_ok_iff] at hRun
      subst hRun
      simp
  | cons id ids ih =>
      rw [List.foldlM_cons, bind_eq_ok_iff] at hRun
      rcases hRun with ⟨u, hFirst, hRest⟩
      rcases orphanOne_cases hFirst with ⟨hLive, rfl⟩
      rcases ih hRest with ⟨hUp, hDown⟩
      constructor
      · intro x
        rw [hUp, parent?_setParent]
        by_cases hSame : x = id
        · subst hSame
          simp [hLive]
        · simp [hSame]
      · intro q
        rw [hDown, childrenOf_setParent]

/- No node is a child of two others. -/
theorem Linked.filter_children_of_ne
    {t : Tree}
    {p q : NodeId}
    (hLinked : t.Linked)
    (hOther : q ≠ p) :
    (t.childrenOf q).filter (· ∉ t.childrenOf p) =
      t.childrenOf q := by
  apply List.filter_eq_self.mpr
  intro c hChild
  rw [decide_eq_true_iff]
  intro hBoth
  rw [hLinked.listed] at hChild hBoth
  rw [hChild] at hBoth
  exact hOther (Option.some.inj hBoth)

/- The children of a node are cut from it together. -/
theorem cut_of_orphans
    {t u : Tree}
    {source : NodeId}
    (hLinked : t.Linked)
    (hSource : t.contains source = true)
    (hRun :
      (t.childrenOf source).foldlM orphanOne
        (t.setChildren source []) = .ok u) :
    Cut (t.childrenOf source) t u := by
  rcases orphans_links hRun with ⟨hUp, hDown⟩
  constructor
  · exact
      (SameNodes.setChildren t source []).trans
        (sameNodes_of_orphans hRun)
  · intro x
    rw [hUp, parent?_setChildren]
  · intro q
    rw [hDown, childrenOf_setChildren]
    by_cases hSame : q = source
    · subst hSame
      simp [hSource]
    · simp only [hSame, false_and, if_false]
      exact (hLinked.filter_children_of_ne hSame).symm

------------------------------------------------------------
-- Moving
------------------------------------------------------------

/-
  A node was cut from its place and attached to an owner,
  somewhere among its children.
-/
def Moved
    (child owner : NodeId)
    (t t' : Tree) : Prop :=
  ∃ u list,
    t.contains child = true ∧ Cut [child] t u ∧
      list.Perm (child :: u.childrenOf owner) ∧
        Attached child owner list u t'

/- Setting both links attaches a node. -/
theorem attached_links
    {u : Tree}
    {child owner : NodeId}
    (list : List NodeId)
    (hChild : u.contains child = true)
    (hOwner : u.contains owner = true) :
    Attached child owner list u
      ((u.setChildren owner list).setParent child
        (some owner)) where
  nodes :=
    (SameNodes.setChildren u owner list).trans
      (SameNodes.setParent _ child _)
  parent x := by
    have hStill :
        (u.setChildren owner list).contains child = true := by
      rw [(SameNodes.setChildren u owner list).contains]
      exact hChild
    simp [parent?_setParent, hStill]
  children q := by
    simp [childrenOf_setChildren, hOwner]

theorem moved_of_detach
    {t u : Tree}
    {child owner : NodeId}
    (hLinked : t.Linked)
    (hDetach : t.detach child = .ok u)
    (hOwner : u.contains owner = true)
    {list : List NodeId}
    (hList : list.Perm (child :: u.childrenOf owner)) :
    Moved child owner t
      ((u.setChildren owner list).setParent child
        (some owner)) := by
  have hCut := cut_of_detach hLinked hDetach
  rcases detach_cases hDetach with ⟨n, hNode, _⟩
  have hLive := contains_of_get? hNode
  refine ⟨u, list, hLive, hCut, hList, ?_⟩
  apply attached_links list _ hOwner
  rw [hCut.nodes.contains]
  exact hLive

theorem moved_of_appendOne
    {t t' : Tree}
    {owner child : NodeId}
    (hLinked : t.Linked)
    (hRun : appendOne owner t child = .ok t') :
    Moved child owner t t' := by
  rcases appendOne_cases hRun with ⟨u, hDetach, hOwner, rfl⟩
  exact
    moved_of_detach hLinked hDetach hOwner
      (List.perm_append_singleton child _)

theorem perm_insertBeforeAnchor
    (anchor new : NodeId)
    (list : List NodeId) :
    (insertBeforeAnchor anchor new list).Perm
      (new :: list) := by
  induction list with
  | nil => exact List.Perm.refl _
  | cons c rest ih =>
      unfold insertBeforeAnchor
      by_cases hSame : c = anchor
      · simp [hSame]
      · rw [if_neg hSame]
        exact (ih.cons c).trans (List.Perm.swap new c rest)

/- What is left out of a list may stand anywhere in it. -/
theorem filter_insertBeforeAnchor
    {keep : NodeId → Bool}
    {new : NodeId}
    (hOut : keep new = false)
    (anchor : NodeId)
    (list : List NodeId) :
    (insertBeforeAnchor anchor new list).filter keep =
      list.filter keep := by
  induction list with
  | nil => simp [insertBeforeAnchor, hOut]
  | cons c rest ih =>
      rw [insertBeforeAnchor]
      by_cases hSame : c = anchor
      · rw [if_pos hSame, List.filter_cons_of_neg (by simp [hOut])]
      · rw [if_neg hSame, List.filter_cons, List.filter_cons, ih]

theorem moved_of_insertOneBefore
    {t t' : Tree}
    {owner anchor child : NodeId}
    (hLinked : t.Linked)
    (hRun : insertOneBefore owner anchor t child = .ok t') :
    Moved child owner t t' := by
  rcases insertOneBefore_cases hRun with
    ⟨u, hDetach, hOwner, rfl⟩
  exact
    moved_of_detach hLinked hDetach hOwner
      (perm_insertBeforeAnchor anchor child _)

namespace Moved

variable {t t' : Tree}
variable {child owner : NodeId}

theorem sameNodes
    (hMoved : Moved child owner t t') :
    SameNodes t t' := by
  rcases hMoved with ⟨u, _, _, hCut, _, hAttached⟩
  exact hCut.nodes.trans hAttached.nodes

theorem parent_elsewhere
    (hMoved : Moved child owner t t')
    (x : NodeId)
    (hOther : x ≠ child) :
    t'.parent? x = t.parent? x := by
  rcases hMoved with ⟨u, _, _, hCut, _, hAttached⟩
  rw [hAttached.parent, if_neg hOther, hCut.parent]
  simp [hOther]

theorem linked
    (hMoved : Moved child owner t t')
    (hLinked : t.Linked)
    (hApart : ¬ t.Within owner child) :
    t'.Linked := by
  rcases hMoved with ⟨u, list, _, hCut, hList, hAttached⟩
  apply (hLinked.cut hCut).attached hAttached _ hList
  · intro hWithin
    exact hApart (within_mono hCut.parent_of hWithin)
  · rw [hCut.parent]
    simp

end Moved

/- A node can be put below an owner: that is not within it. -/
def MayHold
    (t : Tree)
    (owner child : NodeId) : Prop :=
  t.contains child = true → ¬ t.Within owner child

/-
  Moving nodes to one owner, one after the other, keeps the
  links in agreement if the owner is within none of them.
  The way up from the owner stays the same all along.
-/
theorem Linked.moves
    {owner : NodeId}
    {f : Tree → NodeId → Except Fault Tree}
    (hMoves :
      ∀ t child t', t.Linked → f t child = .ok t' →
        Moved child owner t t')
    {items : List NodeId}
    {t t' : Tree}
    (hLinked : t.Linked)
    (hApart : ∀ c ∈ items, t.MayHold owner c)
    (hRun : items.foldlM f t = .ok t') :
    t'.Linked := by
  induction items generalizing t with
  | nil =>
      simp only [List.foldlM_nil, pure_eq_ok_iff] at hRun
      exact hRun ▸ hLinked
  | cons child items ih =>
      rw [List.foldlM_cons, bind_eq_ok_iff] at hRun
      rcases hRun with ⟨u, hFirst, hRest⟩
      have hMoved := hMoves t child u hLinked hFirst
      have hLive : t.contains child = true := by
        rcases hMoved with ⟨_, _, hLive, _⟩
        exact hLive
      have hChild := hApart child (by simp) hLive
      apply ih (hMoved.linked hLinked hChild) _ hRest
      intro c hMember hThere hWithin
      apply hApart c (by simp [hMember])
      · rw [← hMoved.sameNodes.contains]
        exact hThere
      · exact
          within_of_same_elsewhere hMoved.parent_elsewhere
            hChild hWithin

theorem Linked.append
    {t t' : Tree}
    {owner : NodeId}
    {children : List NodeId}
    (hLinked : t.Linked)
    (hApart : ∀ c ∈ children, t.MayHold owner c)
    (hRun : t.append owner children = .ok t') :
    t'.Linked :=
  hLinked.moves
    (fun _ _ _ hOld hStep => moved_of_appendOne hOld hStep)
    hApart hRun

theorem Linked.insertBefore
    {t t' : Tree}
    {anchor : NodeId}
    {nodes : List NodeId}
    (hLinked : t.Linked)
    (hApart :
      ∀ p, t.parent? anchor = some p →
        ∀ c ∈ nodes, t.MayHold p c)
    (hRun : t.insertBefore anchor nodes = .ok t') :
    t'.Linked := by
  rcases insertBefore_cases hRun with
    ⟨_, rfl⟩ | ⟨p, hParent, hMoves⟩
  · exact hLinked
  · exact
      hLinked.moves
        (fun _ _ _ hOld hStep =>
          moved_of_insertOneBefore hOld hStep)
        (hApart p hParent) hMoves

theorem Linked.unlink
    {t : Tree}
    (hLinked : t.Linked)
    (id : NodeId) :
    (t.unlink id).Linked :=
  hLinked.cut (cut_of_unlink hLinked id)

/-
  The target may be the source itself: its children are cut
  from it before they come back.
-/
theorem Linked.reparent
    {t t' : Tree}
    {source target : NodeId}
    (hLinked : t.Linked)
    (hApart :
      ∀ c ∈ t.childrenOf source, t.MayHold target c)
    (hRun : t.reparent source target = .ok t') :
    t'.Linked := by
  rcases reparent_cases hRun with
    ⟨u, hSource, hOrphans, hAppend⟩
  have hCut := cut_of_orphans hLinked hSource hOrphans
  apply (hLinked.cut hCut).append _ hAppend
  intro c hChild _ hWithin
  exact
    hApart c hChild (hLinked.contains_child hChild)
      (within_mono hCut.parent_of hWithin)

end Tree

end Dom

end MarkupMetrics
