import MarkupMetrics.Dom.Graft
import MarkupMetrics.Proofs.Dom.Moves

/-
  This file proves what adding nodes to a tree leaves alone.

  A new node stands apart from all that was there before, and
  so does the copy of a subtree.  Putting copies below a node
  that was there before therefore puts nothing below itself.

  Key definitions include:
    * `Tree.Keeps`
    * `Tree.Grown`

  Key theorems include:
    * `Tree.Linked.create`
    * `Tree.Grown.append`
    * `Tree.plant_grown`
    * `Tree.Linked.graft`
-/

namespace MarkupMetrics

namespace Dom

namespace Tree

open Outcome

------------------------------------------------------------
-- Keeping nodes
------------------------------------------------------------

/- Every node of one tree is a node of the other. -/
def Keeps
    (t t' : Tree) : Prop :=
  ∀ i, t.contains i = true → t'.contains i = true

theorem Keeps.refl
    (t : Tree) :
    t.Keeps t :=
  fun _ hLive => hLive

theorem Keeps.trans
    {t u v : Tree}
    (hFirst : t.Keeps u)
    (hSecond : u.Keeps v) :
    t.Keeps v :=
  fun i hLive => hSecond i (hFirst i hLive)

/- A node that is missing later was missing before. -/
theorem Keeps.missing
    {t t' : Tree}
    (hKeeps : t.Keeps t')
    {i : NodeId}
    (hMissing : t'.contains i = false) :
    t.contains i = false := by
  cases hLive : t.contains i with
  | false => rfl
  | true =>
      rw [hKeeps i hLive] at hMissing
      cases hMissing

theorem SameNodes.keeps
    {t t' : Tree}
    (hSame : SameNodes t t') :
    t.Keeps t' :=
  fun i hLive => (hSame.contains i).trans hLive

theorem SameLinks.keeps
    {t t' : Tree}
    (hSame : SameLinks t t') :
    t.Keeps t' :=
  fun i hLive => (hSame.contains i).trans hLive

theorem keeps_create
    (t : Tree)
    (data : NodeData) :
    t.Keeps (t.create data).1 :=
  fun _ hLive => contains_create data hLive

------------------------------------------------------------
-- Changing data
------------------------------------------------------------

theorem sameLinks_of_modifyAttrs
    {t t' : Tree}
    {id : NodeId}
    {f : List Attribute → List Attribute}
    (hRun : t.modifyAttrs id f = .ok t') :
    SameLinks t t' := by
  rw [modifyAttrs, bind_eq_ok_iff] at hRun
  rcases hRun with ⟨n, hNode, hRest⟩
  rw [node_eq_ok_iff] at hNode
  cases hData : n.data with
  | element e =>
      rw [hData] at hRest
      have hDone := pure_eq_ok_iff.mp hRest
      exact hDone ▸ SameLinks.put hNode _
  | document =>
      rw [hData] at hRest
      exact pure_eq_ok_iff.mp hRest ▸ SameLinks.refl t
  | text content =>
      rw [hData] at hRest
      exact pure_eq_ok_iff.mp hRest ▸ SameLinks.refl t
  | comment =>
      rw [hData] at hRest
      exact pure_eq_ok_iff.mp hRest ▸ SameLinks.refl t

theorem sameLinks_of_appendText?
    {t t' : Tree}
    {id : NodeId}
    {text : String}
    (hRun : t.appendText? id text = .ok (some t')) :
    SameLinks t t' := by
  rw [appendText?, bind_eq_ok_iff] at hRun
  rcases hRun with ⟨n, hNode, hRest⟩
  rw [node_eq_ok_iff] at hNode
  cases hData : n.data with
  | text content =>
      rw [hData] at hRest
      have hDone := Option.some.inj (pure_eq_ok_iff.mp hRest)
      exact hDone ▸ SameLinks.put hNode _
  | element e => simp [hData] at hRest
  | document => simp [hData] at hRest
  | comment => simp [hData] at hRest

------------------------------------------------------------
-- One new node
------------------------------------------------------------

/- A new node stands nowhere, as its id did before. -/
theorem parent?_create
    {t : Tree}
    (hFree : t.FreeListed)
    (data : NodeData)
    (i : NodeId) :
    (t.create data).1.parent? i = t.parent? i := by
  rcases get?_create hFree data with ⟨hVacant, hRead⟩
  unfold parent?
  rw [hRead]
  by_cases hSame : i = (t.create data).2
  · rw [if_pos hSame, hSame, hVacant]
    rfl
  · rw [if_neg hSame]

theorem childrenOf_create
    {t : Tree}
    (hFree : t.FreeListed)
    (data : NodeData)
    (i : NodeId) :
    (t.create data).1.childrenOf i = t.childrenOf i := by
  rcases get?_create hFree data with ⟨hVacant, hRead⟩
  unfold childrenOf
  rw [hRead]
  by_cases hSame : i = (t.create data).2
  · rw [if_pos hSame, hSame, hVacant]
  · rw [if_neg hSame]

theorem Linked.create
    {t : Tree}
    (hLinked : t.Linked)
    (data : NodeData) :
    (t.create data).1.Linked where
  ids i n hNode := by
    rw [(get?_create hLinked.free data).2] at hNode
    by_cases hSame : i = (t.create data).2
    · rw [if_pos hSame] at hNode
      exact Option.some.inj hNode ▸ hSame.symm
    · rw [if_neg hSame] at hNode
      exact hLinked.ids i n hNode
  listed c p := by
    rw [childrenOf_create hLinked.free,
      parent?_create hLinked.free]
    exact hLinked.listed c p
  nodup p := by
    rw [childrenOf_create hLinked.free]
    exact hLinked.nodup p
  ranked := by
    rcases hLinked.ranked with ⟨rank, hRank⟩
    refine ⟨rank, ?_⟩
    intro c p hParent
    rw [parent?_create hLinked.free] at hParent
    exact hRank c p hParent
  free := freeListed_create hLinked.free data

------------------------------------------------------------
-- Growth
------------------------------------------------------------

/-
  A tree has grown: its links agree, all nodes are still
  there and have their old parents, and the roots of what was
  added are new.
-/
structure Grown
    (roots : List NodeId)
    (t t' : Tree) : Prop where
  linked : t'.Linked
  kept : t.Keeps t'
  parent :
    ∀ i, t.contains i = true → t'.parent? i = t.parent? i
  fresh : ∀ r ∈ roots, t.contains r = false

theorem Linked.grown_create
    {t : Tree}
    (hLinked : t.Linked)
    (data : NodeData) :
    Grown [(t.create data).2] t (t.create data).1 where
  linked := hLinked.create data
  kept := keeps_create t data
  parent i _ := parent?_create hLinked.free data i
  fresh r hMember := by
    have hSame : r = (t.create data).2 := by
      simpa using hMember
    rw [hSame]
    exact (contains_created hLinked.free data).1

namespace Grown

variable {t u v : Tree}
variable {roots others : List NodeId}

theorem refl
    (hLinked : t.Linked) :
    Grown [] t t :=
  ⟨hLinked, Keeps.refl t, fun _ _ => rfl, by simp⟩

theorem trans
    (hFirst : Grown roots t u)
    (hSecond : Grown others u v) :
    Grown (roots ++ others) t v where
  linked := hSecond.linked
  kept := hFirst.kept.trans hSecond.kept
  parent i hLive :=
    (hSecond.parent i (hFirst.kept i hLive)).trans
      (hFirst.parent i hLive)
  fresh r hMember := by
    rcases List.mem_append.mp hMember with hOld | hNew
    · exact hFirst.fresh r hOld
    · cases hLive : t.contains r with
      | false => rfl
      | true =>
          have hMissing := hSecond.fresh r hNew
          rw [hFirst.kept r hLive] at hMissing
          cases hMissing

/- The way up from an old node stays among the old nodes. -/
theorem contains_within
    (hGrown : Grown roots t u)
    (hLinked : t.Linked)
    {id top : NodeId}
    (hLive : t.contains id = true)
    (hWithin : u.Within id top) :
    t.contains top = true := by
  induction hWithin with
  | refl => exact hLive
  | tail _ hChild ih =>
      have hOld := (hGrown.parent _ ih).symm.trans hChild
      exact hLinked.contains_parent hOld

end Grown

theorem parent?_appendOne_elsewhere
    {t t' : Tree}
    {owner child x : NodeId}
    (hRun : appendOne owner t child = .ok t')
    (hOther : x ≠ child) :
    t'.parent? x = t.parent? x := by
  rcases appendOne_cases hRun with ⟨u, hDetach, _, rfl⟩
  have hDetached : u.parent? x = t.parent? x := by
    rcases detach_cases hDetach with
      ⟨n, _, ⟨_, rfl⟩ | ⟨p, _, _, rfl⟩⟩
    · rfl
    · simp [parent?_setParent, hOther]
  simp [parent?_setParent, hOther, hDetached]

/- Only the nodes that are moved get another parent. -/
theorem parent?_append_elsewhere
    {t t' : Tree}
    {owner x : NodeId}
    {children : List NodeId}
    (hRun : t.append owner children = .ok t')
    (hOther : x ∉ children) :
    t'.parent? x = t.parent? x := by
  unfold append at hRun
  induction children generalizing t with
  | nil =>
      simp only [List.foldlM_nil, pure_eq_ok_iff] at hRun
      rw [hRun]
  | cons child children ih =>
      rw [List.foldlM_cons, bind_eq_ok_iff] at hRun
      rcases hRun with ⟨u, hFirst, hRest⟩
      have hHead : x ≠ child := List.ne_of_not_mem_cons hOther
      have hTail : x ∉ children :=
        List.not_mem_of_not_mem_cons hOther
      exact
        (ih hRest hTail).trans
          (parent?_appendOne_elsewhere hFirst hHead)

/- New roots can be put below any old node. -/
theorem Grown.append
    {t u v : Tree}
    {roots : List NodeId}
    {owner : NodeId}
    (hGrown : Grown roots t u)
    (hLinked : t.Linked)
    (hOwner : t.contains owner = true)
    (hRun : u.append owner roots = .ok v) :
    Grown roots t v where
  linked := by
    apply hGrown.linked.append _ hRun
    intro c hMember _ hWithin
    have hOld := hGrown.contains_within hLinked hOwner hWithin
    rw [hGrown.fresh c hMember] at hOld
    cases hOld
  kept := hGrown.kept.trans (sameNodes_of_append hRun).keeps
  parent i hLive := by
    have hOther : i ∉ roots := by
      intro hMember
      rw [hGrown.fresh i hMember] at hLive
      cases hLive
    exact
      (parent?_append_elsewhere hRun hOther).trans
        (hGrown.parent i hLive)
  fresh := hGrown.fresh

------------------------------------------------------------
-- Copies
------------------------------------------------------------

mutual

theorem plant_grown
    {t t' : Tree}
    {id : NodeId}
    (hLinked : t.Linked) :
    (s : Shape) → t.plant s = .ok (t', id) → Grown [id] t t'
  | .node data children, hRun => by
      rw [plant, bind_eq_ok_iff] at hRun
      rcases hRun with ⟨⟨u, ids⟩, hChildren, hRest⟩
      rcases bind_eq_ok_iff.mp hRest with ⟨v, hAppend, hDone⟩
      rw [pure_eq_ok_iff, Prod.mk.injEq] at hDone
      rcases hDone with ⟨rfl, rfl⟩
      have hCreate := hLinked.grown_create data
      have hBelow := plantAll_grown hCreate.linked children hChildren
      have hOwner := (contains_created hLinked.free data).2
      have hAll :=
        hCreate.trans
          (hBelow.append hCreate.linked hOwner hAppend)
      exact
        { hAll with
          fresh := fun r hMember =>
            hAll.fresh r (List.mem_append_left ids hMember) }

theorem plantAll_grown
    {t t' : Tree}
    {ids : List NodeId}
    (hLinked : t.Linked) :
    (shapes : List Shape) →
      t.plantAll shapes = .ok (t', ids) → Grown ids t t'
  | [], hRun => by
      rw [plantAll, pure_eq_ok_iff, Prod.mk.injEq] at hRun
      rcases hRun with ⟨rfl, rfl⟩
      exact Grown.refl hLinked
  | s :: rest, hRun => by
      rw [plantAll, bind_eq_ok_iff] at hRun
      rcases hRun with ⟨⟨u, id⟩, hFirst, hRest⟩
      rcases bind_eq_ok_iff.mp hRest with
        ⟨⟨v, others⟩, hOthers, hDone⟩
      rw [pure_eq_ok_iff, Prod.mk.injEq] at hDone
      rcases hDone with ⟨rfl, rfl⟩
      have hCopy := plant_grown hLinked s hFirst
      exact
        hCopy.trans (plantAll_grown hCopy.linked rest hOthers)

end

/- Copies can be put below any node. -/
theorem Linked.graft
    {t t' : Tree}
    {owner : NodeId}
    {shapes : List Shape}
    {ids : List NodeId}
    (hLinked : t.Linked)
    (hOwner : t.contains owner = true)
    (hRun : t.graft owner shapes = .ok (t', ids)) :
    t'.Linked := by
  rw [Tree.graft, bind_eq_ok_iff] at hRun
  rcases hRun with ⟨⟨u, roots⟩, hCopies, hRest⟩
  rcases bind_eq_ok_iff.mp hRest with ⟨v, hAppend, hDone⟩
  rw [pure_eq_ok_iff, Prod.mk.injEq] at hDone
  rcases hDone with ⟨rfl, rfl⟩
  have hGrown := plantAll_grown hLinked shapes hCopies
  exact (hGrown.append hLinked hOwner hAppend).linked

end Tree

end Dom

end MarkupMetrics
