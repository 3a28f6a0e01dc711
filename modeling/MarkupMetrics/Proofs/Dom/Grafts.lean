import MarkupMetrics.Dom.Kin
import MarkupMetrics.Proofs.Dom.Climb
import MarkupMetrics.Proofs.Html.Calls

/-
  This file proves where the nodes stand that come with copies
  of subtrees.

  A node that was there before keeps its content and its
  parent.  A new node stands below another new one, or is one
  of the roots of the copies.  So once the roots stand below
  their owner, what is new in the tree is what is new below
  the owner.

  Key definitions include:
    * `Tree.Sprouted`
    * `Tree.Grafted`

  Key theorems include:
    * `Tree.plantAll_sprouted`
    * `Tree.grafted_of_appendPage`
    * `Tree.Grafted.within_iff`
    * `Tree.Grafted.within_owner`
-/

namespace MarkupMetrics

namespace Dom

namespace Tree

open Outcome

------------------------------------------------------------
-- New nodes
------------------------------------------------------------

/-
  A tree has grown by nodes below some new roots.  What was
  there has its old content.
-/
structure Sprouted
    (roots : List NodeId)
    (t t' : Tree) : Prop extends Grown roots t t' where
  content :
    ∀ i, t.contains i = true →
      t'.contentOf? i = t.contentOf? i
  placed :
    ∀ i, t.contains i = false → t'.contains i = true →
      i ∈ roots ∨
        ∃ p, t'.parent? i = some p ∧ t.contains p = false

/-
  A tree has grown by nodes below an old node.  What was there
  has its old content.
-/
structure Grafted
    (owner : NodeId)
    (t t' : Tree) : Prop where
  linked : t'.Linked
  kept : t.Keeps t'
  parent :
    ∀ i, t.contains i = true → t'.parent? i = t.parent? i
  content :
    ∀ i, t.contains i = true →
      t'.contentOf? i = t.contentOf? i
  placed :
    ∀ i, t.contains i = false → t'.contains i = true →
      ∃ p, t'.parent? i = some p ∧
        (p = owner ∨ t.contains p = false)

theorem Linked.sprouted_create
    {t : Tree}
    (hLinked : t.Linked)
    (data : NodeData) :
    Sprouted [(t.create data).2] t (t.create data).1 where
  toGrown := hLinked.grown_create data
  content i hLive := by
    have hOther :=
      ne_of_missing hLive (contains_created hLinked.free data).1
    simp [contentOf?, (get?_create hLinked.free data).2, hOther]
  placed i hMissing hLive := by
    rw [contains, (get?_create hLinked.free data).2] at hLive
    by_cases hSame : i = (t.create data).2
    · exact Or.inl (by simp [hSame])
    · rw [if_neg hSame, ← contains, hMissing] at hLive
      cases hLive

namespace Sprouted

variable {t u v : Tree}
variable {roots others : List NodeId}

theorem refl
    (hLinked : t.Linked) :
    Sprouted [] t t where
  toGrown := Grown.refl hLinked
  content _ _ := rfl
  placed i hMissing hLive := by
    rw [hMissing] at hLive
    cases hLive

theorem trans
    (hFirst : Sprouted roots t u)
    (hSecond : Sprouted others u v) :
    Sprouted (roots ++ others) t v where
  toGrown := hFirst.toGrown.trans hSecond.toGrown
  content i hLive :=
    (hSecond.content i (hFirst.kept i hLive)).trans
      (hFirst.content i hLive)
  placed i hMissing hLive := by
    cases hMiddle : u.contains i with
    | true =>
        rw [hSecond.parent i hMiddle]
        exact
          (hFirst.placed i hMissing hMiddle).imp_left
            (List.mem_append_left others)
    | false =>
        rcases hSecond.placed i hMiddle hLive with
          hRoot | ⟨p, hParent, hNew⟩
        · exact Or.inl (List.mem_append_right roots hRoot)
        · exact Or.inr ⟨p, hParent, hFirst.kept.missing hNew⟩

end Sprouted

------------------------------------------------------------
-- Putting the roots in their place
------------------------------------------------------------

theorem parent?_appendOne_self
    {t t' : Tree}
    {owner child : NodeId}
    (hRun : appendOne owner t child = .ok t') :
    t'.parent? child = some owner := by
  rcases appendOne_cases hRun with ⟨u, hDetach, _, rfl⟩
  rcases detach_cases hDetach with ⟨n, hNode, _⟩
  have hChild : u.contains child = true := by
    rw [(sameNodes_of_detach hDetach).contains]
    exact contains_of_get? hNode
  have hStill :
      (u.setChildren owner
        (u.childrenOf owner ++ [child])).contains child =
          true := by
    rw [(SameNodes.setChildren u owner _).contains]
    exact hChild
  simp [parent?_setParent, hStill]

/- The nodes that are moved get the owner as their parent. -/
theorem parent?_append
    {t t' : Tree}
    {owner x : NodeId}
    {children : List NodeId}
    (hRun : t.append owner children = .ok t')
    (hMember : x ∈ children) :
    t'.parent? x = some owner := by
  unfold append at hRun
  induction children generalizing t with
  | nil => cases hMember
  | cons child children ih =>
      rw [List.foldlM_cons, bind_eq_ok_iff] at hRun
      rcases hRun with ⟨u, hFirst, hRest⟩
      by_cases hLater : x ∈ children
      · exact ih hRest hLater
      · rcases List.mem_cons.mp hMember with rfl | hTail
        · exact
            (parent?_append_elsewhere hRest hLater).trans
              (parent?_appendOne_self hFirst)
        · exact (hLater hTail).elim

/- New roots are put below an old node. -/
theorem Sprouted.append
    {t u v : Tree}
    {roots : List NodeId}
    {owner : NodeId}
    (hSprouted : Sprouted roots t u)
    (hLinked : t.Linked)
    (hOwner : t.contains owner = true)
    (hRun : u.append owner roots = .ok v) :
    Grafted owner t v := by
  have hGrown := hSprouted.toGrown.append hLinked hOwner hRun
  have hSame := sameNodes_of_append hRun
  refine
    ⟨hGrown.linked, hGrown.kept, hGrown.parent, ?_, ?_⟩
  · intro i hLive
    rw [hSame.content, hSprouted.content i hLive]
  · intro i hMissing hLive
    rw [hSame.contains] at hLive
    by_cases hRoot : i ∈ roots
    · exact ⟨owner, parent?_append hRun hRoot, Or.inl rfl⟩
    · rcases hSprouted.placed i hMissing hLive with
        hThere | ⟨p, hParent, hNew⟩
      · exact (hRoot hThere).elim
      · exact
          ⟨p, (parent?_append_elsewhere hRun hRoot).trans
            hParent, Or.inr hNew⟩

/- A new node with nodes below it has sprouted as a whole. -/
theorem Sprouted.top
    {t u v : Tree}
    {root : NodeId}
    (hRoot : Sprouted [root] t u)
    (hBelow : Grafted root u v) :
    Sprouted [root] t v where
  linked := hBelow.linked
  kept := hRoot.kept.trans hBelow.kept
  parent i hLive :=
    (hBelow.parent i (hRoot.kept i hLive)).trans
      (hRoot.parent i hLive)
  fresh := hRoot.fresh
  content i hLive :=
    (hBelow.content i (hRoot.kept i hLive)).trans
      (hRoot.content i hLive)
  placed i hMissing hLive := by
    cases hMiddle : u.contains i with
    | true =>
        rw [hBelow.parent i hMiddle]
        exact hRoot.placed i hMissing hMiddle
    | false =>
        rcases hBelow.placed i hMiddle hLive with
          ⟨p, hParent, rfl | hNew⟩
        · exact
            Or.inr
              ⟨p, hParent,
                hRoot.fresh p (List.mem_singleton_self p)⟩
        · exact Or.inr ⟨p, hParent, hRoot.kept.missing hNew⟩

------------------------------------------------------------
-- Copies
------------------------------------------------------------

mutual

theorem plant_sprouted
    {t t' : Tree}
    {id : NodeId}
    (hLinked : t.Linked) :
    (s : Shape) → t.plant s = .ok (t', id) → Sprouted [id] t t'
  | .node data children, hRun => by
      rw [plant, bind_eq_ok_iff] at hRun
      rcases hRun with ⟨⟨u, ids⟩, hChildren, hRest⟩
      rcases bind_eq_ok_iff.mp hRest with ⟨v, hAppend, hDone⟩
      rw [pure_eq_ok_iff, Prod.mk.injEq] at hDone
      rcases hDone with ⟨rfl, rfl⟩
      have hRoot := hLinked.sprouted_create data
      have hOwner := (contains_created hLinked.free data).2
      have hBelow :=
        plantAll_sprouted hRoot.linked children hChildren
      exact
        hRoot.top (hBelow.append hRoot.linked hOwner hAppend)

theorem plantAll_sprouted
    {t t' : Tree}
    {ids : List NodeId}
    (hLinked : t.Linked) :
    (shapes : List Shape) →
      t.plantAll shapes = .ok (t', ids) → Sprouted ids t t'
  | [], hRun => by
      rw [plantAll, pure_eq_ok_iff, Prod.mk.injEq] at hRun
      rcases hRun with ⟨rfl, rfl⟩
      exact Sprouted.refl hLinked
  | s :: rest, hRun => by
      rw [plantAll, bind_eq_ok_iff] at hRun
      rcases hRun with ⟨⟨u, id⟩, hFirst, hRest⟩
      rcases bind_eq_ok_iff.mp hRest with
        ⟨⟨v, others⟩, hOthers, hDone⟩
      rw [pure_eq_ok_iff, Prod.mk.injEq] at hDone
      rcases hDone with ⟨rfl, rfl⟩
      have hCopy := plant_sprouted hLinked s hFirst
      exact
        hCopy.trans
          (plantAll_sprouted hCopy.linked rest hOthers)

end

/- What the body of a page holds is grafted, if anything. -/
theorem grafted_of_appendPage
    {t t' : Tree}
    {owner : NodeId}
    {html : String}
    {ids : List NodeId}
    (hLinked : t.Linked)
    (hOwner : t.contains owner = true)
    (hRun : t.appendPage owner html = .ok (t', ids)) :
    Grafted owner t t' := by
  rcases appendPage_cases hRun with rfl | ⟨shapes, hGraft⟩
  · refine
      ⟨hLinked, Keeps.refl t', fun _ _ => rfl, fun _ _ => rfl,
        ?_⟩
    intro i hMissing hLive
    rw [hMissing] at hLive
    cases hLive
  · rw [graft, bind_eq_ok_iff] at hGraft
    rcases hGraft with ⟨⟨u, roots⟩, hCopies, hRest⟩
    rcases bind_eq_ok_iff.mp hRest with ⟨v, hAppend, hDone⟩
    rw [pure_eq_ok_iff, Prod.mk.injEq] at hDone
    rcases hDone with ⟨rfl, rfl⟩
    have hSprouted := plantAll_sprouted hLinked shapes hCopies
    exact hSprouted.append hLinked hOwner hAppend

------------------------------------------------------------
-- Standing in the new tree
------------------------------------------------------------

namespace Grafted

variable {t t' : Tree}
variable {owner : NodeId}

/- What an old node stands below has not changed. -/
theorem within_iff
    (hGrafted : Grafted owner t t')
    (hLinked : t.Linked)
    {x top : NodeId}
    (hOld : t.contains x = true) :
    t'.Within x top ↔ t.Within x top := by
  constructor
  · intro hWithin
    induction hWithin using
      Relation.ReflTransGen.head_induction_on with
    | refl => exact t.within_self top
    | head hChild _ ih =>
        have hParent := (hGrafted.parent _ hOld).symm.trans hChild
        exact
          within_of_parent? hParent
            (ih (hLinked.contains_parent hParent))
  · intro hWithin
    refine within_mono ?_ hWithin
    intro i p hParent
    rw [hGrafted.parent i (contains_of_parent? hParent)]
    exact hParent

/- A new node is within a new child of the owner. -/
theorem exists_root
    (hGrafted : Grafted owner t t')
    {x : NodeId}
    (hNew : t.contains x = false)
    (hLive : t'.contains x = true) :
    ∃ root,
      t'.parent? root = some owner ∧
        t.contains root = false ∧ t'.Within x root := by
  rcases hGrafted.linked.ranked with ⟨rank, hRank⟩
  induction hPlace : rank x using Nat.strongRecOn
    generalizing x with
  | ind n ih =>
      rcases hGrafted.placed x hNew hLive with
        ⟨p, hParent, rfl | hAbove⟩
      · exact ⟨x, hParent, hNew, t'.within_self x⟩
      · have hFalls := hRank x p hParent
        rcases
          ih (rank p) (hPlace ▸ hFalls) hAbove
            (hGrafted.linked.contains_parent hParent) rfl with
          ⟨root, hRoot, hFresh, hWithin⟩
        exact
          ⟨root, hRoot, hFresh,
            within_of_parent? hParent hWithin⟩

/- So it stands below the owner. -/
theorem within_owner
    (hGrafted : Grafted owner t t')
    {x : NodeId}
    (hNew : t.contains x = false)
    (hLive : t'.contains x = true) :
    t'.Within x owner := by
  rcases hGrafted.exists_root hNew hLive with
    ⟨root, hRoot, _, hWithin⟩
  exact
    hWithin.trans
      (within_of_parent? hRoot (t'.within_self owner))

/- A node that was there is the element that it was. -/
theorem elementAt?_eq
    (hGrafted : Grafted owner t t')
    {x : NodeId}
    (hOld : t.contains x = true) :
    t'.elementAt? x = t.elementAt? x := by
  have hRead :
      ∀ u : Tree,
        u.elementAt? x =
          (u.contentOf? x).bind fun content =>
            (⟨content.1, none, [], content.2⟩ :
              Node).element? := by
    intro u
    unfold elementAt? contentOf?
    cases u.get? x with
    | none => rfl
    | some n => rfl
  rw [hRead, hRead, hGrafted.content x hOld]

end Grafted

end Tree

end Dom

end MarkupMetrics
