import MarkupMetrics.Proofs.Dom.Store
import Mathlib.Logic.Relation

/-
  This file defines when the links of a tree agree: child
  lists and parent links tell the same, and no node stands
  below itself.

  Edits are made of two moves: links are cut, and a node
  without parent is attached.  Both keep the links in
  agreement, the second one if the node is not put below
  itself.

  Key definitions include:
    * `Tree.IsChild`
    * `Tree.Within`
    * `Tree.Linked`
    * `Tree.Cut`
    * `Tree.Attached`

  Key theorems include:
    * `Tree.Linked.acyclic`
    * `Tree.Linked.cut`
    * `Tree.Linked.attached`
-/

namespace MarkupMetrics

namespace Dom

namespace Tree

------------------------------------------------------------
-- Standing below
------------------------------------------------------------

/- The parent link of one node names the other. -/
def IsChild
    (t : Tree)
    (child parent : NodeId) : Prop :=
  t.parent? child = some parent

/- A node is another one, or stands somewhere below it. -/
def Within
    (t : Tree)
    (id top : NodeId) : Prop :=
  Relation.ReflTransGen t.IsChild id top

theorem within_self
    (t : Tree)
    (id : NodeId) :
    t.Within id id :=
  Relation.ReflTransGen.refl

theorem within_of_parent?
    {t : Tree}
    {id p top : NodeId}
    (hParent : t.parent? id = some p)
    (hWithin : t.Within p top) :
    t.Within id top :=
  Relation.ReflTransGen.head hParent hWithin

/- A node below another one has a parent that is within it. -/
theorem within_cases
    {t : Tree}
    {id top : NodeId}
    (hWithin : t.Within id top) :
    id = top ∨
      ∃ p, t.parent? id = some p ∧ t.Within p top := by
  rcases Relation.ReflTransGen.cases_head hWithin with
    hSame | ⟨p, hParent, hRest⟩
  · exact Or.inl hSame
  · exact Or.inr ⟨p, hParent, hRest⟩

/- Fewer parent links leave fewer nodes below each other. -/
theorem within_mono
    {t t' : Tree}
    (hFewer :
      ∀ c p, t'.parent? c = some p → t.parent? c = some p)
    {id top : NodeId}
    (hWithin : t'.Within id top) :
    t.Within id top :=
  Relation.ReflTransGen.mono hFewer _ _ hWithin

/-
  The way up from a node that is not within another does not
  depend on the parent link of that other node.
-/
theorem within_of_same_elsewhere
    {t t' : Tree}
    {c id top : NodeId}
    (hElsewhere : ∀ x, x ≠ c → t'.parent? x = t.parent? x)
    (hAvoids : ¬ t.Within id c)
    (hWithin : t'.Within id top) :
    t.Within id top := by
  induction hWithin using Relation.ReflTransGen.head_induction_on with
  | refl => exact t.within_self top
  | head hChild _ ih =>
      rename_i x y _
      have hOther : x ≠ c := by
        rintro rfl
        exact hAvoids (t.within_self x)
      have hParent : t.parent? x = some y :=
        (hElsewhere x hOther).symm.trans hChild
      have hAbove : ¬ t.Within y c := fun hAbove =>
        hAvoids (within_of_parent? hParent hAbove)
      exact within_of_parent? hParent (ih hAbove)

------------------------------------------------------------
-- Agreement
------------------------------------------------------------

/-
  Every node carries its own id, child lists and parent links
  tell the same, no child list repeats a node, and ranks fall
  along parent links, so that no node stands below itself.
-/
structure Linked
    (t : Tree) : Prop where
  ids : ∀ i n, t.get? i = some n → n.id = i
  listed : ∀ c p, c ∈ t.childrenOf p ↔ t.parent? c = some p
  nodup : ∀ p, (t.childrenOf p).Nodup
  ranked :
    ∃ rank : NodeId → Nat,
      ∀ c p, t.parent? c = some p → rank p < rank c
  free : t.FreeListed

namespace Linked

variable {t : Tree}

theorem contains_parent
    (hLinked : t.Linked)
    {c p : NodeId}
    (hParent : t.parent? c = some p) :
    t.contains p = true :=
  contains_of_mem_childrenOf ((hLinked.listed c p).mpr hParent)

theorem contains_child
    (hLinked : t.Linked)
    {c p : NodeId}
    (hChild : c ∈ t.childrenOf p) :
    t.contains c = true :=
  contains_of_parent? ((hLinked.listed c p).mp hChild)

/- A parent is not within its child. -/
theorem not_within_child
    (hLinked : t.Linked)
    {c p : NodeId}
    (hParent : t.parent? c = some p) :
    ¬ t.Within p c := by
  rcases hLinked.ranked with ⟨rank, hRank⟩
  have hFalls :
      ∀ {x y : NodeId}, t.Within x y → rank y ≤ rank x := by
    intro x y hWithin
    induction hWithin with
    | refl => exact Nat.le_refl _
    | tail _ hChild ih =>
        exact Nat.le_trans (Nat.le_of_lt (hRank _ _ hChild)) ih
  intro hWithin
  exact
    Nat.lt_irrefl _
      (Nat.lt_of_lt_of_le (hRank c p hParent)
        (hFalls hWithin))

/- No node stands below itself. -/
theorem acyclic
    (hLinked : t.Linked)
    (i : NodeId) :
    ¬ Relation.TransGen t.IsChild i i := by
  intro hCycle
  rcases Relation.TransGen.head'_iff.mp hCycle with
    ⟨p, hChild, hAbove⟩
  exact hLinked.not_within_child hChild hAbove

/- What a node stands below is a node. -/
theorem contains_of_within
    (hLinked : t.Linked)
    {x top : NodeId}
    (hLive : t.contains x = true)
    (hWithin : t.Within x top) :
    t.contains top = true := by
  induction hWithin with
  | refl => exact hLive
  | tail _ hParent _ => exact hLinked.contains_parent hParent

/- Two nodes do not stand below each other. -/
theorem eq_of_within
    (hLinked : t.Linked)
    {x y : NodeId}
    (hDown : t.Within x y)
    (hUp : t.Within y x) :
    x = y := by
  rcases within_cases hDown with hSame | ⟨p, hParent, hAbove⟩
  · exact hSame
  · exact
      (hLinked.not_within_child hParent
        (hAbove.trans hUp)).elim

/- Below a node without children there is no other node. -/
theorem eq_of_within_childless
    (hLinked : t.Linked)
    {x top : NodeId}
    (hNone : t.childrenOf top = [])
    (hWithin : t.Within x top) :
    x = top := by
  rcases hWithin.cases_tail with hSame | ⟨y, _, hChild⟩
  · exact hSame.symm
  · have hListed := (hLinked.listed y top).mpr hChild
    simp [hNone] at hListed

/- Edits of data alone keep the links in agreement. -/
theorem ofSameLinks
    (hLinked : t.Linked)
    {t' : Tree}
    (hSame : SameLinks t t') :
    t'.Linked where
  ids i n hNode := by
    have hIds := hSame.ids i
    rw [hNode] at hIds
    rcases Option.map_eq_some_iff.mp hIds.symm with
      ⟨m, hOld, hId⟩
    exact hId.symm.trans (hLinked.ids i m hOld)
  listed c p := by
    rw [hSame.children, hSame.parent]
    exact hLinked.listed c p
  nodup p := hSame.children p ▸ hLinked.nodup p
  ranked := by
    rcases hLinked.ranked with ⟨rank, hRank⟩
    refine ⟨rank, ?_⟩
    intro c p hParent
    exact hRank c p (hSame.parent c ▸ hParent)
  free := hSame.freeListed hLinked.free

end Linked

/- The same content carries the same ids. -/
theorem SameNodes.ids
    {t t' : Tree}
    (hSame : SameNodes t t')
    (hLinked : t.Linked)
    {i : NodeId}
    {n : Node}
    (hNode : t'.get? i = some n) :
    n.id = i := by
  have hContent := hSame.content i
  rw [contentOf?_of_get? hNode] at hContent
  rcases Option.map_eq_some_iff.mp hContent.symm with
    ⟨m, hOld, hPair⟩
  have hId : m.id = n.id := congrArg Prod.fst hPair
  exact hId.symm.trans (hLinked.ids i m hOld)

------------------------------------------------------------
-- Cutting
------------------------------------------------------------

/- Some nodes lose their parent, and all else stays. -/
structure Cut
    (cut : List NodeId)
    (t t' : Tree) : Prop where
  nodes : SameNodes t t'
  parent :
    ∀ x, t'.parent? x =
      if x ∈ cut then none else t.parent? x
  children :
    ∀ q, t'.childrenOf q =
      (t.childrenOf q).filter (· ∉ cut)

theorem Cut.parent_of
    {cut : List NodeId}
    {t t' : Tree}
    (hCut : Cut cut t t')
    (c p : NodeId)
    (hParent : t'.parent? c = some p) :
    t.parent? c = some p := by
  rw [hCut.parent] at hParent
  by_cases hMember : c ∈ cut
  · simp [hMember] at hParent
  · simpa [hMember] using hParent

/- What stands below a node does so when that node is cut off. -/
theorem Cut.within_iff
    {id : NodeId}
    {t t' : Tree}
    (hCut : Cut [id] t t')
    {x : NodeId} :
    t'.Within x id ↔ t.Within x id := by
  constructor
  · exact within_mono hCut.parent_of
  · intro hWithin
    induction hWithin using
      Relation.ReflTransGen.head_induction_on with
    | refl => exact t'.within_self id
    | head hChild _ ih =>
        rename_i c p _
        by_cases hSame : c = id
        · exact hSame ▸ t'.within_self id
        · have hParent : t'.parent? c = some p := by
            rw [hCut.parent, if_neg (by simpa using hSame)]
            exact hChild
          exact within_of_parent? hParent ih

theorem Linked.cut
    {cut : List NodeId}
    {t t' : Tree}
    (hLinked : t.Linked)
    (hCut : Cut cut t t') :
    t'.Linked where
  ids _ _ hNode := hCut.nodes.ids hLinked hNode
  listed c p := by
    rw [hCut.children, hCut.parent]
    by_cases hMember : c ∈ cut
    · simp [hMember]
    · simp [hMember, hLinked.listed]
  nodup p := by
    rw [hCut.children]
    exact (hLinked.nodup p).filter _
  ranked := by
    rcases hLinked.ranked with ⟨rank, hRank⟩
    refine ⟨rank, ?_⟩
    intro c p hParent
    exact hRank c p (hCut.parent_of c p hParent)
  free := hCut.nodes.freeListed hLinked.free

------------------------------------------------------------
-- Attaching
------------------------------------------------------------

/- A node gets a parent, whose child list is then `list`. -/
structure Attached
    (child owner : NodeId)
    (list : List NodeId)
    (t t' : Tree) : Prop where
  nodes : SameNodes t t'
  parent :
    ∀ x, t'.parent? x =
      if x = child then some owner else t.parent? x
  children :
    ∀ q, t'.childrenOf q =
      if q = owner then list else t.childrenOf q

theorem Linked.attached
    {child owner : NodeId}
    {list : List NodeId}
    {t t' : Tree}
    (hLinked : t.Linked)
    (hAttached : Attached child owner list t t')
    (hFree : t.parent? child = none)
    (hList : list.Perm (child :: t.childrenOf owner))
    (hApart : ¬ t.Within owner child) :
    t'.Linked where
  ids _ _ hNode := hAttached.nodes.ids hLinked hNode
  listed c p := by
    rw [hAttached.children, hAttached.parent]
    have hOld := hLinked.listed c p
    by_cases hOwner : p = owner
    · subst hOwner
      rw [if_pos rfl, hList.mem_iff, List.mem_cons, hOld]
      by_cases hChild : c = child
      · simp [hChild]
      · simp [hChild]
    · rw [if_neg hOwner, hOld]
      by_cases hChild : c = child
      · subst hChild
        have hOther : owner ≠ p :=
          fun h => hOwner h.symm
        simp [hFree, hOther]
      · simp [hChild]
  nodup p := by
    rw [hAttached.children]
    by_cases hOwner : p = owner
    · subst hOwner
      rw [if_pos rfl, hList.nodup_iff, List.nodup_cons]
      refine ⟨?_, hLinked.nodup p⟩
      rw [hLinked.listed, hFree]
      simp
    · rw [if_neg hOwner]
      exact hLinked.nodup p
  ranked := by
    -- What is within the child rises above its new parent.
    classical
    rcases hLinked.ranked with ⟨rank, hRank⟩
    refine
      ⟨fun x =>
        if t.Within x child then rank x + rank owner + 1
        else rank x, ?_⟩
    intro c p hNew
    rw [hAttached.parent] at hNew
    by_cases hChild : c = child
    · subst hChild
      have hSame : owner = p := by simpa using hNew
      subst hSame
      simp only [hApart, if_false, t.within_self c, if_true]
      omega
    · have hOld : t.parent? c = some p := by
        simpa [hChild] using hNew
      have hLess := hRank c p hOld
      have hBoth : t.Within c child ↔ t.Within p child := by
        constructor
        · intro hWithin
          rcases within_cases hWithin with
            hSame | ⟨q, hParent, hAbove⟩
          · exact (hChild hSame).elim
          · rw [hOld] at hParent
            exact Option.some.inj hParent ▸ hAbove
        · exact within_of_parent? hOld
      by_cases hWithin : t.Within p child
      · simp only [hBoth.mpr hWithin, hWithin, if_true]
        omega
      · have hBelow : ¬ t.Within c child := fun h =>
          hWithin (hBoth.mp h)
        simp only [hBelow, hWithin, if_false]
        exact hLess
  free := hAttached.nodes.freeListed hLinked.free

end Tree

end Dom

end MarkupMetrics
