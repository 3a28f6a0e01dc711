import MarkupMetrics.Proofs.Dom.Growth
import MarkupMetrics.Proofs.Dom.Splices

/-
  This file proves when nodes stay nested while nodes are put
  into other places.

  Nodes are nested in a list, the inner ones first, if none of
  them is within one that stands before it.  They need not be
  within those behind them.

  Key definitions include:
    * `Tree.Nested`
    * `Tree.Puts`

  Key theorems include:
    * `Tree.Grown.nested_insert`
    * `Tree.Nested.put`
    * `Tree.Nested.handOver`
-/

namespace MarkupMetrics

namespace Dom

namespace Tree

------------------------------------------------------------
-- Nesting
------------------------------------------------------------

/- No node of a list is within one that stands before it. -/
def Nested
    (t : Tree)
    (nodes : List NodeId) : Prop :=
  nodes.Pairwise fun inner outer => ¬ t.Within outer inner

variable {t t' : Tree}
variable {nodes front back : List NodeId}

/- Nodes that are left out do not matter. -/
theorem Nested.sublist
    (hNested : t.Nested nodes)
    (hFewer : front.Sublist nodes) :
    t.Nested front :=
  List.Pairwise.sublist hFewer hNested

/- Fewer parent links keep nodes nested. -/
theorem Nested.mono
    (hNested : t.Nested nodes)
    (hFewer :
      ∀ c p, t'.parent? c = some p → t.parent? c = some p) :
    t'.Nested nodes :=
  List.Pairwise.imp
    (fun hApart hWithin => hApart (within_mono hFewer hWithin))
    hNested

/- What stands before a part is apart from what is in it. -/
theorem Nested.apart
    (hNested : t.Nested (front ++ back))
    {inner outer : NodeId}
    (hInner : inner ∈ front)
    (hOuter : outer ∈ back) :
    ¬ t.Within outer inner :=
  (List.pairwise_append.mp hNested).2.2 inner hInner outer hOuter

------------------------------------------------------------
-- Growth
------------------------------------------------------------

/- A node without parent is within itself only. -/
theorem eq_of_within_root
    {x y : NodeId}
    (hRoot : t.parent? x = none)
    (hWithin : t.Within x y) :
    x = y := by
  rcases within_cases hWithin with hSame | ⟨p, hParent, _⟩
  · exact hSame
  · rw [hRoot] at hParent
    cases hParent

namespace Grown

variable {roots : List NodeId}

/- Old nodes are within each other as before. -/
theorem within
    (hGrown : Grown roots t t')
    (hLinked : t.Linked)
    {x y : NodeId}
    (hLive : t.contains x = true)
    (hWithin : t'.Within x y) :
    t.Within x y := by
  induction hWithin with
  | refl => exact t.within_self x
  | tail hBelow hChild ih =>
      have hOld := hGrown.contains_within hLinked hLive hBelow
      exact ih.tail ((hGrown.parent _ hOld).symm.trans hChild)

/- An old node is not within a new one. -/
theorem apart
    (hGrown : Grown roots t t')
    (hLinked : t.Linked)
    {x y : NodeId}
    (hLive : t.contains x = true)
    (hNew : t.contains y = false) :
    ¬ t'.Within x y := by
  intro hWithin
  have hOld := hGrown.contains_within hLinked hLive hWithin
  rw [hNew] at hOld
  cases hOld

/- Old nodes stay nested. -/
theorem nested
    (hGrown : Grown roots t t')
    (hLinked : t.Linked)
    (hNested : t.Nested nodes)
    (hLive : ∀ x ∈ nodes, t.contains x = true) :
    t'.Nested nodes :=
  hNested.imp_of_mem fun _ hOuter hApart hWithin =>
    hApart (hGrown.within hLinked (hLive _ hOuter) hWithin)

/-
  A new node fits in among old ones, if it is not within those
  before it.
-/
theorem nested_insert
    (hGrown : Grown roots t t')
    (hLinked : t.Linked)
    (hNested : t.Nested (front ++ back))
    (hLive : ∀ x ∈ front ++ back, t.contains x = true)
    {x : NodeId}
    (hNew : t.contains x = false)
    (hApart : ∀ y ∈ front, ¬ t'.Within x y) :
    t'.Nested (front ++ x :: back) := by
  have hStill := hGrown.nested hLinked hNested hLive
  rcases List.pairwise_append.mp hStill with
    ⟨hFront, hBack, hAcross⟩
  refine
    List.pairwise_append.mpr
      ⟨hFront, List.Pairwise.cons ?_ hBack, ?_⟩
  · intro outer hOuter
    exact
      hGrown.apart hLinked
        (hLive outer (List.mem_append_right front hOuter)) hNew
  · intro inner hInner outer hOuter
    rcases List.mem_cons.mp hOuter with rfl | hMember
    · exact hApart inner hInner
    · exact hAcross inner hInner outer hMember

end Grown

------------------------------------------------------------
-- Putting a node into a place
------------------------------------------------------------

/- A node that stood nowhere has got a parent. -/
structure Puts
    (c owner : NodeId)
    (t t' : Tree) : Prop where
  root : t.parent? c = none
  parent :
    ∀ x, t'.parent? x =
      if x = c then some owner else t.parent? x

/- What is within a node then was so, or is by way of that. -/
theorem Puts.within_cases
    {c owner x y : NodeId}
    (hPuts : Puts c owner t t')
    (hApart : ¬ t.Within owner c)
    (hWithin : t'.Within x y) :
    t.Within x y ∨ t.Within x c ∧ t.Within owner y := by
  induction hWithin using
    Relation.ReflTransGen.head_induction_on with
  | refl => exact Or.inl (t.within_self y)
  | head hChild _ ih =>
      rename_i x z _
      have hParent : t'.parent? x = some z := hChild
      rw [hPuts.parent] at hParent
      by_cases hSame : x = c
      · rw [if_pos hSame, Option.some.injEq] at hParent
        rw [← hParent] at ih
        rcases ih with hOwner | ⟨hBelow, _⟩
        · exact Or.inr ⟨hSame ▸ t.within_self x, hOwner⟩
        · exact (hApart hBelow).elim
      · rw [if_neg hSame] at hParent
        rcases ih with hAbove | ⟨hBelow, hOwner⟩
        · exact Or.inl (within_of_parent? hParent hAbove)
        · exact
            Or.inr ⟨within_of_parent? hParent hBelow, hOwner⟩

/-
  A node is put below an owner that is apart from all inner
  nodes up to that one.
-/
theorem Nested.put
    {c owner : NodeId}
    (hNested : t.Nested (front ++ back))
    (hPuts : Puts c owner t t')
    (hInner : c ∈ front)
    (hOwner : ∀ x ∈ front, ¬ t.Within owner x) :
    t'.Nested (front ++ back) := by
  rcases List.pairwise_append.mp hNested with
    ⟨hFront, hBack, hApart⟩
  have hCases :
      ∀ {x y}, t'.Within x y →
        t.Within x y ∨ t.Within x c ∧ t.Within owner y :=
    hPuts.within_cases (hOwner c hInner)
  refine List.pairwise_append.mpr ⟨?_, ?_, ?_⟩
  · refine hFront.imp_of_mem ?_
    intro inner outer hMember _ hOld hWithin
    rcases hCases hWithin with hSame | ⟨_, hAbove⟩
    · exact hOld hSame
    · exact hOwner inner hMember hAbove
  · refine hBack.imp_of_mem ?_
    intro inner outer _ hMember hOld hWithin
    rcases hCases hWithin with hSame | ⟨hBelow, _⟩
    · exact hOld hSame
    · exact hApart c hInner outer hMember hBelow
  · intro inner hFirst outer hLater hWithin
    rcases hCases hWithin with hSame | ⟨hBelow, _⟩
    · exact hApart inner hFirst outer hLater hSame
    · exact hApart c hInner outer hLater hBelow

/- A new node that is put below an old one is growth. -/
theorem Grown.puts
    {u : Tree}
    {c owner : NodeId}
    (hGrown : Grown [c] t u)
    (hPuts : Puts c owner u t')
    (hLinked : t'.Linked)
    (hKeeps : u.Keeps t') :
    Grown [c] t t' where
  linked := hLinked
  kept := hGrown.kept.trans hKeeps
  parent i hLive := by
    have hNew := hGrown.fresh c List.mem_cons_self
    rw [hPuts.parent, if_neg (ne_of_missing hLive hNew)]
    exact hGrown.parent i hLive
  fresh := hGrown.fresh

------------------------------------------------------------
-- Handing over children
------------------------------------------------------------

/-
  A node that stands nowhere takes the children of the node
  behind it.
-/
theorem Nested.handOver
    {heir owner : NodeId}
    (hLinked : t.Linked)
    (hNested : t.Nested (front ++ heir :: owner :: back))
    (hRoot : t.parent? heir = none)
    (hNew : heir ∉ front)
    (hMoved :
      ∀ x, t'.parent? x =
        if x ∈ t.childrenOf owner then some heir
        else t.parent? x) :
    t'.Nested (front ++ heir :: owner :: back) := by
  -- What is within another node then was so before, or is
  -- below the owner, and the other node is the heir.
  have hCases :
      ∀ {x y}, t'.Within x y →
        t.Within x y ∨
          y = heir ∧ ∃ c ∈ t.childrenOf owner, t.Within x c := by
    intro x y hWithin
    induction hWithin using
      Relation.ReflTransGen.head_induction_on with
    | refl => exact Or.inl (t.within_self y)
    | head hChild _ ih =>
        rename_i x z _
        have hParent : t'.parent? x = some z := hChild
        rw [hMoved] at hParent
        by_cases hMember : x ∈ t.childrenOf owner
        · rw [if_pos hMember, Option.some.injEq] at hParent
          rw [← hParent] at ih
          have hSame : y = heir := by
            rcases ih with hAbove | ⟨hSame, _⟩
            · exact (eq_of_within_root hRoot hAbove).symm
            · exact hSame
          exact Or.inr ⟨hSame, x, hMember, t.within_self x⟩
        · rw [if_neg hMember] at hParent
          rcases ih with hAbove | ⟨hSame, c, hChild, hBelow⟩
          · exact Or.inl (within_of_parent? hParent hAbove)
          · exact
              Or.inr
                ⟨hSame, c, hChild,
                  within_of_parent? hParent hBelow⟩
  rcases List.pairwise_append.mp hNested with
    ⟨hFront, hBack, hApart⟩
  rw [List.pairwise_cons] at hBack
  rcases hBack with ⟨hHeir, hRest⟩
  have hNone :
      ∀ outer ∈ owner :: back, ∀ c ∈ t.childrenOf owner,
        ¬ t.Within outer c := by
    intro outer hOuter c hMember hWithin
    have hParent := (hLinked.listed c owner).mp hMember
    rcases List.mem_cons.mp hOuter with rfl | hLater
    · exact hLinked.not_within_child hParent hWithin
    · have hAbove : t.Within outer owner :=
        hWithin.tail hParent
      exact
        (List.pairwise_cons.mp hRest).1 outer hLater hAbove
  refine List.pairwise_append.mpr ⟨?_, ?_, ?_⟩
  · refine hFront.imp_of_mem ?_
    intro inner outer hInner _ hOld hWithin
    rcases hCases hWithin with hSame | ⟨rfl, _⟩
    · exact hOld hSame
    · exact hNew hInner
  · refine List.Pairwise.cons ?_ (hRest.imp_of_mem ?_)
    · intro outer hOuter hWithin
      rcases hCases hWithin with hSame | ⟨_, c, hMember, hBelow⟩
      · exact hHeir outer hOuter hSame
      · exact hNone outer hOuter c hMember hBelow
    · intro inner outer _ hOuter hOld hWithin
      rcases hCases hWithin with hSame | ⟨_, c, hMember, hBelow⟩
      · exact hOld hSame
      · exact hNone outer hOuter c hMember hBelow
  · intro inner hInner outer hOuter hWithin
    rcases hCases hWithin with hSame | ⟨rfl, _⟩
    · exact hApart inner hInner outer hOuter hSame
    · exact hNew hInner

end Tree

end Dom

end MarkupMetrics
