import MarkupMetrics.Proofs.Dom.Climb

/-
  This file proves that the loop down a tree lists nodes in
  document order: a node, then what stands below it, child by
  child.

  So what is listed below a node is a block of what is listed
  below any node above it.  The way up from a node passes the
  nodes that it is listed below.

  Key definitions include:
    * `Tree.Preorder`
    * `Tree.Joined`

  Key theorems include:
    * `Tree.preorder_of_descendants`
    * `Tree.Preorder.unique`
    * `Tree.infix_of_within`
    * `Tree.exists_above`
    * `Tree.joined_of_within`
-/

namespace MarkupMetrics

namespace Dom

namespace Tree

open Outcome

------------------------------------------------------------
-- Document order
------------------------------------------------------------

/-
  The nodes of several subtrees in document order.  The first
  node comes first, then the nodes below it by the same rule
  for its child list, then the subtrees that follow.
-/
inductive Preorder
    (t : Tree) : List NodeId → List NodeId → Prop where
  | nil : Preorder t [] []
  | cons
      {id : NodeId}
      {rest below after : List NodeId}
      (hLive : t.contains id = true)
      (hBelow : Preorder t (t.childrenOf id) below)
      (hAfter : Preorder t rest after) :
      Preorder t (id :: rest) (id :: (below ++ after))

namespace Preorder

variable {t : Tree}
variable {tops all : List NodeId}

/- The rule leaves no choice. -/
theorem unique
    {other : List NodeId}
    (hAll : t.Preorder tops all)
    (hOther : t.Preorder tops other) :
    all = other := by
  induction hAll generalizing other with
  | nil =>
      cases hOther
      rfl
  | cons _ _ _ ihBelow ihAfter =>
      cases hOther with
      | cons _ hBelow hAfter =>
          rw [ihBelow hBelow, ihAfter hAfter]

/- Subtrees in a row are listed one part after the other. -/
theorem split
    {front back all : List NodeId}
    (hAll : t.Preorder (front ++ back) all) :
    ∃ first second,
      all = first ++ second ∧ t.Preorder front first ∧
        t.Preorder back second := by
  induction front generalizing all with
  | nil => exact ⟨[], all, rfl, .nil, hAll⟩
  | cons id front ih =>
      cases hAll with
      | @cons _ _ below after hLive hBelow hAfter =>
          rcases ih hAfter with
            ⟨first, second, rfl, hFirst, hSecond⟩
          exact
            ⟨id :: (below ++ first), second, by simp,
              .cons hLive hBelow hFirst, hSecond⟩

/- Each of several subtrees is a block of the whole list. -/
theorem block
    (hAll : t.Preorder tops all)
    {c : NodeId}
    (hMember : c ∈ tops) :
    ∃ below,
      t.Preorder (t.childrenOf c) below ∧
        (c :: below) <:+: all := by
  rcases List.append_of_mem hMember with ⟨front, back, rfl⟩
  rcases hAll.split with ⟨first, second, rfl, _, hSecond⟩
  cases hSecond with
  | @cons _ _ below after _ hBelow _ =>
      exact ⟨below, hBelow, first, after, by simp⟩

/- A node and what is below it are listed for the node alone. -/
theorem single
    {id : NodeId}
    {below : List NodeId}
    (hLive : t.contains id = true)
    (hBelow : t.Preorder (t.childrenOf id) below) :
    t.Preorder [id] (id :: below) := by
  simpa using Preorder.cons hLive hBelow .nil

/- The tops are among the nodes that are listed. -/
theorem tops_subset
    (hAll : t.Preorder tops all) :
    tops ⊆ all := by
  induction hAll with
  | nil => exact List.Subset.refl []
  | cons _ _ _ _ ihAfter =>
      intro x hMember
      rcases List.mem_cons.mp hMember with rfl | hLater
      · exact List.mem_cons_self
      · simp [ihAfter hLater]

/- The children of what is listed are listed too. -/
theorem closed
    (hAll : t.Preorder tops all) :
    ∀ x ∈ all, t.childrenOf x ⊆ all := by
  induction hAll with
  | nil => simp
  | cons _ hBelow _ ihBelow ihAfter =>
      intro x hMember c hChild
      simp only [List.mem_cons, List.mem_append] at hMember ⊢
      rcases hMember with rfl | hInside | hOutside
      · exact Or.inr (Or.inl (hBelow.tops_subset hChild))
      · exact Or.inr (Or.inl (ihBelow x hInside hChild))
      · exact Or.inr (Or.inr (ihAfter x hOutside hChild))

/- What is listed is a top, or the child of a listed node. -/
theorem top_or_child
    (hAll : t.Preorder tops all) :
    ∀ x ∈ all, x ∈ tops ∨ ∃ p ∈ all, x ∈ t.childrenOf p := by
  induction hAll with
  | nil => simp
  | @cons id _ _ _ _ _ _ ihBelow ihAfter =>
      intro x hMember
      simp only [List.mem_cons, List.mem_append] at hMember ⊢
      rcases hMember with rfl | hInside | hOutside
      · exact Or.inl (Or.inl rfl)
      · rcases ihBelow x hInside with hChild | ⟨p, hListed, hChild⟩
        · exact Or.inr ⟨id, Or.inl rfl, hChild⟩
        · exact Or.inr ⟨p, Or.inr (Or.inl hListed), hChild⟩
      · rcases ihAfter x hOutside with hTop | ⟨p, hListed, hChild⟩
        · exact Or.inl (Or.inr hTop)
        · exact Or.inr ⟨p, Or.inr (Or.inr hListed), hChild⟩

theorem live
    (hAll : t.Preorder tops all) :
    ∀ x ∈ all, t.contains x = true := by
  induction hAll with
  | nil => simp
  | cons hLive _ _ ihBelow ihAfter =>
      intro x hMember
      simp only [List.mem_cons, List.mem_append] at hMember
      rcases hMember with rfl | hInside | hOutside
      · exact hLive
      · exact ihBelow x hInside
      · exact ihAfter x hOutside

/- Renamed nodes are listed in the same order. -/
theorem map
    {t' : Tree}
    {f : NodeId → NodeId}
    (hAll : t.Preorder tops all)
    (hSame :
      ∀ x ∈ all,
        t'.contains (f x) = true ∧
          t'.childrenOf (f x) = (t.childrenOf x).map f) :
    t'.Preorder (tops.map f) (all.map f) := by
  induction hAll with
  | nil => exact .nil
  | cons _ _ _ ihBelow ihAfter =>
      rcases hSame _ List.mem_cons_self with
        ⟨hLive, hChildren⟩
      rw [List.map_cons, List.map_cons, List.map_append]
      refine .cons hLive ?_ ?_
      · rw [hChildren]
        exact ihBelow fun x hMember => hSame x (by simp [hMember])
      · exact ihAfter fun x hMember => hSame x (by simp [hMember])

end Preorder

------------------------------------------------------------
-- The loop down
------------------------------------------------------------

/-
  The loop keeps one list of pending nodes.  The children that
  it puts in front come off again before the rest, so it goes
  through them as the rule does.
-/
theorem preorder_of_walk
    {t : Tree}
    (fuel : Nat)
    {pending below : List NodeId}
    (hWalk : t.walk fuel pending = .ok below) :
    t.Preorder pending below := by
  induction fuel generalizing pending below with
  | zero =>
      cases pending with
      | nil =>
          cases hWalk
          exact .nil
      | cons id rest => cases hWalk
  | succ fuel ih =>
      cases pending with
      | nil =>
          cases hWalk
          exact .nil
      | cons id rest =>
          rw [walk, bind_eq_ok_iff] at hWalk
          rcases hWalk with ⟨n, hNode, hRest⟩
          rcases bind_eq_ok_iff.mp hRest with
            ⟨others, hOthers, hDone⟩
          rw [pure_eq_ok_iff] at hDone
          subst hDone
          rw [node_eq_ok_iff] at hNode
          rcases (ih hOthers).split with
            ⟨inside, after, rfl, hInside, hAfter⟩
          rw [← childrenOf_of_get? hNode] at hInside
          exact
            .cons (contains_of_get? hNode) hInside hAfter

/- The descendants of a node are listed in document order. -/
theorem preorder_of_descendants
    {t : Tree}
    {id : NodeId}
    {below : List NodeId}
    (hBelow : t.descendants id = .ok below) :
    t.Preorder (t.childrenOf id) below := by
  unfold descendants at hBelow
  unfold childrenOf
  cases hNode : t.get? id with
  | none =>
      rw [hNode] at hBelow
      cases hBelow
      exact .nil
  | some n =>
      rw [hNode] at hBelow
      exact preorder_of_walk _ hBelow

/- A child and what is below it are a block of the list. -/
theorem infix_of_child
    {t : Tree}
    {id c : NodeId}
    {below under : List NodeId}
    (hBelow : t.descendants id = .ok below)
    (hUnder : t.descendants c = .ok under)
    (hChild : c ∈ t.childrenOf id) :
    (c :: under) <:+: below := by
  rcases (preorder_of_descendants hBelow).block hChild with
    ⟨under', hUnder', hBlock⟩
  rw [(preorder_of_descendants hUnder).unique hUnder']
  exact hBlock

/- What is below a node is a block of what is below another. -/
theorem infix_of_within
    {t : Tree}
    (hLinked : t.Linked)
    {x top : NodeId}
    (hWithin : t.Within x top)
    {below under : List NodeId}
    (hBelow : t.descendants top = .ok below)
    (hUnder : t.descendants x = .ok under) :
    under <:+: below := by
  induction hWithin generalizing below with
  | refl =>
      rw [hBelow] at hUnder
      cases hUnder
      exact List.infix_refl under
  | @tail c p _ hParent ih =>
      rcases exists_descendants hLinked c with
        ⟨middle, hMiddle⟩
      have hBlock :=
        infix_of_child hBelow hMiddle
          ((hLinked.listed c p).mpr hParent)
      exact
        ((ih hMiddle).trans
          (List.suffix_cons c middle).isInfix).trans hBlock

------------------------------------------------------------
-- The way up
------------------------------------------------------------

/- The first node on a way up is the one that it starts at. -/
theorem exists_cons_of_climb
    {t : Tree}
    {id : NodeId}
    {n : Node}
    (hNode : t.get? id = some n)
    {fuel : Nat}
    {chain : List NodeId}
    (hClimb : t.climb (fuel + 1) id = .ok chain) :
    ∃ above, chain = id :: above := by
  cases hParent : n.parent with
  | none =>
      simp only [climb, hNode, hParent] at hClimb
      cases hClimb
      exact ⟨[], rfl⟩
  | some p =>
      simp only [climb, hNode, hParent, bind_eq_ok_iff,
        pure_eq_ok_iff] at hClimb
      rcases hClimb with ⟨above, _, hSame⟩
      exact ⟨above, hSame.symm⟩

/- The way up starts at the node, and goes on above it. -/
theorem exists_above
    {t : Tree}
    {id : NodeId}
    (hLinked : t.Linked)
    (hLive : t.contains id = true) :
    ∃ above,
      t.chain id = .ok (id :: above) ∧
        (id :: above).Nodup ∧
          ∀ x, x ∈ above ↔ x ≠ id ∧ t.Within id x := by
  rcases chain_eq_ok hLinked hLive with
    ⟨chain, hChain, hNodup, hMembers⟩
  rcases contains_iff.mp hLive with ⟨n, hNode⟩
  rcases Nat.exists_eq_add_of_lt (lt_size_of_contains hLive)
    with ⟨fuel, hSize⟩
  have hClimb := hChain
  rw [Tree.chain, hSize] at hClimb
  rcases exists_cons_of_climb hNode hClimb with ⟨above, rfl⟩
  refine ⟨above, hChain, hNodup, ?_⟩
  intro x
  rw [← hMembers, List.mem_cons]
  have hApart := (List.nodup_cons.mp hNodup).1
  constructor
  · intro hMember
    refine ⟨?_, Or.inr hMember⟩
    rintro rfl
    exact hApart hMember
  · rintro ⟨hOther, rfl | hMember⟩
    · exact (hOther rfl).elim
    · exact hMember

/- A node is another one or stands strictly below it. -/
theorem below_iff
    {t : Tree}
    (hLinked : t.Linked)
    {x top : NodeId} :
    Relation.TransGen t.IsChild x top ↔
      x ≠ top ∧ t.Within x top := by
  constructor
  · intro hBelow
    refine ⟨?_, hBelow.to_reflTransGen⟩
    rintro rfl
    exact hLinked.acyclic x hBelow
  · rintro ⟨hOther, hWithin⟩
    rcases Relation.reflTransGen_iff_eq_or_transGen.mp hWithin
      with hSame | hBelow
    · exact (hOther hSame.symm).elim
    · exact hBelow

/- Two nodes stand in the same tree. -/
def Joined
    (t : Tree)
    (x y : NodeId) : Prop :=
  ∃ root, t.Within x root ∧ t.Within y root

/- Only one way leads up from a node. -/
theorem joined_of_within
    {t : Tree}
    {x a b : NodeId}
    (hFirst : t.Within x a)
    (hSecond : t.Within x b) :
    t.Joined a b := by
  have hOne : Relator.RightUnique t.IsChild := by
    intro c p q hParent hOther
    exact Option.some.inj (hParent.symm.trans hOther)
  rcases
    Relation.ReflTransGen.total_of_right_unique hOne hFirst
      hSecond with hUp | hUp
  · exact ⟨b, hUp, t.within_self b⟩
  · exact ⟨a, t.within_self a, hUp⟩

end Tree

end Dom

end MarkupMetrics
