import MarkupMetrics.Proofs.Dom.Vacating
import MarkupMetrics.Proofs.Html.Calls

/-
  This file proves that nodes that were made after some moment
  stay apart from those that were there, as long as edits are
  asked for on new nodes only.

  A new node stands below a new one, nowhere, or behind the
  old children of the document node.  So the loops over child
  lists that an edit goes through never come upon an old node,
  and this does not depend on the new nodes being in order:
  they may even stand below themselves.

  Key definitions include:
    * `Tree.New`
    * `Tree.Holds`
    * `Tree.Apart`

  Key theorems include:
    * `Tree.Apart.relink`
    * `Tree.Apart.create`
    * `Tree.Apart.exists_append`
    * `Tree.Apart.exists_insertBefore`
    * `Tree.Apart.exists_reparent`
-/

namespace MarkupMetrics

namespace Dom

namespace Tree

open Outcome

------------------------------------------------------------
-- New nodes
------------------------------------------------------------

/- A node that has been made since a tree was `old`. -/
def New
    (old t : Tree)
    (x : NodeId) : Prop :=
  t.contains x = true ∧ old.contains x = false

/- A new node or the old document node. -/
def Holds
    (old t : Tree)
    (x : NodeId) : Prop :=
  New old t x ∨ x = 0 ∧ old.contains 0 = true

/- A child list is what it was, with new nodes behind. -/
def Extends
    (old t : Tree)
    (q : NodeId)
    (list : List NodeId) : Prop :=
  ∃ added, list = old.childrenOf q ++ added ∧
    ∀ c ∈ added, New old t c

/-
  Old nodes are as they were, but that the document node may
  have new children behind the others.  New nodes stand below
  new ones, below the document node, or nowhere, and have new
  children only.
-/
structure Apart
    (old t : Tree) : Prop where
  free : t.FreeListed
  content :
    ∀ i, old.contains i = true →
      t.contentOf? i = old.contentOf? i
  parent :
    ∀ i, old.contains i = true → t.parent? i = old.parent? i
  others :
    ∀ q, ¬ Holds old t q → t.childrenOf q = old.childrenOf q
  lists : ∀ q, Extends old t q (t.childrenOf q)
  above :
    ∀ x p, New old t x → t.parent? x = some p → Holds old t p

variable {old t u : Tree}

theorem New.of_keeps
    (hKeeps : t.Keeps u)
    {x : NodeId}
    (hNew : New old t x) :
    New old u x :=
  ⟨hKeeps x hNew.1, hNew.2⟩

theorem Holds.of_keeps
    (hKeeps : t.Keeps u)
    {x : NodeId}
    (hHolds : Holds old t x) :
    Holds old u x :=
  hHolds.imp_left fun hNew => hNew.of_keeps hKeeps

namespace Apart

theorem refl
    (hFree : t.FreeListed) :
    Apart t t where
  free := hFree
  content _ _ := rfl
  parent _ _ := rfl
  others _ _ := rfl
  lists q := ⟨[], (List.append_nil _).symm, by simp⟩
  above x _ hNew _ := by
    rcases hNew with ⟨hLive, hMissing⟩
    rw [hLive] at hMissing
    cases hMissing

/- An old node is still there. -/
theorem live
    (hApart : Apart old t)
    {i : NodeId}
    (hOld : old.contains i = true) :
    t.contains i = true := by
  rw [contains_iff_contentOf?, hApart.content i hOld,
    ← contains_iff_contentOf?, hOld]

/- What may hold new nodes is a node. -/
theorem live_of_holds
    (hApart : Apart old t)
    {q : NodeId}
    (hHolds : Holds old t q) :
    t.contains q = true := by
  rcases hHolds with hNew | ⟨rfl, hOld⟩
  · exact hNew.1
  · exact hApart.live hOld

/- The child list of a new node holds new nodes only. -/
theorem new_of_child
    (hApart : Apart old t)
    {c p : NodeId}
    (hNew : New old t p)
    (hChild : c ∈ t.childrenOf p) :
    New old t c := by
  rcases hApart.lists p with ⟨added, hList, hAdded⟩
  have hNone : old.childrenOf p = [] := by
    simp [childrenOf, not_contains_iff.mp hNew.2]
  rw [hList, hNone, List.nil_append] at hChild
  exact hAdded c hChild

/-
  An edit that changes links alone keeps new nodes apart if
  each parent that it sets and each child list is as allowed.
-/
theorem relink
    (hApart : Apart old t)
    (hSame : SameNodes t u)
    (hParent :
      ∀ i, u.parent? i = t.parent? i ∨
        New old t i ∧
          ∀ p, u.parent? i = some p → Holds old t p)
    (hChildren :
      ∀ q, u.childrenOf q = t.childrenOf q ∨
        Holds old t q ∧ Extends old t q (u.childrenOf q)) :
    Apart old u := by
  have hNew : ∀ {x}, New old u x ↔ New old t x := by
    intro x
    rw [New, New, hSame.contains]
  have hHolds : ∀ {x}, Holds old u x ↔ Holds old t x :=
    or_congr_left hNew
  have hExtends :
      ∀ {q list}, Extends old t q list → Extends old u q list := by
    rintro q list ⟨added, hList, hAdded⟩
    exact
      ⟨added, hList, fun c hMember => hNew.mpr (hAdded c hMember)⟩
  constructor
  · exact hSame.freeListed hApart.free
  · intro i hOld
    rw [hSame.content, hApart.content i hOld]
  · intro i hOld
    rcases hParent i with hStill | ⟨⟨_, hMissing⟩, _⟩
    · rw [hStill, hApart.parent i hOld]
    · rw [hOld] at hMissing
      cases hMissing
  · intro q hOutside
    rw [hHolds] at hOutside
    rcases hChildren q with hStill | ⟨hInside, _⟩
    · rw [hStill, hApart.others q hOutside]
    · exact (hOutside hInside).elim
  · intro q
    rcases hChildren q with hStill | ⟨_, hList⟩
    · rw [hStill]
      exact hExtends (hApart.lists q)
    · exact hExtends hList
  · intro x p hThere hUp
    rw [hNew] at hThere
    rw [hHolds]
    rcases hParent x with hStill | ⟨_, hAbove⟩
    · rw [hStill] at hUp
      exact hApart.above x p hThere hUp
    · exact hAbove p hUp

/- A new node is not among the old children of any. -/
theorem not_mem_old
    (hOld : old.Linked)
    {c : NodeId}
    (hNew : New old t c)
    (q : NodeId) :
    c ∉ old.childrenOf q := by
  intro hChild
  have hLive := hOld.contains_child hChild
  rw [hNew.2] at hLive
  cases hLive

end Apart

------------------------------------------------------------
-- Child lists
------------------------------------------------------------

namespace Extends

variable {q c anchor : NodeId}
variable {list : List NodeId}

/- A new node can be taken out of a child list. -/
theorem drop
    (hExtends : Extends old t q list)
    (hOld : old.Linked)
    (hNew : New old t c) :
    Extends old t q (list.filter (· != c)) := by
  rcases hExtends with ⟨added, rfl, hAdded⟩
  refine ⟨added.filter (· != c), ?_, ?_⟩
  · have hStays :
        (old.childrenOf q).filter (· != c) =
          old.childrenOf q := by
      apply List.filter_eq_self.mpr
      intro x hMember
      have hOther : x ≠ c := fun h =>
        Apart.not_mem_old hOld hNew q (h ▸ hMember)
      simpa using hOther
    rw [List.filter_append, hStays]
  · intro x hMember
    exact hAdded x (List.mem_of_mem_filter hMember)

/- A new node can be put behind a child list. -/
theorem push
    (hExtends : Extends old t q list)
    (hNew : New old t c) :
    Extends old t q (list ++ [c]) := by
  rcases hExtends with ⟨added, rfl, hAdded⟩
  refine ⟨added ++ [c], List.append_assoc _ _ _, ?_⟩
  intro x hMember
  rcases List.mem_append.mp hMember with hIn | hLast
  · exact hAdded x hIn
  · exact List.mem_singleton.mp hLast ▸ hNew

/-
  A new node can be put before another one.  The anchor is not
  among the old children, so the place is behind these.
-/
theorem insert
    (hExtends : Extends old t q list)
    (hOld : old.Linked)
    (hAnchor : New old t anchor)
    (hNew : New old t c) :
    Extends old t q (insertBeforeAnchor anchor c list) := by
  rcases hExtends with ⟨added, rfl, hAdded⟩
  have hBehind :
      ∀ former : List NodeId, anchor ∉ former →
        insertBeforeAnchor anchor c (former ++ added) =
          former ++ insertBeforeAnchor anchor c added := by
    intro former hOutside
    induction former with
    | nil => rfl
    | cons x former ih =>
        rw [List.mem_cons, not_or] at hOutside
        rw [List.cons_append, insertBeforeAnchor,
          if_neg (Ne.symm hOutside.1), ih hOutside.2]
        rfl
  refine
    ⟨insertBeforeAnchor anchor c added,
      hBehind _ (Apart.not_mem_old hOld hAnchor q), ?_⟩
  intro x hMember
  rw [(perm_insertBeforeAnchor anchor c added).mem_iff,
    List.mem_cons] at hMember
  rcases hMember with rfl | hIn
  · exact hNew
  · exact hAdded x hIn

end Extends

namespace Apart

------------------------------------------------------------
-- Single links
------------------------------------------------------------

variable {c owner : NodeId}

/- A new node may get a parent that holds new nodes, or none. -/
theorem setParent
    (hApart : Apart old t)
    (hNew : New old t c)
    {parent : Option NodeId}
    (hParent : ∀ p, parent = some p → Holds old t p) :
    Apart old (t.setParent c parent) := by
  apply hApart.relink (SameNodes.setParent t c parent)
  · intro i
    rw [parent?_setParent]
    by_cases hSame : i = c
    · subst hSame
      rw [if_pos ⟨rfl, hNew.1⟩]
      exact Or.inr ⟨hNew, hParent⟩
    · rw [if_neg fun h => hSame h.1]
      exact Or.inl rfl
  · intro q
    exact Or.inl (childrenOf_setParent t c parent q)

/- A new node may lose its parent. -/
theorem clearParent
    (hApart : Apart old t)
    (hNew : New old t c) :
    Apart old (t.setParent c none) :=
  hApart.setParent hNew (by simp)

/- What holds new nodes may get more of them, or fewer. -/
theorem setChildren
    (hApart : Apart old t)
    (hHolds : Holds old t owner)
    {list : List NodeId}
    (hList : Extends old t owner list) :
    Apart old (t.setChildren owner list) := by
  apply hApart.relink (SameNodes.setChildren t owner list)
  · intro i
    exact Or.inl (parent?_setChildren t owner list i)
  · intro q
    rw [childrenOf_setChildren]
    by_cases hSame : q = owner
    · subst hSame
      rw [if_pos ⟨rfl, hApart.live_of_holds hHolds⟩]
      exact Or.inr ⟨hHolds, hList⟩
    · rw [if_neg fun h => hSame h.1]
      exact Or.inl rfl

/- A new node can lose its place below its parent. -/
theorem dropChild
    (hApart : Apart old t)
    (hOld : old.Linked)
    (hNew : New old t c)
    (hHolds : Holds old t owner) :
    Apart old (t.dropChild owner c) := by
  rw [dropChild_eq]
  exact
    hApart.setChildren hHolds
      ((hApart.lists owner).drop hOld hNew)

/- Both links of a new node can be set. -/
theorem attach
    (hApart : Apart old t)
    (hNew : New old t c)
    (hHolds : Holds old t owner)
    {list : List NodeId}
    (hList : Extends old t owner list) :
    Apart old
      ((t.setChildren owner list).setParent c (some owner)) := by
  have hKeeps := (SameNodes.setChildren t owner list).keeps
  apply
    (hApart.setChildren hHolds hList).setParent
      (hNew.of_keeps hKeeps)
  intro p hSame
  cases hSame
  exact hHolds.of_keeps hKeeps

/- A new node can be detached. -/
theorem exists_detach
    (hApart : Apart old t)
    (hOld : old.Linked)
    (hNew : New old t c) :
    ∃ t', t.detach c = .ok t' ∧ Apart old t' := by
  rcases contains_iff.mp hNew.1 with ⟨n, hNode⟩
  rw [detach, node_eq_ok_iff.mpr hNode, ok_bind]
  cases hParent : n.parent with
  | none => exact ⟨t, rfl, hApart⟩
  | some p =>
      have hUp : t.parent? c = some p := by
        rw [parent?_of_get? hNode, hParent]
      have hHolds := hApart.above c p hNew hUp
      rcases contains_iff.mp (hApart.live_of_holds hHolds) with
        ⟨above, hAbove⟩
      have hKeeps := (SameNodes.setParent t c none).keeps
      refine ⟨(t.setParent c none).dropChild p c, ?_, ?_⟩
      · simp only [node_eq_ok_iff.mpr hAbove, ok_bind]
        rfl
      · exact
          (hApart.clearParent hNew).dropChild hOld
            (hNew.of_keeps hKeeps) (hHolds.of_keeps hKeeps)

/- A new node can be taken out of its place. -/
theorem unlink
    (hApart : Apart old t)
    (hOld : old.Linked)
    (hNew : New old t c) :
    Apart old (t.unlink c) := by
  rcases unlink_cases t c with ⟨_, hSame⟩ | ⟨p, hUp, hDone⟩
  · rw [hSame]
    exact hApart
  · have hHolds := hApart.above c p hNew hUp
    rw [hDone]
    exact
      (hApart.dropChild hOld hNew hHolds).clearParent
        (hNew.of_keeps (sameNodes_dropChild t p c).keeps)

------------------------------------------------------------
-- Moves
------------------------------------------------------------

/- A new node can be moved behind what an owner holds. -/
theorem exists_appendOne
    (hApart : Apart old t)
    (hOld : old.Linked)
    (hHolds : Holds old t owner)
    (hNew : New old t c) :
    ∃ t', appendOne owner t c = .ok t' ∧ Apart old t' := by
  rcases hApart.exists_detach hOld hNew with
    ⟨u, hDetach, hCut⟩
  have hKeeps := (sameNodes_of_detach hDetach).keeps
  have hThere := hHolds.of_keeps hKeeps
  rcases contains_iff.mp (hCut.live_of_holds hThere) with
    ⟨n, hNode⟩
  have hChild := hNew.of_keeps hKeeps
  refine
    ⟨_, ?_,
      hCut.attach hChild hThere
        ((hCut.lists owner).push hChild)⟩
  rw [appendOne, hDetach, ok_bind, node_eq_ok_iff.mpr hNode,
    childrenOf_of_get? hNode]
  rfl

/- New nodes can be moved behind what an owner holds. -/
theorem exists_append
    (hApart : Apart old t)
    (hOld : old.Linked)
    (hHolds : Holds old t owner)
    {ids : List NodeId}
    (hNew : ∀ c ∈ ids, New old t c) :
    ∃ t', t.append owner ids = .ok t' ∧ Apart old t' := by
  unfold append
  induction ids generalizing t with
  | nil => exact ⟨t, rfl, hApart⟩
  | cons c ids ih =>
      rcases
        hApart.exists_appendOne hOld hHolds
          (hNew c List.mem_cons_self) with
        ⟨u, hFirst, hMiddle⟩
      have hKeeps := (sameNodes_of_appendOne hFirst).keeps
      rcases
        ih hMiddle (hHolds.of_keeps hKeeps)
          (fun c' hMember =>
            (hNew c' (List.mem_cons_of_mem c hMember)).of_keeps
              hKeeps) with
        ⟨t', hRest, hDone⟩
      refine ⟨t', ?_, hDone⟩
      rw [List.foldlM_cons, hFirst]
      exact hRest

/- A new node can be moved before another one. -/
theorem exists_insertBefore
    (hApart : Apart old t)
    (hOld : old.Linked)
    {anchor : NodeId}
    (hAnchor : New old t anchor)
    (hNew : New old t c) :
    ∃ t', t.insertBefore anchor [c] = .ok t' ∧
      Apart old t' := by
  rcases contains_iff.mp hAnchor.1 with ⟨a, hNode⟩
  cases hParent : t.parent? anchor with
  | none =>
      rw [parent?_of_get? hNode] at hParent
      refine ⟨t, ?_, hApart⟩
      rw [insertBefore, node_eq_ok_iff.mpr hNode, ok_bind,
        hParent]
      rfl
  | some p =>
      have hHolds := hApart.above anchor p hAnchor hParent
      rcases hApart.exists_detach hOld hNew with
        ⟨u, hDetach, hCut⟩
      have hKeeps := (sameNodes_of_detach hDetach).keeps
      have hThere := hHolds.of_keeps hKeeps
      rcases contains_iff.mp (hCut.live_of_holds hThere) with
        ⟨n, hOwner⟩
      have hChild := hNew.of_keeps hKeeps
      refine
        ⟨_, ?_,
          hCut.attach hChild hThere
            ((hCut.lists p).insert hOld
              (hAnchor.of_keeps hKeeps) hChild)⟩
      rw [parent?_of_get? hNode] at hParent
      rw [insertBefore, node_eq_ok_iff.mpr hNode, ok_bind,
        hParent]
      simp only [List.foldlM_cons, List.foldlM_nil,
        insertOneBefore, hDetach, ok_bind,
        node_eq_ok_iff.mpr hOwner, childrenOf_of_get? hOwner]
      rfl

/- New nodes can lose their parents. -/
theorem exists_orphans
    (hApart : Apart old t)
    {ids : List NodeId}
    (hNew : ∀ c ∈ ids, New old t c) :
    ∃ t', ids.foldlM orphanOne t = .ok t' ∧ Apart old t' := by
  induction ids generalizing t with
  | nil => exact ⟨t, rfl, hApart⟩
  | cons c ids ih =>
      have hFirst := hNew c List.mem_cons_self
      rcases contains_iff.mp hFirst.1 with ⟨n, hNode⟩
      have hKeeps := (SameNodes.setParent t c none).keeps
      rcases
        ih (hApart.clearParent hFirst)
          (fun c' hMember =>
            (hNew c' (List.mem_cons_of_mem c hMember)).of_keeps
              hKeeps) with
        ⟨t', hRest, hDone⟩
      refine ⟨t', ?_, hDone⟩
      rw [List.foldlM_cons, orphanOne,
        node_eq_ok_iff.mpr hNode]
      exact hRest

/- The children of a new node can be moved to another one. -/
theorem exists_reparent
    (hApart : Apart old t)
    (hOld : old.Linked)
    {source target : NodeId}
    (hSource : New old t source)
    (hTarget : New old t target) :
    ∃ t', t.reparent source target = .ok t' ∧ Apart old t' := by
  rcases contains_iff.mp hSource.1 with ⟨n, hNode⟩
  have hChildren :
      ∀ c ∈ n.children, New old t c := by
    rw [← childrenOf_of_get? hNode]
    exact fun c => hApart.new_of_child hSource
  have hNone : Extends old t source [] := by
    refine ⟨[], ?_, by simp⟩
    simp [childrenOf, not_contains_iff.mp hSource.2]
  have hEmptied := hApart.setChildren (Or.inl hSource) hNone
  have hKeeps := (SameNodes.setChildren t source []).keeps
  rcases
    hEmptied.exists_orphans fun c hMember =>
      (hChildren c hMember).of_keeps hKeeps with
    ⟨u, hOrphans, hLoose⟩
  have hStill :=
    hKeeps.trans (sameNodes_of_orphans hOrphans).keeps
  rcases
    hLoose.exists_append hOld
      (Or.inl (hTarget.of_keeps hStill))
      (fun c hMember =>
        (hChildren c hMember).of_keeps hStill) with
    ⟨t', hAppend, hDone⟩
  refine ⟨t', ?_, hDone⟩
  rw [reparent, node_eq_ok_iff.mpr hNode, ok_bind]
  exact bind_eq_ok_iff.mpr ⟨u, hOrphans, hAppend⟩

------------------------------------------------------------
-- Making and changing nodes
------------------------------------------------------------

/- An id that is free was free before. -/
theorem missing
    (hApart : Apart old t)
    {i : NodeId}
    (hMissing : t.contains i = false) :
    old.contains i = false := by
  cases hOld : old.contains i with
  | false => rfl
  | true =>
      rw [hApart.live hOld] at hMissing
      cases hMissing

/- A node that is made is new, and was not there until then. -/
theorem new_create
    (hApart : Apart old t)
    (data : NodeData) :
    t.contains (t.create data).2 = false ∧
      New old (t.create data).1 (t.create data).2 := by
  rcases contains_created hApart.free data with
    ⟨hMissing, hLive⟩
  exact ⟨hMissing, hLive, hApart.missing hMissing⟩

theorem create
    (hApart : Apart old t)
    (data : NodeData) :
    Apart old (t.create data).1 := by
  rcases get?_create hApart.free data with ⟨_, hRead⟩
  have hKeeps := keeps_create t data
  have hOther :
      ∀ i, old.contains i = true → i ≠ (t.create data).2 :=
    fun i hOld =>
      ne_of_missing hOld (hApart.new_create data).2.2
  have hNew :
      ∀ {x}, New old (t.create data).1 x →
        x = (t.create data).2 ∨ New old t x := by
    rintro x ⟨hLive, hMissing⟩
    rw [contains, hRead] at hLive
    by_cases hSame : x = (t.create data).2
    · exact Or.inl hSame
    · rw [if_neg hSame] at hLive
      exact Or.inr ⟨hLive, hMissing⟩
  constructor
  · exact freeListed_create hApart.free data
  · intro i hOld
    rw [← hApart.content i hOld]
    simp [contentOf?, hRead, hOther i hOld]
  · intro i hOld
    rw [parent?_create hApart.free, hApart.parent i hOld]
  · intro q hOutside
    rw [childrenOf_create hApart.free]
    exact hApart.others q fun h => hOutside (h.of_keeps hKeeps)
  · intro q
    rw [childrenOf_create hApart.free]
    rcases hApart.lists q with ⟨added, hList, hAdded⟩
    exact
      ⟨added, hList, fun c hMember =>
        (hAdded c hMember).of_keeps hKeeps⟩
  · intro x p hThere hUp
    rw [parent?_create hApart.free] at hUp
    rcases hNew hThere with rfl | hBefore
    · have hLive := contains_of_parent? hUp
      rw [(hApart.new_create data).1] at hLive
      cases hLive
    · exact (hApart.above x p hBefore hUp).of_keeps hKeeps

/- A new node can be given other data. -/
theorem put
    (hApart : Apart old t)
    {x : NodeId}
    {n : Node}
    (hNode : t.get? x = some n)
    (hMissing : old.contains x = false)
    (data : NodeData) :
    Apart old (t.put x { n with data }) := by
  have hSame := SameLinks.put hNode data
  have hRead := get?_put (contains_of_get? hNode)
    { n with data }
  have hHolds :
      ∀ {q}, Holds old (t.put x { n with data }) q ↔
        Holds old t q := by
    intro q
    rw [Holds, Holds, New, New, hSame.contains]
  constructor
  · exact hSame.freeListed hApart.free
  · intro i hOld
    have hOther := ne_of_missing hOld hMissing
    rw [← hApart.content i hOld, contentOf?, hRead,
      if_neg hOther]
    rfl
  · intro i hOld
    rw [hSame.parent, hApart.parent i hOld]
  · intro q hOutside
    rw [hHolds] at hOutside
    rw [hSame.children, hApart.others q hOutside]
  · intro q
    rw [hSame.children]
    rcases hApart.lists q with ⟨added, hList, hAdded⟩
    exact
      ⟨added, hList, fun c hMember =>
        (hAdded c hMember).of_keeps hSame.keeps⟩
  · intro y p hThere hUp
    rw [New, hSame.contains] at hThere
    rw [hSame.parent] at hUp
    exact hHolds.mpr (hApart.above y p hThere hUp)

/- Text joins a new node, if that is a text node. -/
theorem exists_joinText?
    (hApart : Apart old t)
    {before : Option NodeId}
    (hBefore : ∀ x, before = some x → New old t x)
    (text : String) :
    ∃ joined, t.joinText? before text = .ok joined ∧
      ∀ t', joined = some t' → Apart old t' := by
  cases before with
  | none => exact ⟨none, rfl, by simp⟩
  | some x =>
      rcases hBefore x rfl with ⟨hLive, hMissing⟩
      rcases contains_iff.mp hLive with ⟨n, hNode⟩
      rw [joinText?, appendText?, node_eq_ok_iff.mpr hNode,
        ok_bind]
      cases hData : n.data with
      | text content =>
          refine ⟨_, rfl, ?_⟩
          intro t' hSame
          cases hSame
          exact hApart.put hNode hMissing _
      | _ => exact ⟨none, rfl, by simp⟩

/-
  Text is put into a place by joining a new text node, or by
  moving a text node there that was made for it.
-/
theorem exists_text
    (hApart : Apart old t)
    {before : Option NodeId}
    (hBefore : ∀ x, before = some x → New old t x)
    (text : String)
    {move : Tree → NodeId → Except Fault Tree}
    (hMove :
      ∀ u id, Apart old u → t.Keeps u → New old u id →
        ∃ t', move u id = .ok t' ∧ Apart old t') :
    ∃ t', t.putText before text move = .ok t' ∧
      Apart old t' := by
  rcases hApart.exists_joinText? hBefore text with
    ⟨joined, hJoin, hJoined⟩
  rw [putText, hJoin, ok_bind]
  cases joined with
  | some t' => exact ⟨t', rfl, hJoined t' rfl⟩
  | none =>
      exact
        hMove _ _ (hApart.create _) (keeps_create t _)
          (hApart.new_create _).2

end Apart

------------------------------------------------------------
-- Content
------------------------------------------------------------

/-
  Content that may be put below an owner: a new node, or text
  unless the owner is the document node.
-/
def Fits
    (old t : Tree)
    (owner : Option NodeId) : Html.Content NodeId → Prop
  | .node id => New old t id
  | .text _ => owner ≠ some 0

namespace Apart

variable {owner : NodeId}
variable {content : Html.Content NodeId}

/- What is not the document node holds new nodes if it is new. -/
theorem new_of_holds
    (hHolds : Holds old t owner)
    (hOther : owner ≠ 0) :
    New old t owner :=
  hHolds.resolve_right fun h => hOther h.1

theorem exists_appendContent
    (hApart : Apart old t)
    (hOld : old.Linked)
    (hHolds : Holds old t owner)
    (hFits : Fits old t (some owner) content) :
    ∃ t', t.appendContent owner content = .ok t' ∧
      Apart old t' := by
  cases content with
  | node id =>
      apply hApart.exists_append hOld hHolds
      intro c hMember
      exact List.mem_singleton.mp hMember ▸ hFits
  | text text =>
      have hNew :=
        new_of_holds hHolds fun h => hFits (congrArg some h)
      rw [appendContent_text (lastChild?_eq hNew.1)]
      apply hApart.exists_text
      · intro x hLast
        exact
          hApart.new_of_child hNew (List.mem_of_getLast? hLast)
      · intro u id hMade hKeeps hThere
        apply
          hMade.exists_append hOld (hHolds.of_keeps hKeeps)
        intro c hMember
        exact List.mem_singleton.mp hMember ▸ hThere

/- What stands before a new node below a new one is new. -/
theorem exists_previousSibling?
    (hApart : Apart old t)
    {sibling : NodeId}
    (hSibling : New old t sibling)
    (hOther : t.parent? sibling ≠ some 0) :
    ∃ before, t.previousSibling? sibling = .ok before ∧
      ∀ x, before = some x → New old t x := by
  rcases contains_iff.mp hSibling.1 with ⟨n, hNode⟩
  rw [previousSibling?, node_eq_ok_iff.mpr hNode, ok_bind]
  rw [parent?_of_get? hNode] at hOther
  cases hParent : n.parent with
  | none => exact ⟨none, rfl, by simp⟩
  | some p =>
      have hUp : t.parent? sibling = some p := by
        rw [parent?_of_get? hNode, hParent]
      have hNew : New old t p :=
        new_of_holds (hApart.above sibling p hSibling hUp)
          fun h => hOther (by rw [hParent, h])
      rcases contains_iff.mp hNew.1 with ⟨above, hAbove⟩
      simp only [node_eq_ok_iff.mpr hAbove, ok_bind]
      split
      · refine ⟨_, rfl, ?_⟩
        intro x hSame
        apply hApart.new_of_child hNew
        rw [childrenOf_of_get? hAbove]
        exact List.mem_of_getElem? hSame
      · exact ⟨none, rfl, by simp⟩

theorem exists_insertContentBefore
    (hApart : Apart old t)
    (hOld : old.Linked)
    {sibling : NodeId}
    (hSibling : New old t sibling)
    (hFits : Fits old t (t.parent? sibling) content) :
    ∃ t', t.insertContentBefore sibling content = .ok t' ∧
      Apart old t' := by
  cases content with
  | node id => exact hApart.exists_insertBefore hOld hSibling hFits
  | text text =>
      rcases hApart.exists_previousSibling? hSibling hFits with
        ⟨before, hPrevious, hBefore⟩
      rw [insertContentBefore_text hPrevious]
      apply hApart.exists_text hBefore
      intro u id hMade hKeeps hThere
      exact
        hMade.exists_insertBefore hOld
          (hSibling.of_keeps hKeeps) hThere

theorem exists_addAttributes
    (hApart : Apart old t)
    {element : NodeId}
    (hNew : New old t element)
    (attrs : List Attribute) :
    ∃ t', t.addAttributes element attrs = .ok t' ∧
      Apart old t' := by
  rcases contains_iff.mp hNew.1 with ⟨n, hNode⟩
  rw [addAttributes, modifyAttrs, node_eq_ok_iff.mpr hNode,
    ok_bind]
  cases hData : n.data with
  | element e =>
      exact ⟨_, rfl, hApart.put hNode hNew.2 _⟩
  | _ => exact ⟨t, rfl, hApart⟩

end Apart

end Tree

end Dom

end MarkupMetrics
