import MarkupMetrics.Proofs.Dom.Splices
import MarkupMetrics.Proofs.Dom.Vacating

/-
  This file proves that copies of subtrees are faithful.

  Copies are made in document order, each node before its
  children, so the node at some place of that order gets the
  id at the same place of those to come.  This names the copy
  of every node before any is made, and what a copy is like
  can be said by renaming.

  Key definitions include:
    * `Tree.copyOf`
    * `Tree.Adopted`
    * `Tree.Copied`
    * `Tree.TakenIn`
    * `Tree.CopiedBelow`

  Key theorems include:
    * `Tree.Grown.adopt`
    * `Tree.exists_plantAll`
    * `Tree.exists_graft`
-/

namespace MarkupMetrics

namespace Dom

namespace Tree

open Outcome

------------------------------------------------------------
-- Taking in roots
------------------------------------------------------------

/-
  Nodes without parent were put at the end of a child list,
  and nothing else has changed.
-/
structure Adopted
    (owner : NodeId)
    (roots : List NodeId)
    (t t' : Tree) : Prop where
  linked : t'.Linked
  nodes : SameNodes t t'
  parent :
    ∀ x, t'.parent? x =
      if x ∈ roots then some owner else t.parent? x
  children :
    ∀ q, t'.childrenOf q =
      if q = owner then t.childrenOf q ++ roots
      else t.childrenOf q

/- New roots can be taken in by any node that was there before. -/
theorem Grown.adopt
    {t u : Tree}
    {roots : List NodeId}
    {owner : NodeId}
    (hGrown : Grown roots t u)
    (hLinked : t.Linked)
    (hOwner : t.contains owner = true)
    (hLive : ∀ r ∈ roots, u.contains r = true)
    (hRoots : ∀ r ∈ roots, u.parent? r = none)
    (hNodup : roots.Nodup) :
    ∃ v, u.append owner roots = .ok v ∧
      Adopted owner roots u v := by
  have hApart : u.Movable owner roots := by
    intro r hMember
    refine ⟨hLive r hMember, ?_⟩
    intro hWithin
    have hOld := hGrown.contains_within hLinked hOwner hWithin
    rw [hGrown.fresh r hMember] at hOld
    cases hOld
  rcases
    exists_append hGrown.linked (hGrown.kept owner hOwner) hApart
    with ⟨v, hRun, hSpliced⟩
  have hNowhere :
      ∀ q, (u.childrenOf q).filter (· ∉ roots) =
        u.childrenOf q := by
    intro q
    apply List.filter_eq_self.mpr
    intro c hChild
    have hOutside : c ∉ roots := by
      intro hMember
      have hParent := (hGrown.linked.listed c q).mp hChild
      rw [hRoots c hMember] at hParent
      cases hParent
    simpa using hOutside
  have hAfter : v.Linked :=
    hGrown.linked.append (fun c hMember _ => (hApart c hMember).2)
      hRun
  refine
    ⟨v, hRun, hAfter, hSpliced.nodes, hSpliced.parent, ?_⟩
  intro q
  by_cases hSame : q = owner
  · rw [if_pos hSame, hSame, hSpliced.listed, hNowhere,
      hNodup.dedup]
  · rw [if_neg hSame, hSpliced.others q hSame, hNowhere]

------------------------------------------------------------
-- Copies
------------------------------------------------------------

/-
  The copy of a node, if the nodes of `all` are copied in this
  order.
-/
def copyOf
    (t : Tree)
    (all : List NodeId)
    (x : NodeId) : NodeId :=
  t.upcoming (all.idxOf x)

/- Different nodes have different copies. -/
theorem nodup_map_copyOf
    {t : Tree}
    (hFree : t.FreeListed)
    {tops all : List NodeId}
    (hNodup : tops.Nodup)
    (hSubset : tops ⊆ all) :
    (tops.map (t.copyOf all)).Nodup := by
  refine hNodup.map_on ?_
  intro x hFirst y _ hSame
  have hPlace := upcoming_injective hFree hSame
  exact (List.idxOf_inj (hSubset hFirst)).mp hPlace

/- Copies take the ids to come in document order. -/
theorem map_copyOf
    (t : Tree)
    {all : List NodeId}
    (hNodup : all.Nodup) :
    all.map (t.copyOf all) =
      (List.range all.length).map t.upcoming := by
  apply List.ext_getElem
  · simp
  · intro k hFirst hSecond
    simp [copyOf, hNodup.idxOf_getElem]

/- The copy of the first node takes the id that comes next. -/
theorem copyOf_first
    (t : Tree)
    (id : NodeId)
    (below : List NodeId) :
    t.copyOf (id :: below) id = t.upcoming 0 := by
  rw [copyOf, List.idxOf_cons_self]

/- Once the first copy is made the others take what is next. -/
theorem copyOf_rest
    (t : Tree)
    (data : NodeData)
    {id : NodeId}
    {below : List NodeId}
    (hNodup : (id :: below).Nodup)
    {x : NodeId}
    (hMember : x ∈ below) :
    t.copyOf (id :: below) x =
      (t.create data).1.copyOf below x := by
  have hOther : id ≠ x := by
    rintro rfl
    exact (List.nodup_cons.mp hNodup).1 hMember
  rw [copyOf, List.idxOf_cons_ne below hOther, copyOf,
    upcoming_create]

/- A node that is there is no copy. -/
theorem ne_copyOf
    {t : Tree}
    (hFree : t.FreeListed)
    {i : NodeId}
    (hLive : t.contains i = true)
    (all : List NodeId)
    (x : NodeId) :
    i ≠ t.copyOf all x :=
  ne_of_missing hLive (hFree.vacant_upcoming _)

theorem not_mem_copies
    {t : Tree}
    (hFree : t.FreeListed)
    {i : NodeId}
    (hLive : t.contains i = true)
    (tops all : List NodeId) :
    i ∉ tops.map (t.copyOf all) := by
  intro hMember
  rcases List.mem_map.mp hMember with ⟨x, _, hSame⟩
  exact ne_copyOf hFree hLive all x hSame.symm

/-
  The nodes of several subtrees of a page, listed in document
  order, have copies that stand apart in a tree.  A copy has
  the data of its node, and its children are the copies of the
  node's children.
-/
structure Copied
    (page : Tree)
    (tops all : List NodeId)
    (t t' : Tree) : Prop where
  supplied : Supplied all.length t t'
  old : ∀ i, t.contains i = true → t'.get? i = t.get? i
  roots : ∀ x ∈ tops, t'.parent? (t.copyOf all x) = none
  content :
    ∀ x ∈ all, ∀ n, page.get? x = some n →
      t'.contentOf? (t.copyOf all x) =
        some (t.copyOf all x, n.data)
  children :
    ∀ x ∈ all,
      t'.childrenOf (t.copyOf all x) =
        (page.childrenOf x).map (t.copyOf all)

namespace Copied

variable {page t u v : Tree}
variable {tops all : List NodeId}

/- Copies that are made next get the ids that come next. -/
theorem copyOf_behind
    {after : List NodeId}
    (hCopied : Copied page tops all t u)
    (hNodup : (all ++ after).Nodup)
    {x : NodeId}
    (hMember : x ∈ after) :
    t.copyOf (all ++ after) x = u.copyOf after x := by
  have hOutside : x ∉ all := fun hInside =>
    (List.nodup_append.mp hNodup).2.2 x hInside x hMember rfl
  rw [copyOf, List.idxOf_append_of_notMem hOutside, copyOf,
    hCopied.supplied.next]

/- A copy is one of the nodes that were made. -/
theorem contains_copyOf
    (hCopied : Copied page tops all t u)
    {x : NodeId}
    (hMember : x ∈ all) :
    u.contains (t.copyOf all x) = true :=
  (hCopied.supplied.live _).mpr
    (Or.inr
      ⟨all.idxOf x, List.idxOf_lt_length_of_mem hMember, rfl⟩)

theorem refl
    (page t : Tree) :
    Copied page [] [] t t where
  supplied := ⟨by simp, by simp⟩
  old _ _ := rfl
  roots _ hMember := by cases hMember
  content _ hMember := by cases hMember
  children _ hMember := by cases hMember

/-
  Copies that are made after others leave those alone, and
  get the ids that come after theirs.
-/
theorem append
    {rest after : List NodeId}
    (hAll : page.Preorder tops all)
    (hAfter : page.Preorder rest after)
    (hNodup : (all ++ after).Nodup)
    (hFirst : Copied page tops all t u)
    (hSecond : Copied page rest after u v) :
    Copied page (tops ++ rest) (all ++ after) t v := by
  have hEarly :
      ∀ x ∈ all, t.copyOf (all ++ after) x = t.copyOf all x := by
    intro x hMember
    rw [copyOf, List.idxOf_append_of_mem hMember, copyOf]
  have hLate :
      ∀ x ∈ after,
        t.copyOf (all ++ after) x = u.copyOf after x :=
    fun x => hFirst.copyOf_behind hNodup
  have hKept :
      ∀ x ∈ all,
        v.get? (t.copyOf all x) = u.get? (t.copyOf all x) :=
    fun x hMember =>
      hSecond.old _ (hFirst.contains_copyOf hMember)
  constructor
  · rw [List.length_append]
    exact hFirst.supplied.trans hSecond.supplied
  · intro i hLive
    have hThere := (hFirst.supplied.live i).mpr (Or.inl hLive)
    rw [hSecond.old i hThere, hFirst.old i hLive]
  · intro x hMember
    rcases List.mem_append.mp hMember with hTop | hTop
    · have hInside := hAll.tops_subset hTop
      rw [hEarly x hInside,
        (links_of_get? (hKept x hInside)).2.1]
      exact hFirst.roots x hTop
    · rw [hLate x (hAfter.tops_subset hTop)]
      exact hSecond.roots x hTop
  · intro x hMember n hNode
    rcases List.mem_append.mp hMember with hInside | hInside
    · rw [hEarly x hInside, (links_of_get? (hKept x hInside)).1]
      exact hFirst.content x hInside n hNode
    · rw [hLate x hInside]
      exact hSecond.content x hInside n hNode
  · intro x hMember
    rcases List.mem_append.mp hMember with hInside | hInside
    · rw [hEarly x hInside,
        (links_of_get? (hKept x hInside)).2.2,
        hFirst.children x hInside]
      exact
        List.map_congr_left fun c hChild =>
          (hEarly c (hAll.closed x hInside hChild)).symm
    · rw [hLate x hInside, hSecond.children x hInside]
      exact
        List.map_congr_left fun c hChild =>
          (hLate c (hAfter.closed x hInside hChild)).symm

end Copied

/-
  Copies were taken in by a node that was there before them.
  They are linked as before, and no other node has changed.
-/
structure TakenIn
    (page : Tree)
    (tops all : List NodeId)
    (owner : NodeId)
    (t t' : Tree) : Prop where
  linked : t'.Linked
  supplied : Supplied all.length t t'
  old :
    ∀ i, t.contains i = true → i ≠ owner → t'.get? i = t.get? i
  extended :
    ∀ n, t.get? owner = some n →
      t'.get? owner =
        some
          { n with
            children := n.children ++ tops.map (t.copyOf all) }
  content :
    ∀ x ∈ all, ∀ n, page.get? x = some n →
      t'.contentOf? (t.copyOf all x) =
        some (t.copyOf all x, n.data)
  children :
    ∀ x ∈ all,
      t'.childrenOf (t.copyOf all x) =
        (page.childrenOf x).map (t.copyOf all)

namespace Copied

variable {page t u v : Tree}
variable {tops all : List NodeId}
variable {owner : NodeId}

/- The copies of the tops can be taken in. -/
theorem exists_takenIn
    (hCopied : Copied page tops all t u)
    (hAll : page.Preorder tops all)
    (hNodup : tops.Nodup)
    (hLinked : t.Linked)
    (hGrown : Grown (tops.map (t.copyOf all)) t u)
    (hOwner : t.contains owner = true) :
    ∃ v, u.append owner (tops.map (t.copyOf all)) = .ok v ∧
      TakenIn page tops all owner t v := by
  have hLive :
      ∀ r ∈ tops.map (t.copyOf all), u.contains r = true := by
    intro r hMember
    rcases List.mem_map.mp hMember with ⟨x, hTop, rfl⟩
    exact hCopied.contains_copyOf (hAll.tops_subset hTop)
  have hRoots :
      ∀ r ∈ tops.map (t.copyOf all), u.parent? r = none := by
    intro r hMember
    rcases List.mem_map.mp hMember with ⟨x, hTop, rfl⟩
    exact hCopied.roots x hTop
  have hDistinct :=
    nodup_map_copyOf hLinked.free hNodup hAll.tops_subset
  rcases
    hGrown.adopt hLinked hOwner hLive hRoots hDistinct with
    ⟨v, hRun, hAdopted⟩
  have hParent :
      ∀ i, t.contains i = true → v.parent? i = u.parent? i := by
    intro i hThere
    rw [hAdopted.parent,
      if_neg (not_mem_copies hLinked.free hThere tops all)]
  refine ⟨v, hRun, hAdopted.linked, ?_, ?_, ?_, ?_, ?_⟩
  · exact
      hCopied.supplied.same hAdopted.nodes.contains
        hAdopted.nodes.free hAdopted.nodes.size
  · intro i hThere hOther
    rw [← hCopied.old i hThere]
    apply get?_congr (hAdopted.nodes.content i)
      (hParent i hThere)
    rw [hAdopted.children, if_neg hOther]
  · intro n hNode
    have hStill := hCopied.old owner hOwner
    rw [hNode] at hStill
    rcases get?_eq_some_iff.mp hStill with
      ⟨hData, hAbove, hBelow⟩
    rw [get?_eq_some_iff, hAdopted.nodes.content,
      hParent owner hOwner, hAdopted.children, if_pos rfl,
      hBelow]
    exact ⟨hData, hAbove, rfl⟩
  · intro x hMember n hNode
    rw [hAdopted.nodes.content]
    exact hCopied.content x hMember n hNode
  · intro x hMember
    have hOther := ne_copyOf hLinked.free hOwner all x
    rw [hAdopted.children, if_neg hOther.symm]
    exact hCopied.children x hMember

/-
  A node whose copy is made first and takes in the copies of
  its children is copied with all that is below it.
-/
theorem top
    {id : NodeId}
    {n : Node}
    {below : List NodeId}
    (hNode : page.get? id = some n)
    (hBelow : page.Preorder (page.childrenOf id) below)
    (hNodup : (id :: below).Nodup)
    (hLinked : t.Linked)
    (hTaken :
      TakenIn page (page.childrenOf id) below
        (t.create n.data).2 (t.create n.data).1 v) :
    Copied page [id] (id :: below) t v := by
  rcases get?_create hLinked.free n.data with ⟨_, hRead⟩
  have hSelf :
      t.copyOf (id :: below) id = (t.create n.data).2 := by
    rw [copyOf_first, create_id]
  have hUnder :
      ∀ x ∈ below,
        t.copyOf (id :: below) x =
          (t.create n.data).1.copyOf below x :=
    fun x => t.copyOf_rest n.data hNodup
  have hRenamed :
      ∀ ids ⊆ below,
        ids.map ((t.create n.data).1.copyOf below) =
          ids.map (t.copyOf (id :: below)) := by
    intro ids hSubset
    exact
      List.map_congr_left fun c hMember =>
        (hUnder c (hSubset hMember)).symm
  have hOwner :=
    hTaken.extended _ ((hRead _).trans (if_pos rfl))
  rw [← hSelf, List.nil_append,
    hRenamed _ hBelow.tops_subset] at hOwner
  constructor
  · have hStart : Supplied 0 t t := ⟨by simp, by simp⟩
    have hOne := hStart.create hLinked.free n.data
    rw [List.length_cons, Nat.add_comm]
    exact hOne.trans hTaken.supplied
  · intro i hLive
    have hOther :=
      ne_of_missing hLive
        (contains_created hLinked.free n.data).1
    rw [hTaken.old i (contains_create n.data hLive) hOther,
      hRead, if_neg hOther]
  · intro x hMember
    rw [List.mem_singleton.mp hMember,
      parent?_of_get? hOwner]
  · intro x hMember m hOld
    rcases List.mem_cons.mp hMember with rfl | hInside
    · rw [hNode] at hOld
      cases hOld
      exact contentOf?_of_get? hOwner
    · rw [hUnder x hInside]
      exact hTaken.content x hInside m hOld
  · intro x hMember
    rcases List.mem_cons.mp hMember with rfl | hInside
    · exact childrenOf_of_get? hOwner
    · rw [hUnder x hInside, hTaken.children x hInside]
      exact hRenamed _ (hBelow.closed x hInside)

end Copied

------------------------------------------------------------
-- Planting
------------------------------------------------------------

/- A shape is planted once the shapes below it are. -/
theorem exists_plant
    {page t u : Tree}
    {id : NodeId}
    {n : Node}
    {below : List NodeId}
    {inner : List Shape}
    (hNode : page.get? id = some n)
    (hBelow : page.Preorder (page.childrenOf id) below)
    (hNodup : (id :: below).Nodup)
    (hChildren : (page.childrenOf id).Nodup)
    (hLinked : t.Linked)
    (hInner :
      (t.create n.data).1.plantAll inner =
        .ok (u, (page.childrenOf id).map
          ((t.create n.data).1.copyOf below)))
    (hCopied :
      Copied page (page.childrenOf id) below
        (t.create n.data).1 u) :
    ∃ v,
      t.plant (.node n.data inner) =
          .ok (v, t.copyOf (id :: below) id) ∧
        Copied page [id] (id :: below) t v := by
  have hMade := hLinked.grown_create n.data
  have hGrown := plantAll_grown hMade.linked inner hInner
  have hOwner := (contains_created hLinked.free n.data).2
  rcases
    hCopied.exists_takenIn hBelow hChildren hMade.linked hGrown
      hOwner with
    ⟨v, hRun, hTaken⟩
  refine
    ⟨v, ?_, Copied.top hNode hBelow hNodup hLinked hTaken⟩
  rw [plant, bind_eq_ok_iff, copyOf_first, ← create_id t n.data]
  exact ⟨_, hInner, bind_eq_ok_iff.mpr ⟨v, hRun, rfl⟩⟩

/-
  The shapes of several subtrees can be read off and planted,
  with fuel for as many nodes as they have.  The copies of the
  tops are given, in order.

  The rule for document order follows the way shapes are read
  and planted: a node, what is below it, what comes after.
-/
theorem exists_plantAll
    {page : Tree}
    (hPage : page.Linked)
    {tops all : List NodeId}
    (hAll : page.Preorder tops all)
    (hNodup : all.Nodup)
    {fuel : Nat}
    (hFuel : all.length ≤ fuel)
    {t : Tree}
    (hLinked : t.Linked) :
    ∃ shapes u,
      tops.mapM (page.shapeAt fuel) = .ok shapes ∧
        t.plantAll shapes = .ok (u, tops.map (t.copyOf all)) ∧
        Copied page tops all t u := by
  induction hAll generalizing fuel t with
  | nil => exact ⟨[], t, rfl, rfl, Copied.refl page t⟩
  | @cons id rest below after hLive hBelow hAfter ihBelow
      ihAfter =>
      rcases contains_iff.mp hLive with ⟨n, hNode⟩
      rw [← List.cons_append] at hNodup
      have hTopNodup : (id :: below).Nodup :=
        (List.nodup_append.mp hNodup).1
      simp only [List.length_cons, List.length_append] at hFuel
      cases fuel with
      | zero => omega
      | succ fuel =>
          have hMade := hLinked.grown_create n.data
          have hFuelBelow : below.length ≤ fuel := by omega
          have hFuelAfter : after.length ≤ fuel + 1 := by omega
          rcases
            ihBelow (List.nodup_cons.mp hTopNodup).2 hFuelBelow
              hMade.linked with
            ⟨inner, u, hInner, hPlantInner, hCopied⟩
          rcases
            exists_plant hNode hBelow hTopNodup
              (hPage.nodup id) hLinked hPlantInner hCopied with
            ⟨v, hPlant, hTop⟩
          have hGrown := plant_grown hLinked _ hPlant
          rcases
            ihAfter (List.nodup_append.mp hNodup).2.1 hFuelAfter
              hGrown.linked with
            ⟨others, w, hOthers, hPlantOthers, hRest⟩
          have hBoth :=
            Copied.append (.single hLive hBelow) hAfter hNodup hTop
              hRest
          have hShape :
              page.shapeAt (fuel + 1) id =
                .ok (.node n.data inner) := by
            rw [childrenOf_of_get? hNode] at hInner
            rw [shapeAt, node_eq_ok_iff.mpr hNode, ok_bind,
              hInner]
            rfl
          have hSelf :
              t.copyOf (id :: below ++ after) id =
                t.copyOf (id :: below) id := by
            simp [copyOf]
          have hLate :
              rest.map (t.copyOf (id :: below ++ after)) =
                rest.map (v.copyOf after) := by
            apply List.map_congr_left
            intro x hMember
            exact
              hTop.copyOf_behind hNodup
                (hAfter.tops_subset hMember)
          refine ⟨.node n.data inner :: others, w, ?_, ?_, hBoth⟩
          · rw [List.mapM_cons, hShape, ok_bind, hOthers]
            rfl
          · rw [plantAll, bind_eq_ok_iff]
            refine
              ⟨_, hPlant,
                bind_eq_ok_iff.mpr ⟨_, hPlantOthers, ?_⟩⟩
            rw [← List.cons_append, List.map_cons, hSelf, hLate]
            rfl

------------------------------------------------------------
-- Grafting
------------------------------------------------------------

/-
  The nodes below a node of a page, in document order, have
  copies below the owner in a tree.  Each copy has the data of
  its node, and copies are linked as the nodes are, but that
  the owner stands for the node above them all.

  The copies are made in document order.  They come behind the
  other children of the owner, and no other node has changed.
-/
structure CopiedBelow
    (page : Tree)
    (top : NodeId)
    (below : List NodeId)
    (owner : NodeId)
    (t t' : Tree) : Prop where
  ids :
    below.map (t.copyOf below) =
      (List.range below.length).map t.upcoming
  distinct : (below.map (t.copyOf below)).Nodup
  fresh : ∀ x ∈ below, t.contains (t.copyOf below x) = false
  live :
    ∀ i, t'.contains i = true ↔
      t.contains i = true ∨ i ∈ below.map (t.copyOf below)
  copies :
    ∀ x ∈ below, ∀ n, page.get? x = some n →
      t'.get? (t.copyOf below x) =
        some
          { id := t.copyOf below x
            parent :=
              n.parent.map fun p =>
                if p = top then owner else t.copyOf below p
            children := n.children.map (t.copyOf below)
            data := n.data }
  extended :
    ∀ n, t.get? owner = some n →
      t'.get? owner =
        some
          { n with
            children :=
              n.children ++
                (page.childrenOf top).map (t.copyOf below) }
  others :
    ∀ i, t.contains i = true → i ≠ owner → t'.get? i = t.get? i
  order :
    t'.Preorder ((page.childrenOf top).map (t.copyOf below))
      (below.map (t.copyOf below))

/- Copies are in place once an old node has taken them in. -/
theorem TakenIn.below
    {page t v : Tree}
    {top owner : NodeId}
    {below : List NodeId}
    (hPage : page.Linked)
    (hTop : page.contains top = true)
    (hBelow : page.descendants top = .ok below)
    (hLinked : t.Linked)
    (hOwner : t.contains owner = true)
    (hTaken :
      TakenIn page (page.childrenOf top) below owner t v) :
    CopiedBelow page top below owner t v := by
  have hOrder := preorder_of_descendants hBelow
  have hNodup := nodup_of_descendants hPage hBelow
  have hLive :
      ∀ i, v.contains i = true ↔
        t.contains i = true ∨
          i ∈ below.map (t.copyOf below) := by
    intro i
    rw [hTaken.supplied.live, map_copyOf t hNodup]
    simp
  have hParent :
      ∀ x ∈ below,
        v.parent? (t.copyOf below x) =
          (page.parent? x).map fun p =>
            if p = top then owner else t.copyOf below p := by
    intro x hMember
    rcases hOrder.top_or_child x hMember with
      hChild | ⟨p, hListed, hChild⟩
    · rcases contains_iff.mp hOwner with ⟨n, hNode⟩
      rw [(hPage.listed x top).mp hChild, Option.map_some,
        if_pos rfl, ← hTaken.linked.listed,
        childrenOf_of_get? (hTaken.extended n hNode)]
      exact List.mem_append_right _ (List.mem_map_of_mem hChild)
    · have hOther : p ≠ top :=
        ((mem_descendants_iff hPage hTop hBelow).mp hListed).1
      rw [(hPage.listed x p).mp hChild, Option.map_some,
        if_neg hOther, ← hTaken.linked.listed,
        hTaken.children p hListed]
      exact List.mem_map_of_mem hChild
  constructor
  · exact map_copyOf t hNodup
  · exact
      nodup_map_copyOf hLinked.free hNodup (List.Subset.refl _)
  · exact fun x _ => hLinked.free.vacant_upcoming _
  · exact hLive
  · intro x hMember n hNode
    rw [get?_eq_mk (hTaken.content x hMember n hNode),
      hParent x hMember, hTaken.children x hMember,
      parent?_of_get? hNode, childrenOf_of_get? hNode]
  · exact hTaken.extended
  · exact hTaken.old
  · apply hOrder.map
    intro x hMember
    refine ⟨?_, hTaken.children x hMember⟩
    exact (hLive _).mpr (Or.inr (List.mem_map_of_mem hMember))

/- What stands below a node of a page can be grafted. -/
theorem exists_graft
    {page t : Tree}
    {top owner : NodeId}
    {below : List NodeId}
    (hPage : page.Linked)
    (hTop : page.contains top = true)
    (hBelow : page.descendants top = .ok below)
    (hLinked : t.Linked)
    (hOwner : t.contains owner = true) :
    ∃ shapes t',
      (page.childrenOf top).mapM page.shape = .ok shapes ∧
        t.graft owner shapes =
          .ok (t', (page.childrenOf top).map (t.copyOf below)) ∧
        CopiedBelow page top below owner t t' := by
  have hOrder := preorder_of_descendants hBelow
  have hNodup := nodup_of_descendants hPage hBelow
  rcases
    exists_plantAll hPage hOrder hNodup
      (length_le_size hNodup hOrder.live) hLinked with
    ⟨shapes, u, hShapes, hPlant, hCopied⟩
  have hGrown := plantAll_grown hLinked shapes hPlant
  rcases
    hCopied.exists_takenIn hOrder (hPage.nodup top) hLinked
      hGrown hOwner with
    ⟨v, hAppend, hTaken⟩
  refine
    ⟨shapes, v, hShapes, ?_,
      hTaken.below hPage hTop hBelow hLinked hOwner⟩
  rw [graft, bind_eq_ok_iff]
  exact ⟨_, hPlant, bind_eq_ok_iff.mpr ⟨v, hAppend, rfl⟩⟩

end Tree

end Dom

end MarkupMetrics
