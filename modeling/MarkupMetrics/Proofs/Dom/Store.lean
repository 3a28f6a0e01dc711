import MarkupMetrics.Dom.Edit
import MarkupMetrics.Dom.Kin
import MarkupMetrics.Proofs.Outcome

/-
  This file describes the store of nodes by what can be read
  from it: the node with an id, its parent, its child list
  and its content.

  Every later statement about trees is made in these terms,
  so the slots themselves are looked at only here.

  Key definitions include:
    * `Tree.contentOf?`
    * `Tree.FreeListed`
    * `Tree.SameNodes`
    * `Tree.SameLinks`

  Key theorems include:
    * `Tree.get?_modify`
    * `Tree.get?_create`
    * `Tree.get?_release`
-/

namespace MarkupMetrics

namespace Dom

namespace Tree

------------------------------------------------------------
-- Reading
------------------------------------------------------------

/- The id and the data that a node carries. -/
def contentOf?
    (t : Tree)
    (id : NodeId) : Option (NodeId × NodeData) :=
  (t.get? id).map fun n => (n.id, n.data)

theorem node_eq_ok_iff
    {t : Tree}
    {id : NodeId}
    {n : Node} :
    t.node id = .ok n ↔ t.get? id = some n := by
  unfold node
  cases t.get? id <;> simp

theorem contains_iff
    {t : Tree}
    {id : NodeId} :
    t.contains id = true ↔ ∃ n, t.get? id = some n := by
  simp [contains, Option.isSome_iff_exists]

theorem not_contains_iff
    {t : Tree}
    {id : NodeId} :
    t.contains id = false ↔ t.get? id = none := by
  simp [contains]

/- A node that is there is not one that is missing. -/
theorem ne_of_missing
    {t : Tree}
    {i j : NodeId}
    (hLive : t.contains i = true)
    (hMissing : t.contains j = false) :
    i ≠ j := by
  rintro rfl
  rw [hMissing] at hLive
  cases hLive

theorem contains_of_get?
    {t : Tree}
    {id : NodeId}
    {n : Node}
    (hNode : t.get? id = some n) :
    t.contains id = true :=
  contains_iff.mpr ⟨n, hNode⟩

theorem parent?_of_get?
    {t : Tree}
    {id : NodeId}
    {n : Node}
    (hNode : t.get? id = some n) :
    t.parent? id = n.parent := by
  simp [parent?, hNode]

theorem childrenOf_of_get?
    {t : Tree}
    {id : NodeId}
    {n : Node}
    (hNode : t.get? id = some n) :
    t.childrenOf id = n.children := by
  simp [childrenOf, hNode]

theorem contentOf?_of_get?
    {t : Tree}
    {id : NodeId}
    {n : Node}
    (hNode : t.get? id = some n) :
    t.contentOf? id = some (n.id, n.data) := by
  simp [contentOf?, hNode]

/- A node is told by its content and its links. -/
theorem get?_eq_some_iff
    {t : Tree}
    {id : NodeId}
    {n : Node} :
    t.get? id = some n ↔
      t.contentOf? id = some (n.id, n.data) ∧
        t.parent? id = n.parent ∧
        t.childrenOf id = n.children := by
  constructor
  · intro hNode
    exact
      ⟨contentOf?_of_get? hNode, parent?_of_get? hNode,
        childrenOf_of_get? hNode⟩
  · rintro ⟨hContent, hParent, hChildren⟩
    rcases Option.map_eq_some_iff.mp hContent with
      ⟨m, hNode, hPair⟩
    rw [parent?_of_get? hNode] at hParent
    rw [childrenOf_of_get? hNode] at hChildren
    cases m
    cases n
    cases hPair
    cases hParent
    cases hChildren
    exact hNode

/- What a node knows is its id, its data and its links. -/
theorem get?_eq_mk
    {t : Tree}
    {i : NodeId}
    {data : NodeData}
    (hContent : t.contentOf? i = some (i, data)) :
    t.get? i = some ⟨i, t.parent? i, t.childrenOf i, data⟩ :=
  get?_eq_some_iff.mpr ⟨hContent, rfl, rfl⟩

/- Where nothing has changed a node has its old links. -/
theorem links_of_get?
    {t t' : Tree}
    {i : NodeId}
    (hSame : t'.get? i = t.get? i) :
    t'.contentOf? i = t.contentOf? i ∧
      t'.parent? i = t.parent? i ∧
      t'.childrenOf i = t.childrenOf i := by
  simp [contentOf?, parent?, childrenOf, hSame]

/- Only a node has a parent. -/
theorem contains_of_parent?
    {t : Tree}
    {id p : NodeId}
    (hParent : t.parent? id = some p) :
    t.contains id = true := by
  rcases Option.bind_eq_some_iff.mp hParent with ⟨n, hNode, _⟩
  exact contains_of_get? hNode

/- Only a node has children. -/
theorem contains_of_mem_childrenOf
    {t : Tree}
    {id c : NodeId}
    (hChild : c ∈ t.childrenOf id) :
    t.contains id = true := by
  cases hNode : t.get? id with
  | none => simp [childrenOf, hNode] at hChild
  | some n => exact contains_of_get? hNode

theorem contains_iff_contentOf?
    {t : Tree}
    {id : NodeId} :
    t.contains id = (t.contentOf? id).isSome := by
  simp [contains, contentOf?]

/- A node with the same content has the same data. -/
theorem exists_same_data
    {t t' : Tree}
    {i : NodeId}
    {n : Node}
    (hContent : t'.contentOf? i = t.contentOf? i)
    (hNode : t.get? i = some n) :
    ∃ n', t'.get? i = some n' ∧ n'.data = n.data := by
  rw [contentOf?_of_get? hNode, contentOf?,
    Option.map_eq_some_iff] at hContent
  rcases hContent with ⟨n', hNode', hPair⟩
  exact ⟨n', hNode', congrArg Prod.snd hPair⟩

/- What is read from an id is told by its content and links. -/
theorem get?_congr
    {t t' : Tree}
    {i : NodeId}
    (hContent : t'.contentOf? i = t.contentOf? i)
    (hParent : t'.parent? i = t.parent? i)
    (hChildren : t'.childrenOf i = t.childrenOf i) :
    t'.get? i = t.get? i := by
  cases hNode : t.get? i with
  | none =>
      rw [← not_contains_iff, contains_iff_contentOf?, hContent,
        ← contains_iff_contentOf?]
      exact not_contains_iff.mpr hNode
  | some n =>
      rcases get?_eq_some_iff.mp hNode with
        ⟨hOldContent, hOldParent, hOldChildren⟩
      rw [get?_eq_some_iff, hContent, hParent, hChildren]
      exact ⟨hOldContent, hOldParent, hOldChildren⟩

/- An id with a node is one of the slots. -/
theorem lt_size_of_contains
    {t : Tree}
    {id : NodeId}
    (hLive : t.contains id = true) :
    id < t.slots.size := by
  by_contra hBeyond
  have hNone : t.slots[id]? = none := by
    rw [Array.getElem?_eq_none_iff]
    exact Nat.le_of_not_lt hBeyond
  simp [contains, get?, hNone] at hLive

------------------------------------------------------------
-- Changing a node
------------------------------------------------------------

theorem get?_put
    {t : Tree}
    {id : NodeId}
    (hLive : t.contains id = true)
    (n : Node)
    (i : NodeId) :
    (t.put id n).get? i =
      if i = id then some n else t.get? i := by
  have hBound := lt_size_of_contains hLive
  by_cases hSame : i = id
  · subst hSame
    simp [put, get?, hBound]
  · have hOther : id ≠ i := fun h => hSame h.symm
    simp [put, get?, hSame, hOther]

theorem get?_modify
    (t : Tree)
    (id : NodeId)
    (f : Node → Node)
    (i : NodeId) :
    (t.modify id f).get? i =
      if i = id then (t.get? i).map f else t.get? i := by
  unfold modify
  cases hNode : t.get? id with
  | none =>
      by_cases hSame : i = id
      · subst hSame
        simp [hNode]
      · simp [hSame]
  | some n =>
      rw [get?_put (contains_of_get? hNode)]
      by_cases hSame : i = id
      · subst hSame
        simp [hNode]
      · simp [hSame]

@[simp] theorem free_modify
    (t : Tree)
    (id : NodeId)
    (f : Node → Node) :
    (t.modify id f).free = t.free := by
  unfold modify
  cases t.get? id <;> rfl

@[simp] theorem size_modify
    (t : Tree)
    (id : NodeId)
    (f : Node → Node) :
    (t.modify id f).slots.size = t.slots.size := by
  unfold modify
  cases t.get? id <;> simp [put]

theorem parent?_setParent
    (t : Tree)
    (id : NodeId)
    (parent : Option NodeId)
    (i : NodeId) :
    (t.setParent id parent).parent? i =
      if i = id ∧ t.contains id = true then parent
      else t.parent? i := by
  unfold parent? setParent
  rw [get?_modify]
  by_cases hSame : i = id
  · subst hSame
    cases hNode : t.get? i <;> simp [contains, hNode]
  · simp [hSame]

@[simp] theorem childrenOf_setParent
    (t : Tree)
    (id : NodeId)
    (parent : Option NodeId)
    (i : NodeId) :
    (t.setParent id parent).childrenOf i = t.childrenOf i := by
  unfold childrenOf setParent
  rw [get?_modify]
  by_cases hSame : i = id
  · subst hSame
    cases t.get? i <;> simp
  · simp [hSame]

@[simp] theorem contentOf?_setParent
    (t : Tree)
    (id : NodeId)
    (parent : Option NodeId)
    (i : NodeId) :
    (t.setParent id parent).contentOf? i = t.contentOf? i := by
  unfold contentOf? setParent
  rw [get?_modify]
  by_cases hSame : i = id
  · subst hSame
    cases t.get? i <;> simp
  · simp [hSame]

theorem childrenOf_setChildren
    (t : Tree)
    (id : NodeId)
    (children : List NodeId)
    (i : NodeId) :
    (t.setChildren id children).childrenOf i =
      if i = id ∧ t.contains id = true then children
      else t.childrenOf i := by
  unfold childrenOf setChildren
  rw [get?_modify]
  by_cases hSame : i = id
  · subst hSame
    cases hNode : t.get? i <;> simp [contains, hNode]
  · simp [hSame]

@[simp] theorem parent?_setChildren
    (t : Tree)
    (id : NodeId)
    (children : List NodeId)
    (i : NodeId) :
    (t.setChildren id children).parent? i = t.parent? i := by
  unfold parent? setChildren
  rw [get?_modify]
  by_cases hSame : i = id
  · subst hSame
    cases t.get? i <;> simp
  · simp [hSame]

@[simp] theorem contentOf?_setChildren
    (t : Tree)
    (id : NodeId)
    (children : List NodeId)
    (i : NodeId) :
    (t.setChildren id children).contentOf? i =
      t.contentOf? i := by
  unfold contentOf? setChildren
  rw [get?_modify]
  by_cases hSame : i = id
  · subst hSame
    cases t.get? i <;> simp
  · simp [hSame]

/- Taking a child out sets the child list to what is left. -/
theorem dropChild_eq
    (t : Tree)
    (parent child : NodeId) :
    t.dropChild parent child =
      t.setChildren parent
        ((t.childrenOf parent).filter (· != child)) := by
  unfold dropChild setChildren modify childrenOf
  cases t.get? parent <;> rfl

@[simp] theorem parent?_dropChild
    (t : Tree)
    (parent child i : NodeId) :
    (t.dropChild parent child).parent? i = t.parent? i := by
  rw [dropChild_eq, parent?_setChildren]

theorem childrenOf_dropChild
    {t : Tree}
    {parent : NodeId}
    (hLive : t.contains parent = true)
    (child i : NodeId) :
    (t.dropChild parent child).childrenOf i =
      if i = parent then
        (t.childrenOf parent).filter (· != child)
      else t.childrenOf i := by
  rw [dropChild_eq, childrenOf_setChildren]
  simp [hLive]

------------------------------------------------------------
-- Making and giving back
------------------------------------------------------------

/- The free list names slots without a node, each once. -/
structure FreeListed
    (t : Tree) : Prop where
  vacant : ∀ i ∈ t.free, t.get? i = none
  inSlots : ∀ i ∈ t.free, i < t.slots.size
  nodup : t.free.Nodup

/- A new node takes an id without a node, and nothing else changes. -/
theorem get?_create
    {t : Tree}
    (hFree : t.FreeListed)
    (data : NodeData) :
    t.get? (t.create data).2 = none ∧
      ∀ i, (t.create data).1.get? i =
        if i = (t.create data).2 then
          some { id := (t.create data).2, data }
        else t.get? i := by
  unfold create
  cases hList : t.free with
  | nil =>
      constructor
      · simp [get?]
      · intro i
        by_cases hSame : i = t.slots.size
        · simp [get?, hSame]
        · simp [get?, Array.getElem?_push, hSame]
  | cons id rest =>
      have hMember : id ∈ t.free := by simp [hList]
      refine ⟨hFree.vacant id hMember, ?_⟩
      intro i
      have hBound := hFree.inSlots id hMember
      by_cases hSame : i = id
      · subst hSame
        simp [get?, hBound]
      · have hOther : id ≠ i := fun h => hSame h.symm
        simp [get?, hSame, hOther]

/- Its id was free, and it is there. -/
theorem contains_created
    {t : Tree}
    (hFree : t.FreeListed)
    (data : NodeData) :
    t.contains (t.create data).2 = false ∧
      (t.create data).1.contains (t.create data).2 = true := by
  rcases get?_create hFree data with ⟨hVacant, hRead⟩
  exact
    ⟨not_contains_iff.mpr hVacant,
      contains_of_get? ((hRead _).trans (if_pos rfl))⟩

theorem freeListed_create
    {t : Tree}
    (hFree : t.FreeListed)
    (data : NodeData) :
    (t.create data).1.FreeListed := by
  have hRead := get?_create hFree data
  cases hList : t.free with
  | nil =>
      have hEmpty : (t.create data).1.free = [] := by
        simp [create, hList]
      constructor <;> simp [hEmpty]
  | cons id rest =>
      have hId : (t.create data).2 = id := by
        simp [create, hList]
      have hRest : (t.create data).1.free = rest := by
        simp [create, hList]
      have hSize :
          (t.create data).1.slots.size = t.slots.size := by
        simp [create, hList]
      have hNodup : (id :: rest).Nodup := hList ▸ hFree.nodup
      constructor
      · intro i hMember
        rw [hRest] at hMember
        have hOther : i ≠ id := by
          rintro rfl
          exact (List.nodup_cons.mp hNodup).1 hMember
        rw [hRead.2 i, hId, if_neg hOther]
        exact hFree.vacant i (by simp [hList, hMember])
      · intro i hMember
        rw [hRest] at hMember
        rw [hSize]
        exact hFree.inSlots i (by simp [hList, hMember])
      · rw [hRest]
        exact (List.nodup_cons.mp hNodup).2

/- Making a node takes no node away. -/
theorem contains_create
    {t : Tree}
    (data : NodeData)
    {i : NodeId}
    (hLive : t.contains i = true) :
    (t.create data).1.contains i = true := by
  have hBound := lt_size_of_contains hLive
  rw [contains_iff] at hLive ⊢
  rcases hLive with ⟨n, hNode⟩
  unfold create
  cases hList : t.free with
  | nil =>
      refine ⟨n, ?_⟩
      have hOther : i ≠ t.slots.size := Nat.ne_of_lt hBound
      simpa [get?, Array.getElem?_push, hOther] using hNode
  | cons id rest =>
      by_cases hSame : i = id
      · subst hSame
        exact ⟨{ id := i, data }, by simp [get?, hBound]⟩
      · have hOther : id ≠ i := fun h => hSame h.symm
        exact ⟨n, by simpa [get?, hOther] using hNode⟩

theorem get?_release
    (t : Tree)
    (id i : NodeId) :
    (t.release id).get? i =
      if i = id then none else t.get? i := by
  by_cases hSame : i = id
  · subst hSame
    by_cases hBound : i < t.slots.size
    · simp [release, get?, hBound]
    · simp [release, get?, hBound]
  · have hOther : id ≠ i := fun h => hSame h.symm
    simp [release, get?, hSame, hOther]

theorem freeListed_release
    {t : Tree}
    {id : NodeId}
    (hFree : t.FreeListed)
    (hLive : t.contains id = true) :
    (t.release id).FreeListed := by
  have hNew : id ∉ t.free := by
    intro hMember
    have hVacant := hFree.vacant id hMember
    simp [contains, hVacant] at hLive
  constructor
  · intro i hMember
    rw [get?_release]
    by_cases hSame : i = id
    · simp [hSame]
    · have hOld : i ∈ t.free := by
        simpa [release, hSame] using hMember
      simpa [hSame] using hFree.vacant i hOld
  · intro i hMember
    have hCases : i = id ∨ i ∈ t.free := by
      simpa [release] using hMember
    rcases hCases with rfl | hOld
    · simpa [release] using lt_size_of_contains hLive
    · simpa [release] using hFree.inSlots i hOld
  · simpa [release] using ⟨hNew, hFree.nodup⟩

------------------------------------------------------------
-- What edits leave alone
------------------------------------------------------------

/- The same ids hold nodes with the same content. -/
structure SameNodes
    (t t' : Tree) : Prop where
  content : ∀ i, t'.contentOf? i = t.contentOf? i
  free : t'.free = t.free
  size : t'.slots.size = t.slots.size

/- The same ids hold nodes, and stand in the same places. -/
structure SameLinks
    (t t' : Tree) : Prop where
  contains : ∀ i, t'.contains i = t.contains i
  ids : ∀ i, (t'.get? i).map (·.id) = (t.get? i).map (·.id)
  parent : ∀ i, t'.parent? i = t.parent? i
  children : ∀ i, t'.childrenOf i = t.childrenOf i
  free : t'.free = t.free
  size : t'.slots.size = t.slots.size

namespace SameNodes

theorem refl
    (t : Tree) :
    SameNodes t t :=
  ⟨fun _ => rfl, rfl, rfl⟩

theorem trans
    {t u v : Tree}
    (hFirst : SameNodes t u)
    (hSecond : SameNodes u v) :
    SameNodes t v where
  content i := (hSecond.content i).trans (hFirst.content i)
  free := hSecond.free.trans hFirst.free
  size := hSecond.size.trans hFirst.size

theorem contains
    {t t' : Tree}
    (hSame : SameNodes t t')
    (i : NodeId) :
    t'.contains i = t.contains i := by
  rw [contains_iff_contentOf?, contains_iff_contentOf?,
    hSame.content]

theorem setParent
    (t : Tree)
    (id : NodeId)
    (parent : Option NodeId) :
    SameNodes t (t.setParent id parent) where
  content := contentOf?_setParent t id parent
  free := free_modify t id _
  size := size_modify t id _

theorem setChildren
    (t : Tree)
    (id : NodeId)
    (children : List NodeId) :
    SameNodes t (t.setChildren id children) where
  content := contentOf?_setChildren t id children
  free := free_modify t id _
  size := size_modify t id _

theorem freeListed
    {t t' : Tree}
    (hSame : SameNodes t t')
    (hFree : t.FreeListed) :
    t'.FreeListed where
  vacant i hMember := by
    rw [← not_contains_iff, hSame.contains, not_contains_iff]
    exact hFree.vacant i (hSame.free ▸ hMember)
  inSlots i hMember := by
    rw [hSame.size]
    exact hFree.inSlots i (hSame.free ▸ hMember)
  nodup := hSame.free ▸ hFree.nodup

end SameNodes

namespace SameLinks

theorem refl
    (t : Tree) :
    SameLinks t t :=
  ⟨fun _ => rfl, fun _ => rfl, fun _ => rfl, fun _ => rfl,
    rfl, rfl⟩

/- Giving a node other data leaves all links alone. -/
theorem put
    {t : Tree}
    {id : NodeId}
    {n : Node}
    (hNode : t.get? id = some n)
    (data : NodeData) :
    SameLinks t (t.put id { n with data }) := by
  have hRead := get?_put (contains_of_get? hNode)
    { n with data }
  constructor
  · intro i
    by_cases hSame : i = id
    · subst hSame
      simp [Tree.contains, hRead, hNode]
    · simp [Tree.contains, hRead, hSame]
  · intro i
    by_cases hSame : i = id
    · subst hSame
      simp [hRead, hNode]
    · simp [hRead, hSame]
  · intro i
    by_cases hSame : i = id
    · subst hSame
      simp [parent?, hRead, hNode]
    · simp [parent?, hRead, hSame]
  · intro i
    by_cases hSame : i = id
    · subst hSame
      simp [childrenOf, hRead, hNode]
    · simp [childrenOf, hRead, hSame]
  · rfl
  · simp [Tree.put]

theorem freeListed
    {t t' : Tree}
    (hSame : SameLinks t t')
    (hFree : t.FreeListed) :
    t'.FreeListed where
  vacant i hMember := by
    rw [← not_contains_iff, hSame.contains, not_contains_iff]
    exact hFree.vacant i (hSame.free ▸ hMember)
  inSlots i hMember := by
    rw [hSame.size]
    exact hFree.inSlots i (hSame.free ▸ hMember)
  nodup := hSame.free ▸ hFree.nodup

end SameLinks

end Tree

end Dom

end MarkupMetrics
