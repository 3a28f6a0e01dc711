import MarkupMetrics.Proofs.Dom.Attributes
import MarkupMetrics.Proofs.Dom.Splices
import MarkupMetrics.Proofs.Dom.Vacating
import MarkupMetrics.Proofs.Html.Calls

/-
  This file proves what it does to a tree that text is put
  into a child list.

  A place for text is a cut through the list.  The text joins
  the text node before the cut, or becomes a node of its own
  there.  After that a text node stands before the cut, so
  more text joins it, and two runs of text are one.

  Key definitions include:
    * `Tree.Planted`
    * `Tree.Writes`

  Key theorems include:
    * `Tree.ext_get?`
    * `Tree.exists_appendText`
    * `Tree.exists_insertText`
    * `Tree.Writes.unique`
    * `Tree.Writes.again`
-/

namespace MarkupMetrics

namespace Dom

namespace Tree

open Outcome

------------------------------------------------------------
-- Telling trees apart
------------------------------------------------------------

/- A tree is told by its nodes and by the ids it has to give. -/
theorem ext_get?
    {t t' : Tree}
    (hSize : t'.slots.size = t.slots.size)
    (hFree : t'.free = t.free)
    (hNodes : ∀ i, t'.get? i = t.get? i) :
    t' = t := by
  have hSlots : t'.slots = t.slots := by
    apply Array.ext hSize
    intro i hFirst hSecond
    have hSame := hNodes i
    simpa [get?, hFirst, hSecond] using hSame
  cases t
  cases t'
  simp_all

/- The text of a text node. -/
def textAt?
    (t : Tree)
    (x : NodeId) : Option String :=
  (t.get? x).bind fun n =>
    match n.data with
    | .text content => some content
    | _ => none

theorem textAt?_eq_some_iff
    {t : Tree}
    {x : NodeId}
    {content : String} :
    t.textAt? x = some content ↔
      ∃ n, t.get? x = some n ∧ n.data = .text content := by
  unfold textAt?
  cases hNode : t.get? x with
  | none => simp
  | some n => cases hData : n.data <;> simp [hData]

------------------------------------------------------------
-- One node more
------------------------------------------------------------

/-
  A new leaf stands between two parts of a child list, and
  nothing else has changed.
-/
structure Planted
    (owner : NodeId)
    (front back : List NodeId)
    (data : NodeData)
    (t t' : Tree) : Prop where
  fresh : t.contains (t.upcoming 0) = false
  leaf :
    t'.get? (t.upcoming 0) =
      some
        { id := t.upcoming 0, parent := some owner
          children := [], data }
  extended :
    ∀ n, t.get? owner = some n →
      t'.get? owner =
        some { n with children := front ++ t.upcoming 0 :: back }
  others :
    ∀ i, i ≠ t.upcoming 0 → i ≠ owner → t'.get? i = t.get? i
  free : t'.free = t.free.tail
  size : t'.slots.size = max t.slots.size (t.upcoming 0 + 1)

theorem free_create
    (t : Tree)
    (data : NodeData) :
    (t.create data).1.free = t.free.tail := by
  unfold create
  cases t.free <;> rfl

theorem size_create
    {t : Tree}
    (hFree : t.FreeListed)
    (data : NodeData) :
    (t.create data).1.slots.size =
      max t.slots.size (t.upcoming 0 + 1) := by
  cases hList : t.free with
  | nil => simp [create, upcoming, hList]
  | cons id rest =>
      have hBound : id < t.slots.size :=
        hFree.inSlots id (by simp [hList])
      simp [create, upcoming, hList, Nat.max_eq_left hBound]

/- The id that comes next is not among nodes. -/
theorem filter_upcoming
    {t : Tree}
    (hLinked : t.Linked)
    {ids : List NodeId}
    (hLive : ∀ c ∈ ids, t.contains c = true) :
    ids.filter (· ∉ [t.upcoming 0]) = ids := by
  apply List.filter_eq_self.mpr
  intro c hMember
  have hApart :=
    ne_of_missing (hLive c hMember)
      (hLinked.free.vacant_upcoming 0)
  simpa using hApart

/- A new node can be put into any child list. -/
theorem movable_create
    {t : Tree}
    (hLinked : t.Linked)
    {owner : NodeId}
    (hOwner : t.contains owner = true)
    (data : NodeData) :
    (t.create data).1.Movable owner [t.upcoming 0] := by
  intro c hMember
  have hNew : c = (t.create data).2 := by
    simpa [create_id] using hMember
  have hLive := (contains_created hLinked.free data).2
  rw [hNew]
  exact ⟨hLive, hLinked.mayHold_create data hOwner hLive⟩

/- A new node can be put into its place in a child list. -/
theorem planted_of_spliced
    {t t' : Tree}
    {owner : NodeId}
    {front back : List NodeId}
    {data : NodeData}
    (hLinked : t.Linked)
    (hOwner : t.contains owner = true)
    (hSpliced :
      Spliced [t.upcoming 0] owner
        (front ++ t.upcoming 0 :: back) (t.create data).1 t') :
    Planted owner front back data t t' := by
  rcases get?_create hLinked.free data with ⟨hVacant, hRead⟩
  rw [create_id] at hVacant hRead
  have hFresh := hLinked.free.vacant_upcoming 0
  have hOther := ne_of_missing hOwner hFresh
  have hNowhere :
      ∀ q, (t.childrenOf q).filter (· ∉ [t.upcoming 0]) =
        t.childrenOf q :=
    fun q =>
      filter_upcoming hLinked fun c => hLinked.contains_child
  constructor
  · exact hFresh
  · rw [get?_eq_some_iff, hSpliced.nodes.content,
      hSpliced.parent, if_pos List.mem_cons_self,
      hSpliced.others _ hOther.symm,
      childrenOf_create hLinked.free, hNowhere]
    simp [contentOf?, hRead, childrenOf, hVacant]
  · intro n hNode
    rw [get?_eq_some_iff, hSpliced.nodes.content,
      hSpliced.parent, hSpliced.listed]
    simp [contentOf?, parent?, hRead, hOther, hNode]
  · intro i hApart hElse
    have hOutside : i ∉ [t.upcoming 0] := by simpa using hApart
    have hStill : (t.create data).1.get? i = t.get? i := by
      rw [hRead, if_neg hApart]
    rw [← hStill]
    apply get?_congr (hSpliced.nodes.content i)
    · rw [hSpliced.parent, if_neg hOutside]
    · rw [hSpliced.others i hElse,
        childrenOf_create hLinked.free, hNowhere]
  · rw [hSpliced.nodes.free, free_create]
  · rw [hSpliced.nodes.size, size_create hLinked.free]

namespace Planted

variable {t t' u : Tree}
variable {owner : NodeId}
variable {front back : List NodeId}
variable {data : NodeData}

/- Nothing is left open about the tree after that. -/
theorem unique
    (hFirst : Planted owner front back data t t')
    (hSecond : Planted owner front back data t u)
    (hOwner : t.contains owner = true) :
    t' = u := by
  rcases contains_iff.mp hOwner with ⟨n, hNode⟩
  apply ext_get?
  · rw [hFirst.size, hSecond.size]
  · rw [hFirst.free, hSecond.free]
  · intro i
    by_cases hNew : i = t.upcoming 0
    · rw [hNew, hFirst.leaf, hSecond.leaf]
    · by_cases hSame : i = owner
      · rw [hSame, hFirst.extended n hNode,
          hSecond.extended n hNode]
      · rw [hFirst.others i hNew hSame,
          hSecond.others i hNew hSame]

/- The new leaf can be given other data. -/
theorem put_leaf
    (hPlanted : Planted owner front back data t t')
    {data' : NodeData}
    (hTree :
      u =
        t'.put (t.upcoming 0)
          { id := t.upcoming 0, parent := some owner
            children := [], data := data' }) :
    Planted owner front back data' t u := by
  have hLive := contains_of_get? hPlanted.leaf
  have hRead := get?_put hLive
    { id := t.upcoming 0, parent := some owner
      children := [], data := data' }
  rw [hTree]
  constructor
  · exact hPlanted.fresh
  · rw [hRead, if_pos rfl]
  · intro n hNode
    have hOther : owner ≠ t.upcoming 0 := by
      rintro hSame
      rw [hSame, not_contains_iff.mp hPlanted.fresh] at hNode
      cases hNode
    rw [hRead, if_neg hOther]
    exact hPlanted.extended n hNode
  · intro i hNew hOther
    rw [hRead, if_neg hNew]
    exact hPlanted.others i hNew hOther
  · exact hPlanted.free
  · rw [put, Array.size_setIfInBounds]
    exact hPlanted.size

end Planted

------------------------------------------------------------
-- Text before a cut
------------------------------------------------------------

/-
  Text was put into a cut through the child list of a node.
  It has joined the text node before the cut, or is a node of
  its own if there is none.
-/
inductive Writes
    (owner : NodeId)
    (front back : List NodeId)
    (text : String)
    (t t' : Tree) : Prop where
  | joined
      (last : NodeId)
      (n : Node)
      (content : String)
      (hLast : front.getLast? = some last)
      (hNode : t.get? last = some n)
      (hText : n.data = .text content)
      (hTree :
        t' =
          t.put last { n with data := .text (content ++ text) })
  | made
      (hNone :
        ∀ last, front.getLast? = some last →
          t.textAt? last = none)
      (hPlanted : Planted owner front back (.text text) t t')

/- Text joins a node if that is a text node. -/
theorem joinText?_cases
    {t : Tree}
    {before : Option NodeId}
    (hLive : ∀ x, before = some x → t.contains x = true)
    (text : String) :
    (∃ x n content,
        before = some x ∧ t.get? x = some n ∧
          n.data = .text content ∧
          t.joinText? before text =
            .ok
              (some
                (t.put x
                  { n with data := .text (content ++ text) }))) ∨
      (∀ x, before = some x → t.textAt? x = none) ∧
        t.joinText? before text = .ok none := by
  cases before with
  | none => exact Or.inr ⟨by simp, rfl⟩
  | some x =>
      rcases contains_iff.mp (hLive x rfl) with ⟨n, hNode⟩
      cases hData : n.data with
      | text content =>
          refine
            Or.inl ⟨x, n, content, rfl, hNode, hData, ?_⟩
          rw [joinText?, appendText?, node_eq_ok_iff.mpr hNode,
            ok_bind, hData]
          rfl
      | _ =>
          refine Or.inr ⟨?_, ?_⟩
          · intro y hSame
            cases hSame
            simp [textAt?, hNode, hData]
          · rw [joinText?, appendText?,
              node_eq_ok_iff.mpr hNode, ok_bind, hData]
            rfl

/- The sibling before a child is the one listed before it. -/
theorem previousSibling?_eq
    {t : Tree}
    {owner s : NodeId}
    {front rest : List NodeId}
    (hLinked : t.Linked)
    (hChildren : t.childrenOf owner = front ++ s :: rest) :
    t.previousSibling? s = .ok front.getLast? := by
  have hMember : s ∈ t.childrenOf owner := by simp [hChildren]
  have hParent := (hLinked.listed s owner).mp hMember
  have hNodup := hLinked.nodup owner
  rw [hChildren] at hNodup
  have hFront : s ∉ front := fun h =>
    (List.nodup_append.mp hNodup).2.2 s h s
      List.mem_cons_self rfl
  rcases contains_iff.mp (hLinked.contains_child hMember) with
    ⟨n, hNode⟩
  rcases
    contains_iff.mp (contains_of_mem_childrenOf hMember) with
    ⟨p, hOwner⟩
  rw [parent?_of_get? hNode] at hParent
  rw [childrenOf_of_get? hOwner] at hChildren
  have hIndex : p.indexOf? s = some front.length := by
    rw [Node.indexOf?, hChildren, List.findIdx?_append]
    have hNone : front.findIdx? (· == s) = none := by
      rw [List.findIdx?_eq_none_iff]
      intro x hInside
      have hApart : x ≠ s := fun h => hFront (h ▸ hInside)
      simpa using hApart
    simp [hNone, List.findIdx?_cons]
  rw [previousSibling?, node_eq_ok_iff.mpr hNode, ok_bind,
    hParent]
  simp only [node_eq_ok_iff.mpr hOwner, ok_bind, hIndex]
  rw [hChildren]
  cases hLength : front.length with
  | zero =>
      have hEmpty := List.length_eq_zero_iff.mp hLength
      simp [hEmpty, pure, Except.pure]
  | succ k =>
      have hLess : k < front.length := by omega
      have hPlace : front.length - 1 = k := by omega
      simp only [List.getElem?_append_left hLess,
        List.getLast?_eq_getElem?, hPlace]
      rfl

/-
  Text that joins what stands before a cut, or is moved into
  the cut, is written there.
-/
theorem exists_writes_of_move
    {t : Tree}
    {owner : NodeId}
    {front back : List NodeId}
    (hLinked : t.Linked)
    (hOwner : t.contains owner = true)
    (hChildren : t.childrenOf owner = front ++ back)
    (text : String)
    {move : Tree → NodeId → Except Fault Tree}
    (hMove :
      ∃ t',
        move (t.create (.text text)).1 (t.upcoming 0) = .ok t' ∧
          Spliced [t.upcoming 0] owner
            (front ++ t.upcoming 0 :: back)
            (t.create (.text text)).1 t') :
    ∃ t', t.putText front.getLast? text move = .ok t' ∧
      Writes owner front back text t t' := by
  have hFront :
      ∀ x, front.getLast? = some x → t.contains x = true := by
    intro x hLast
    apply hLinked.contains_child (p := owner)
    rw [hChildren]
    exact List.mem_append_left _ (List.mem_of_getLast? hLast)
  rcases joinText?_cases hFront text with
    ⟨x, n, content, hLast, hNode, hText, hJoin⟩ | ⟨hNone, hJoin⟩
  · refine ⟨_, ?_, .joined x n content hLast hNode hText rfl⟩
    rw [putText, hJoin]
    rfl
  · rcases hMove with ⟨t', hRun, hSpliced⟩
    refine
      ⟨t', ?_,
        .made hNone (planted_of_spliced hLinked hOwner hSpliced)⟩
    rw [putText, hJoin, ok_bind, ← hRun,
      ← create_id t (.text text)]

/- Text can be put at the end of a child list. -/
theorem exists_appendText
    {t : Tree}
    {owner : NodeId}
    (hLinked : t.Linked)
    (hOwner : t.contains owner = true)
    (text : String) :
    ∃ t', t.appendContent owner (.text text) = .ok t' ∧
      Writes owner (t.childrenOf owner) [] text t t' := by
  rw [appendContent_text (lastChild?_eq hOwner)]
  apply
    exists_writes_of_move hLinked hOwner
      (List.append_nil _).symm text
  rcases
    exists_append (hLinked.create (.text text))
      (contains_create _ hOwner)
      (movable_create hLinked hOwner (.text text)) with
    ⟨t', hDone, hSpliced⟩
  refine ⟨t', hDone, ?_⟩
  rw [childrenOf_create hLinked.free,
    filter_upcoming hLinked fun c => hLinked.contains_child]
    at hSpliced
  exact hSpliced

/- Text can be put before a child. -/
theorem exists_insertText
    {t : Tree}
    {owner sibling : NodeId}
    {front rest : List NodeId}
    (hLinked : t.Linked)
    (hChildren : t.childrenOf owner = front ++ sibling :: rest)
    (text : String) :
    ∃ t', t.insertContentBefore sibling (.text text) = .ok t' ∧
      Writes owner front (sibling :: rest) text t t' := by
  have hMember : sibling ∈ t.childrenOf owner := by
    simp [hChildren]
  have hOwner := contains_of_mem_childrenOf hMember
  have hLive := hLinked.contains_child hMember
  rw [insertContentBefore_text
    (previousSibling?_eq hLinked hChildren)]
  apply exists_writes_of_move hLinked hOwner hChildren text
  have hOutside : sibling ∉ [t.upcoming 0] := by
    intro hSame
    rw [List.mem_singleton.mp hSame,
      hLinked.free.vacant_upcoming 0] at hLive
    cases hLive
  have hSame :
      ((t.create (.text text)).1).childrenOf owner =
        front ++ sibling :: rest := by
    rw [childrenOf_create hLinked.free, hChildren]
  rcases
    exists_insertBefore (hLinked.create (.text text)) hSame
      hOutside (movable_create hLinked hOwner (.text text)) with
    ⟨t', hDone, hSpliced⟩
  refine ⟨t', hDone, ?_⟩
  have hLiveAll : ∀ c ∈ front ++ sibling :: rest,
      t.contains c = true := by
    rw [← hChildren]
    exact fun c => hLinked.contains_child
  rw [filter_upcoming hLinked fun c hInside =>
      hLiveAll c (by simp [hInside]),
    filter_upcoming hLinked fun c hInside =>
      hLiveAll c (by simp [hInside])] at hSpliced
  simpa using hSpliced

------------------------------------------------------------
-- Text after text
------------------------------------------------------------

namespace Writes

variable {t u v : Tree}
variable {owner : NodeId}
variable {front back : List NodeId}
variable {first second text : String}

/- What text does is settled by the place and the text. -/
theorem unique
    (hOne : Writes owner front back text t u)
    (hOther : Writes owner front back text t v)
    (hOwner : t.contains owner = true) :
    u = v := by
  cases hOne with
  | joined last n content hLast hNode hText hTree =>
      cases hOther with
      | joined last' n' content' hLast' hNode' hText' hTree' =>
          rw [hLast] at hLast'
          cases hLast'
          rw [hNode] at hNode'
          cases hNode'
          rw [hText] at hText'
          cases hText'
          rw [hTree, hTree']
      | made hNone _ =>
          have hThere :=
            textAt?_eq_some_iff.mpr ⟨n, hNode, hText⟩
          simp [hNone last hLast] at hThere
  | made hNone hPlanted =>
      cases hOther with
      | joined last n content hLast hNode hText _ =>
          have hThere :=
            textAt?_eq_some_iff.mpr ⟨n, hNode, hText⟩
          simp [hNone last hLast] at hThere
      | made _ hPlanted' =>
          exact hPlanted.unique hPlanted' hOwner

/- A node that was there keeps its parent. -/
theorem kept
    (hWrites : Writes owner front back text t u)
    {i : NodeId}
    (hLive : t.contains i = true) :
    u.contains i = true ∧ u.parent? i = t.parent? i := by
  cases hWrites with
  | joined last n content _ hNode _ hTree =>
      have hSame :=
        SameLinks.put hNode (.text (content ++ text))
      rw [hTree]
      exact ⟨(hSame.contains i).trans hLive, hSame.parent i⟩
  | made _ hPlanted =>
      have hOld := ne_of_missing hLive hPlanted.fresh
      rcases contains_iff.mp hLive with ⟨n, hNode⟩
      by_cases hSame : i = owner
      · subst hSame
        have hRead := hPlanted.extended n hNode
        exact
          ⟨contains_of_get? hRead,
            (parent?_of_get? hRead).trans
              (parent?_of_get? hNode).symm⟩
      · have hRead := hPlanted.others i hOld hSame
        rw [contains, parent?, parent?, hRead]
        exact ⟨hLive, rfl⟩

/-
  After text was put before a cut, a text node stands there.
  More text joins that one, and it is as if all the text had
  come at once.
-/
theorem again
    (hWrites : Writes owner front back first t u)
    (hOwner : t.contains owner = true)
    (hChildren : t.childrenOf owner = front ++ back) :
    ∃ front',
      u.childrenOf owner = front' ++ back ∧
        ∀ second v, Writes owner front' back second u v →
          Writes owner front back (first ++ second) t v := by
  cases hWrites with
  | joined last n content hLast hNode hText hTree =>
      have hSame :=
        SameLinks.put hNode (.text (content ++ first))
      have hRead :
          u.get? last =
            some { n with data := .text (content ++ first) } := by
        rw [hTree, get?_put_self hNode]
      refine
        ⟨front, by rw [hTree, hSame.children, hChildren], ?_⟩
      intro second v hMore
      cases hMore with
      | joined last' n' content' hLast' hNode' hText' hTree' =>
          rw [hLast] at hLast'
          cases hLast'
          rw [hRead] at hNode'
          cases hNode'
          cases hText'
          refine .joined last n content hLast hNode hText ?_
          rw [hTree', hTree, put_put, String.append_assoc]
      | made hNone _ =>
          have hThere :=
            textAt?_eq_some_iff.mpr ⟨_, hRead, rfl⟩
          simp [hNone last hLast] at hThere
  | made hNone hPlanted =>
      rcases contains_iff.mp hOwner with ⟨p, hParent⟩
      have hLast :
          (front ++ [t.upcoming 0]).getLast? =
            some (t.upcoming 0) := by
        simp
      refine ⟨front ++ [t.upcoming 0], ?_, ?_⟩
      · rw [childrenOf_of_get? (hPlanted.extended p hParent)]
        simp
      · intro second v hMore
        cases hMore with
        | made hNone' _ =>
            have hThere :=
              textAt?_eq_some_iff.mpr ⟨_, hPlanted.leaf, rfl⟩
            simp [hNone' _ hLast] at hThere
        | joined last' n' content' hLast' hNode' hText' hTree' =>
            rw [hLast] at hLast'
            cases hLast'
            rw [hPlanted.leaf] at hNode'
            cases hNode'
            cases hText'
            exact .made hNone (hPlanted.put_leaf hTree')

end Writes

end Tree

end Dom

end MarkupMetrics
