import MarkupMetrics.Proofs.Dom.Growth

/-
  This file says what all edits but removals are made of: a
  node is added, the nodes are linked in another way, or a
  node gets other attributes or another text.

  What these three keep is kept by every such edit.  The nodes
  are still there, each is the kind of node that it was, and
  the free list is in order.

  Key definitions include:
    * `NodeKind`
    * `Tree.kindOf?`
    * `Tree.Touch`
    * `Tree.Touched`

  Key theorems include:
    * `Tree.Touched.keeps`
    * `Tree.Touched.freeListed`
    * `Tree.Touched.kindOf?_eq`
    * `Tree.touched_of_graft`
-/

namespace MarkupMetrics

namespace Dom

------------------------------------------------------------
-- Kinds
------------------------------------------------------------

/- What a node is, but for its attributes or its text. -/
inductive NodeKind where
  | document
  | element (name : QualName)
  | text
  | comment
deriving DecidableEq, Repr

/- The kind of a node with certain data. -/
def NodeData.kind : NodeData → NodeKind
  | .document => .document
  | .element e => .element e.name
  | .text _ => .text
  | .comment => .comment

/- Only the document node is of its kind. -/
theorem NodeData.kind_eq_document_iff
    {data : NodeData} :
    data.kind = .document ↔ data = .document := by
  cases data <;> simp [kind]

namespace Tree

open Outcome

/- The kind of the node with an id. -/
def kindOf?
    (t : Tree)
    (id : NodeId) : Option NodeKind :=
  (t.get? id).map (·.data.kind)

/- It can be told from the content of the node. -/
theorem kindOf?_eq_contentOf?
    (t : Tree)
    (id : NodeId) :
    t.kindOf? id = (t.contentOf? id).map (·.2.kind) := by
  rw [kindOf?, contentOf?, Option.map_map]
  rfl

------------------------------------------------------------
-- Touching
------------------------------------------------------------

/-
  One part of an edit: a node is added, the same nodes are
  linked in another way, or a node gets other data of its
  kind.
-/
inductive Touch : Tree → Tree → Prop where
  | create (t : Tree) (data : NodeData) :
      Touch t (t.create data).1
  | relink {t t' : Tree} (hSame : SameNodes t t') : Touch t t'
  | rewrite
      {t : Tree} {id : NodeId} {n : Node}
      (hNode : t.get? id = some n)
      (data : NodeData)
      (hKind : data.kind = n.data.kind) :
      Touch t (t.put id { n with data })

/- Any number of such parts, one after the other. -/
abbrev Touched : Tree → Tree → Prop :=
  Relation.ReflTransGen Touch

theorem SameNodes.touched
    {t t' : Tree}
    (hSame : SameNodes t t') :
    t.Touched t' :=
  .single (.relink hSame)

theorem touched_create
    (t : Tree)
    (data : NodeData) :
    t.Touched (t.create data).1 :=
  .single (.create t data)

------------------------------------------------------------
-- What is kept
------------------------------------------------------------

/- No node is taken away. -/
theorem Touched.keeps
    {t t' : Tree}
    (hTouched : t.Touched t') :
    t.Keeps t' := by
  induction hTouched with
  | refl => exact Keeps.refl t
  | tail _ hTouch ih =>
      apply ih.trans
      cases hTouch with
      | create data => exact keeps_create _ data
      | relink hSame => exact hSame.keeps
      | rewrite hNode data _ =>
          exact (SameLinks.put hNode data).keeps

theorem Touched.freeListed
    {t t' : Tree}
    (hTouched : t.Touched t')
    (hFree : t.FreeListed) :
    t'.FreeListed := by
  induction hTouched with
  | refl => exact hFree
  | tail _ hTouch ih =>
      cases hTouch with
      | create data => exact freeListed_create ih data
      | relink hSame => exact hSame.freeListed ih
      | rewrite hNode data _ =>
          exact (SameLinks.put hNode data).freeListed ih

/-
  Every node is still the kind of node that it was, as a new
  node never takes the id of another.
-/
theorem Touched.kindOf?_eq
    {t t' : Tree}
    (hTouched : t.Touched t')
    (hFree : t.FreeListed)
    {i : NodeId}
    (hLive : t.contains i = true) :
    t'.kindOf? i = t.kindOf? i := by
  induction hTouched with
  | refl => rfl
  | tail hBefore hTouch ih =>
      rename_i u v
      have hStill := Touched.keeps hBefore i hLive
      rw [← ih]
      cases hTouch with
      | create data =>
          rcases
            get?_create (Touched.freeListed hBefore hFree) data
            with ⟨hVacant, hRead⟩
          have hOther : i ≠ (u.create data).2 := by
            rintro rfl
            simp [contains, hVacant] at hStill
          rw [kindOf?, hRead, if_neg hOther, kindOf?]
      | relink hSame =>
          rw [kindOf?_eq_contentOf?, hSame.content,
            ← kindOf?_eq_contentOf?]
      | rewrite hNode data hKind =>
          rename_i id n
          rw [kindOf?, get?_put (contains_of_get? hNode)]
          by_cases hSame : i = id
          · subst hSame
            simp [kindOf?, hNode, hKind]
          · rw [if_neg hSame, kindOf?]

------------------------------------------------------------
-- Changing data
------------------------------------------------------------

theorem touched_of_modifyAttrs
    {t t' : Tree}
    {id : NodeId}
    {f : List Attribute → List Attribute}
    (hRun : t.modifyAttrs id f = .ok t') :
    t.Touched t' := by
  rw [modifyAttrs, bind_eq_ok_iff] at hRun
  rcases hRun with ⟨n, hNode, hRest⟩
  rw [node_eq_ok_iff] at hNode
  cases hData : n.data with
  | element e =>
      rw [hData] at hRest
      have hDone := pure_eq_ok_iff.mp hRest
      have hKind :
          (NodeData.element
            { e with attrs := f e.attrs }).kind =
              n.data.kind := by
        rw [hData]
        rfl
      exact hDone ▸ .single (.rewrite hNode _ hKind)
  | _ =>
      rw [hData] at hRest
      exact pure_eq_ok_iff.mp hRest ▸ .refl

theorem touched_of_appendText?
    {t t' : Tree}
    {id : NodeId}
    {text : String}
    (hRun : t.appendText? id text = .ok (some t')) :
    t.Touched t' := by
  rw [appendText?, bind_eq_ok_iff] at hRun
  rcases hRun with ⟨n, hNode, hRest⟩
  rw [node_eq_ok_iff] at hNode
  cases hData : n.data with
  | text content =>
      rw [hData] at hRest
      have hDone := Option.some.inj (pure_eq_ok_iff.mp hRest)
      have hKind :
          (NodeData.text (content ++ text)).kind =
            n.data.kind := by
        rw [hData]
        rfl
      exact hDone ▸ .single (.rewrite hNode _ hKind)
  | _ => simp [hData] at hRest

------------------------------------------------------------
-- Copies
------------------------------------------------------------

mutual

theorem plant_touched
    {t t' : Tree}
    {id : NodeId} :
    (s : Shape) → t.plant s = .ok (t', id) → t.Touched t'
  | .node data children, hRun => by
      rw [plant, bind_eq_ok_iff] at hRun
      rcases hRun with ⟨⟨u, ids⟩, hChildren, hRest⟩
      rcases bind_eq_ok_iff.mp hRest with ⟨v, hAppend, hDone⟩
      rw [pure_eq_ok_iff, Prod.mk.injEq] at hDone
      rcases hDone with ⟨rfl, _⟩
      exact
        ((touched_create t data).trans
          (plantAll_touched children hChildren)).trans
            (sameNodes_of_append hAppend).touched

theorem plantAll_touched
    {t t' : Tree}
    {ids : List NodeId} :
    (shapes : List Shape) →
      t.plantAll shapes = .ok (t', ids) → t.Touched t'
  | [], hRun => by
      rw [plantAll, pure_eq_ok_iff, Prod.mk.injEq] at hRun
      exact hRun.1 ▸ .refl
  | s :: rest, hRun => by
      rw [plantAll, bind_eq_ok_iff] at hRun
      rcases hRun with ⟨⟨u, id⟩, hFirst, hRest⟩
      rcases bind_eq_ok_iff.mp hRest with
        ⟨⟨v, others⟩, hOthers, hDone⟩
      rw [pure_eq_ok_iff, Prod.mk.injEq] at hDone
      exact
        hDone.1 ▸
          (plant_touched s hFirst).trans
            (plantAll_touched rest hOthers)

end

theorem touched_of_graft
    {t t' : Tree}
    {owner : NodeId}
    {shapes : List Shape}
    {ids : List NodeId}
    (hRun : t.graft owner shapes = .ok (t', ids)) :
    t.Touched t' := by
  rw [graft, bind_eq_ok_iff] at hRun
  rcases hRun with ⟨⟨u, roots⟩, hCopies, hRest⟩
  rcases bind_eq_ok_iff.mp hRest with ⟨v, hAppend, hDone⟩
  rw [pure_eq_ok_iff, Prod.mk.injEq] at hDone
  exact
    hDone.1 ▸
      (plantAll_touched shapes hCopies).trans
        (sameNodes_of_append hAppend).touched

end Tree

end Dom

end MarkupMetrics
