import MarkupMetrics.Proofs.Session.History
import Mathlib

/-
  This file states when the links of a tree are in order, and
  proves that they are in every session of a run that puts no
  node below itself.

  Key definitions include:
    * `Tree.WellLinked`

  Key theorems include:
    * `Session.wellLinked_of_history`
-/

namespace MarkupMetrics

open Dom

/-
  The links of a tree are in order.  Nodes carry the ids they
  are reached by.  A node is listed below another one if and
  only if that is its parent.  No id is listed twice, below
  one node or below two.  Links lead to nodes, and the parent
  links have no cycle.
-/
structure Dom.Tree.WellLinked
    (t : Tree) : Prop where
  ids : ∀ i n, t.get? i = some n → n.id = i
  listed :
    ∀ c p child parent,
      t.get? c = some child → t.get? p = some parent →
        (c ∈ parent.children ↔ child.parent = some p)
  once : ∀ p n, t.get? p = some n → n.children.Nodup
  apart :
    ∀ p q m n c,
      t.get? p = some m → t.get? q = some n →
        c ∈ m.children → c ∈ n.children → p = q
  parents :
    ∀ c n p,
      t.get? c = some n → n.parent = some p →
        t.contains p = true
  children :
    ∀ p n c,
      t.get? p = some n → c ∈ n.children →
        t.contains c = true
  acyclic : ∀ i, ¬ Relation.TransGen t.IsChild i i

/- Links that agree are in order. -/
theorem Dom.Tree.Linked.wellLinked
    {t : Tree}
    (hLinked : t.Linked) :
    t.WellLinked where
  ids := hLinked.ids
  listed c p child parent hChild hParent := by
    rw [← Tree.childrenOf_of_get? hParent,
      ← Tree.parent?_of_get? hChild]
    exact hLinked.listed c p
  once p n hNode := by
    rw [← Tree.childrenOf_of_get? hNode]
    exact hLinked.nodup p
  apart p q m n c hFirst hSecond hMember hOther := by
    rw [← Tree.childrenOf_of_get? hFirst, hLinked.listed]
      at hMember
    rw [← Tree.childrenOf_of_get? hSecond, hLinked.listed]
      at hOther
    exact Option.some.inj (hMember.symm.trans hOther)
  parents c n p hNode hParent := by
    rw [← Tree.parent?_of_get? hNode] at hParent
    exact hLinked.contains_parent hParent
  children p n c hNode hMember := by
    rw [← Tree.childrenOf_of_get? hNode] at hMember
    exact hLinked.contains_child hMember
  acyclic := hLinked.acyclic

namespace Session

/-
  In every session of a run whose actions are permitted the
  links of the tree are in order.
-/
theorem wellLinked_of_history
    {s : Session}
    {earlier : List Session}
    (hHistory : History Permits (s :: earlier)) :
    s.page.tree.WellLinked :=
  hHistory.linked_last.wellLinked

/- A session on a page without listeners. -/
private def onNodes
    (nodes : List (Option Node))
    (free : List NodeId) : Session :=
  start (Document.ofTree ⟨nodes.toArray, free⟩) {}

/-
  An element is put below the document and a text below the
  element; the text is removed, and a comment takes its id
  and is put before the element.
-/
theorem wellLinked_of_reused_id :
    ∃ s earlier,
      History Permits (s :: earlier) ∧
        s.page.tree.childrenOf 0 = [2, 1] ∧
          s.page.tree.WellLinked := by
  let root (children : List NodeId) : Option Node :=
    some { id := 0, children, data := .document }
  let box (parent : Option NodeId) (children : List NodeId) :
      Option Node :=
    some
      { id := 1, parent, children
        data := .element ⟨.html "div", []⟩ }
  let leaf (parent : Option NodeId) (data : NodeData) :
      Option Node :=
    some { id := 2, parent, data }
  have h₀ : History Permits [onNodes [root []] []] :=
    .start {}
  have h₁ :=
    h₀.step (.operation (.page (.createElement "div" [])))
      (onNodes [root [], box none []] []) trivial rfl
  have h₂ :=
    h₁.step (.operation (.page (.append 0 [1])))
      (onNodes [root [1], box (some 0) []] [])
      (by
        intro c hMember
        have hId : c = 1 := by simpa using hMember
        subst hId
        exact
          Tree.not_within_of_isWithin h₁.linked_last
            (by decide))
      rfl
  have h₃ :=
    h₂.step (.operation (.page (.createText "x")))
      (onNodes
        [root [1], box (some 0) [], leaf none (.text "x")] [])
      trivial rfl
  have h₄ :=
    h₃.step (.build (.append 1 (.node 2)))
      (onNodes
        [root [1], box (some 0) [2],
          leaf (some 1) (.text "x")] [])
      (permits_build h₃.linked_last (by decide)) rfl
  have h₅ :=
    h₄.step (.operation (.page (.remove 2)))
      (onNodes [root [1], box (some 0) [], none] [2]) trivial
      (by cbv)
  have h₆ :=
    h₅.step (.operation (.page .createComment))
      (onNodes
        [root [1], box (some 0) [], leaf none .comment] [])
      trivial rfl
  have h₇ :=
    h₆.step (.operation (.page (.insertBefore 1 [2])))
      (onNodes
        [root [2, 1], box (some 0) [],
          leaf (some 0) .comment] [])
      (by
        intro p hParent c hMember
        have hRoot : 0 = p := Option.some.inj hParent
        have hId : c = 2 := by simpa using hMember
        subst hRoot
        subst hId
        exact
          Tree.not_within_of_isWithin h₆.linked_last
            (by decide))
      rfl
  exact ⟨_, _, h₇, rfl, wellLinked_of_history h₇⟩

end Session

end MarkupMetrics
