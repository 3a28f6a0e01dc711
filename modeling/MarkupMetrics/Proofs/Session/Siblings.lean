import MarkupMetrics.Proofs.Dom.Siblings
import MarkupMetrics.Proofs.Session.History
import Mathlib

/-
  This file proves that in every session of a run the steps
  between the elements of a child list agree with each other,
  with the list and with the way up to the parent.

  Key definitions include:
    * `Tree.Navigable`

  Key theorems include:
    * `Session.navigable_of_history`
-/

namespace MarkupMetrics

open Dom

/-
  The ways from an element to its relatives agree.  A step
  forwards and a step backwards take each other back.  Steps
  from the first element child of a node go through its
  element children, in order and each once, and come to an
  end.  The way up from each of them leads to the node, if
  that is an element.  Without a parent there are no steps.
-/
structure Dom.Tree.Navigable
    (t : Tree) : Prop where
  back :
    ∀ x y, t.isElement x = true → t.isElement y = true →
      (t.nextElement? x = some y ↔
        t.previousElement? y = some x)
  along :
    ∀ p,
      Tree.Tours t.nextElement? (t.firstElementChild? p)
        (t.elementChildren p)
  once : ∀ p, (t.elementChildren p).Nodup
  up :
    ∀ p, ∀ x ∈ t.elementChildren p,
      t.parentElement? x =
        if t.isElement p = true then some p else none
  alone :
    ∀ x, t.isElement x = true → t.parent? x = none →
      t.previousElement? x = none ∧ t.nextElement? x = none

namespace Session

/-
  In every session of a run whose actions are permitted the
  ways from an element to its relatives agree.
-/
theorem navigable_of_history
    {s : Session}
    {earlier : List Session}
    (hHistory : History Permits (s :: earlier)) :
    s.page.tree.Navigable := by
  have hLinked := hHistory.linked_last
  constructor
  · intro x y hFirst hSecond
    exact
      Tree.nextElement?_eq_some_iff_previousElement? hLinked
        hFirst hSecond
  · exact Tree.tours_elementChildren hLinked
  · exact Tree.nodup_elementChildren hLinked
  · intro p x hMember
    exact Tree.parentElement?_of_mem_elementChildren hLinked hMember
  · intro x _ hParent
    exact
      ⟨Tree.stepBack?_of_no_parent hParent false,
        Tree.stepBack?_of_no_parent hParent true⟩

/-
  Between and around two items of a list stand texts and a
  comment.  A paragraph that was made stands nowhere.
-/
theorem navigable_of_list :
    ∃ s earlier,
      History Permits (s :: earlier) ∧
        s.page.tree.Navigable ∧
        s.page.tree.childrenOf 1 = [2, 3, 4, 5, 6, 7] ∧
        Tree.Tours s.page.tree.nextElement?
          (s.page.tree.firstElementChild? 1) [3, 6] ∧
        s.page.tree.nextElement? 3 = some 6 ∧
        s.page.tree.previousElement? 6 = some 3 ∧
        s.page.tree.parentElement? 6 = some 1 ∧
        s.page.tree.parentElement? 1 = none ∧
        s.page.tree.nextElement? 8 = none := by
  let text (id : NodeId) (content : String) : Node :=
    { id, parent := some 1, data := .text content }
  let list : List Node :=
    [rootNode [1], htmlNode 1 "ul" (some 0) [2, 3, 4, 5, 6, 7],
      text 2 "a", htmlNode 3 "li" (some 1) [],
      { id := 4, parent := some 1, data := .comment },
      text 5 "b", htmlNode 6 "li" (some 1) [], text 7 "c"]
  let last : Session :=
    ofNodes (list ++ [htmlNode 8 "p" none []])
  have h₀ : History Permits [start Document.empty {}] :=
    .start {}
  have h₁ :=
    h₀.step
      (.operation
        (.page
          (.appendPage 0
            "<ul>a<li></li><!--x-->b<li></li>c</ul>")))
      (ofNodes list) rfl (by cbv)
  have h₂ :=
    h₁.step (.operation (.page (.createElement "p" [])))
      last trivial rfl
  have hNavigable : last.page.tree.Navigable :=
    navigable_of_history h₂
  have hNext : last.page.tree.nextElement? 3 = some 6 := rfl
  exact
    ⟨_, _, h₂, hNavigable, rfl, hNavigable.along 1, hNext,
      (hNavigable.back 3 6 rfl rfl).mp hNext,
      hNavigable.up 1 6 (by decide), hNavigable.up 0 1 (by decide),
      (hNavigable.alone 8 rfl rfl).2⟩

end Session

end MarkupMetrics
