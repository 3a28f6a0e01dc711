import MarkupMetrics.Proofs.Dom.Splices
import MarkupMetrics.Proofs.Session.Writing
import Mathlib

/-
  This file proves that in every session of a run the edits
  that move nodes are exact splices of child lists.

  Key definitions include:
    * `Session.Splices`

  Key theorems include:
    * `Session.splices_of_history`
-/

namespace MarkupMetrics

open Dom

namespace Session

/-
  What edits make of a session, if they move nodes of it and
  put none below itself.  They come to an end and change no
  more than the tree, where every node keeps its content; of
  repeated nodes the last mention counts.

  Appended nodes come behind the other children.  Nodes put
  before an anchor come behind the other nodes that stand
  before it, and nothing changes if the anchor has no parent.
  The children of one node come behind those of another, and
  the first is left without any.
-/
structure Splices
    (s : Session) : Prop where
  append :
    ∀ parent ids,
      s.page.tree.contains parent = true →
      s.page.tree.Movable parent ids →
        ∃ tree,
          s.step (.page (.append parent ids)) =
              .ok (s.withTree tree, .nothing, []) ∧
            Tree.Spliced ids parent
              ((s.page.tree.childrenOf parent).filter (· ∉ ids) ++
                ids.dedup)
              s.page.tree tree
  insertBefore :
    ∀ anchor parent ids,
      s.page.tree.parent? anchor = some parent →
      anchor ∉ ids →
      s.page.tree.Movable parent ids →
        ∃ front back tree,
          s.page.tree.childrenOf parent =
              front ++ anchor :: back ∧
            s.step (.page (.insertBefore anchor ids)) =
              .ok (s.withTree tree, .nothing, []) ∧
            Tree.Spliced ids parent
              (front.filter (· ∉ ids) ++ ids.dedup ++
                anchor :: back.filter (· ∉ ids))
              s.page.tree tree
  insertBeforeRoot :
    ∀ anchor ids,
      s.page.tree.contains anchor = true →
      s.page.tree.parent? anchor = none →
        s.step (.page (.insertBefore anchor ids)) =
          .ok (s, .nothing, [])
  reparent :
    ∀ source target,
      s.page.tree.contains source = true →
      s.page.tree.contains target = true →
      target ≠ source →
      s.page.tree.Movable target
          (s.page.tree.childrenOf source) →
        ∃ tree,
          s.step (.page (.reparent source target)) =
              .ok (s.withTree tree, .nothing, []) ∧
            Tree.Spliced (s.page.tree.childrenOf source) target
              (s.page.tree.childrenOf target ++
                s.page.tree.childrenOf source)
              s.page.tree tree ∧
            tree.childrenOf source = [] ∧
            ∀ q, q ≠ source → q ≠ target →
              tree.childrenOf q = s.page.tree.childrenOf q

theorem splices_of_history
    {s : Session}
    {earlier : List Session}
    (hHistory : History Permits (s :: earlier)) :
    s.Splices := by
  have hLinked := hHistory.linked_last
  constructor
  · intro parent ids hParent hIds
    rcases Tree.exists_append hLinked hParent hIds with
      ⟨tree, hRun, hSpliced⟩
    exact ⟨tree, s.step_of_edit rfl hRun, hSpliced⟩
  · intro anchor parent ids hParent hOutside hIds
    rcases
      List.append_of_mem
        ((hLinked.listed anchor parent).mpr hParent) with
      ⟨front, back, hChildren⟩
    rcases
      Tree.exists_insertBefore hLinked hChildren hOutside
        hIds with
      ⟨tree, hRun, hSpliced⟩
    exact
      ⟨front, back, tree, hChildren, s.step_of_edit rfl hRun,
        hSpliced⟩
  · intro anchor ids hLive hRoot
    exact
      s.step_of_edit rfl
        (Tree.insertBefore_of_root hLive hRoot ids)
  · intro source target hSource hTarget hOther hApart
    rcases
      Tree.exists_reparent hLinked hSource hTarget hOther
        hApart with
      ⟨tree, hRun, hSpliced⟩
    refine
      ⟨tree, s.step_of_edit rfl hRun, hSpliced, ?_, ?_⟩
    · rw [hSpliced.others source hOther.symm]
      simp
    · intro q hSource hTarget
      rw [hSpliced.others q hTarget,
        hLinked.filter_children_of_ne hSource]

/-
  Of three siblings the outer ones are moved, to the end and
  before the one in the middle, with one of them mentioned
  twice; and the child of the first comes below the second.
-/
theorem splices_of_siblings :
    ∃ s earlier first second third,
      History Permits (s :: earlier) ∧
        s.page.tree.childrenOf 0 = [1, 3, 4] ∧
        s.page.tree.childrenOf 1 = [2] ∧
        s.step (.page (.append 0 [1, 4, 1])) =
          .ok (s.withTree first, .nothing, []) ∧
        first.childrenOf 0 = [3, 4, 1] ∧
        s.step (.page (.insertBefore 3 [4, 1, 4])) =
          .ok (s.withTree second, .nothing, []) ∧
        second.childrenOf 0 = [1, 4, 3] ∧
        s.step (.page (.insertBefore 0 [1])) =
          .ok (s, .nothing, []) ∧
        s.step (.page (.reparent 1 3)) =
          .ok (s.withTree third, .nothing, []) ∧
        third.childrenOf 3 = [2] ∧
        third.childrenOf 1 = [] := by
  let siblings : Session :=
    ofNodes
      [rootNode [1, 3, 4], htmlNode 1 "b" (some 0) [2],
        htmlNode 2 "i" (some 1) [], htmlNode 3 "p" (some 0) [],
        htmlNode 4 "q" (some 0) []]
  have h₀ : History Permits [start Document.empty {}] :=
    .start {}
  have h₁ :=
    h₀.step
      (.operation
        (.page (.appendPage 0 "<b><i></i></b><p></p><q></q>")))
      siblings rfl (by cbv)
  have hApart {owner c : NodeId}
      (hTest : siblings.page.tree.isWithin owner c = false) :
      siblings.page.tree.MayHold owner c :=
    Tree.not_within_of_isWithin h₁.linked_last hTest
  have hRoot {ids : List NodeId} (hIds : ids ⊆ [1, 4]) :
      siblings.page.tree.Movable 0 ids := by
    intro c hMember
    have hCases : c = 1 ∨ c = 4 := by
      simpa using hIds hMember
    rcases hCases with rfl | rfl
    · exact ⟨rfl, hApart (by decide) rfl⟩
    · exact ⟨rfl, hApart (by decide) rfl⟩
  have hThird : siblings.page.tree.Movable 3 [2] := by
    intro c hMember
    have hOnly : c = 2 := by simpa using hMember
    subst hOnly
    exact ⟨rfl, hApart (by decide) rfl⟩
  have hSplices := splices_of_history h₁
  rcases
    hSplices.append 0 [1, 4, 1] rfl (hRoot (by simp)) with
    ⟨first, hAppend, hFirst⟩
  rcases
    hSplices.insertBefore 3 0 [4, 1, 4] rfl (by decide)
      (hRoot (by simp)) with
    ⟨front, back, second, hChildren, hInsert, hSecond⟩
  rcases
    hSplices.reparent 1 3 rfl rfl (by decide) hThird with
    ⟨third, hReparent, hUnder, hNone, _⟩
  have hSplit : front = [1] ∧ back = [4] := by
    have hBoth : front ++ 3 :: back = [1] ++ 3 :: [4] :=
      hChildren.symm
    have hParts :=
      (List.append_cons_inj_of_notMem (by decide)
        (by decide)).mp hBoth.symm
    exact ⟨hParts.1.symm, hParts.2.2.symm⟩
  rcases hSplit with ⟨rfl, rfl⟩
  exact
    ⟨_, _, first, second, third, h₁, rfl, rfl, hAppend,
      hFirst.listed, hInsert, hSecond.listed,
      hSplices.insertBeforeRoot 0 [1] rfl rfl, hReparent,
      hUnder.listed, hNone⟩

end Session

end MarkupMetrics
