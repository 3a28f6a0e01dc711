import MarkupMetrics.Proofs.Condition.Evaluation
import MarkupMetrics.Proofs.Dom.Preorder
import MarkupMetrics.Proofs.Selector.Finding
import MarkupMetrics.Proofs.Session.History
import Mathlib

/-
  This file proves that in every session of a run a search
  below a node finds the part of what a search of the document
  finds that stands below the node.

  What matches does not depend on where the search starts, and
  what stands below the node is a block of the document.

  Key theorems include:
    * `Tree.infix_of_find`
    * `Tree.mem_find_iff`
    * `Tree.not_mem_queryAll`
    * `Session.scoping_of_history`
-/

namespace MarkupMetrics

open Dom

------------------------------------------------------------
-- Searches of one tree
------------------------------------------------------------

namespace Dom.Tree

variable {t : Tree}
variable {source : String}
variable {scope : NodeId}
variable {found all : List NodeId}

/- What is found below a node of the document is a block. -/
theorem infix_of_find
    (hLinked : t.Linked)
    (hFound : (t.find scope source).Gives found)
    (hAll : (t.queryAll source).Gives all)
    (hWithin : t.Within scope 0) :
    found <:+: all := by
  rcases find_gives_iff.mp hFound with ⟨under, hUnder, rfl⟩
  rcases find_gives_iff.mp hAll with ⟨below, hBelow, rfl⟩
  cases hUnder with
  | none e hError hEmpty =>
      rw [hEmpty]
      exact List.nil_infix
  | all list hList hUnder =>
      cases hBelow with
      | none e hError _ => simp [hList] at hError
      | all _ _ hBelow =>
          exact
            (infix_of_within hLinked hWithin hBelow
              hUnder).filter _

/- Of what is in the document, what is below the node is found. -/
theorem mem_find_iff
    (hLinked : t.Linked)
    (hFound : (t.find scope source).Gives found)
    (hAll : (t.queryAll source).Gives all)
    (hWithin : t.Within scope 0)
    {x : NodeId} :
    x ∈ found ↔
      x ∈ all ∧ Relation.TransGen t.IsChild x scope := by
  rw [below_iff hLinked]
  constructor
  · intro hMember
    have hPart := infix_of_find hLinked hFound hAll hWithin
    rcases (mem_found_iff hLinked hFound).mp hMember with
      ⟨_, hOther, hUnder, _⟩
    exact ⟨hPart.subset hMember, hOther, hUnder⟩
  · rintro ⟨hMember, hOther, hUnder⟩
    rcases (mem_found_iff hLinked hAll).mp hMember with
      ⟨_, _, _, hSelects⟩
    have hThere :=
      hLinked.contains_of_within
        (contains_of_find hAll x hMember) hUnder
    exact
      (mem_found_iff hLinked hFound).mpr
        ⟨hThere, hOther, hUnder, hSelects⟩

/- Trees that are apart have no node in common. -/
theorem not_mem_queryAll
    (hLinked : t.Linked)
    (hFound : (t.find scope source).Gives found)
    (hAll : (t.queryAll source).Gives all)
    (hApart : ¬ t.Joined scope 0)
    {x : NodeId}
    (hMember : x ∈ found) :
    x ∉ all := by
  intro hBoth
  rcases (mem_found_iff hLinked hFound).mp hMember with
    ⟨_, _, hUnder, _⟩
  rcases (mem_found_iff hLinked hAll).mp hBoth with
    ⟨_, _, hBelow, _⟩
  exact hApart (joined_of_within hUnder hBelow)

end Dom.Tree

------------------------------------------------------------
-- Searches in a run
------------------------------------------------------------

namespace Session

/-
  Both searches come to an answer, with the same reports.  No
  node is found twice.  Below a node of the document what is
  found is the block of what is found in the document that
  stands strictly below the node.  A tree apart from the
  document has nothing of it.
-/
theorem scoping_of_history
    {s : Session}
    {earlier : List Session}
    (hHistory : History Permits (s :: earlier))
    (scope : NodeId)
    (source : String) :
    ∃ found all reports,
      s.step (.page (.find scope source)) =
          .ok (s, .nodes found, reports) ∧
        s.step (.page (.queryAll source)) =
          .ok (s, .nodes all, reports) ∧
        found.Nodup ∧
        (s.page.tree.Within scope 0 →
          found <:+: all ∧
            ∀ x,
              x ∈ found ↔
                x ∈ all ∧
                  Relation.TransGen s.page.tree.IsChild x
                    scope) ∧
        (¬ s.page.tree.Joined scope 0 →
          ∀ x ∈ found, x ∉ all) := by
  have hLinked := hHistory.linked_last
  rcases Tree.exists_notes_of_find hLinked source with
    ⟨notes, hNotes, hFind⟩
  rcases hFind scope with ⟨found, hFound⟩
  rcases hFind 0 with ⟨all, hAll⟩
  have hGives : (s.page.tree.find scope source).Gives found :=
    ⟨notes, hFound⟩
  have hGivesAll : (s.page.tree.queryAll source).Gives all :=
    ⟨notes, hAll⟩
  refine
    ⟨found, all, notes.flatMap (s.report true),
      s.step_of_notes hNotes ?_, s.step_of_notes hNotes ?_,
      Tree.nodup_of_find hLinked hGives, ?_, ?_⟩
  · rw [PageOperation.perform, hFound, bind_pure_comp,
      Trace.map_done]
  · rw [PageOperation.perform, Tree.queryAll, hAll,
      bind_pure_comp, Trace.map_done]
  · intro hWithin
    exact
      ⟨Tree.infix_of_find hLinked hGives hGivesAll hWithin,
        fun x =>
          Tree.mem_find_iff hLinked hGives hGivesAll hWithin⟩
  · intro hApart x hMember
    exact
      Tree.not_mem_queryAll hLinked hGives hGivesAll hApart
        hMember

/-
  The search below a paragraph looks at an element above it.
  The search in a tree beside the document finds what is there
  only.
-/
theorem scoping_of_paragraph :
    ∃ s earlier,
      History Permits (s :: earlier) ∧
        s.page.tree.Within 2 0 ∧
        ¬ s.page.tree.Joined 5 0 ∧
        s.step (.page (.queryAll "div i")) =
          .ok (s, .nodes [3, 4], []) ∧
        s.step (.page (.find 2 "div i")) =
          .ok (s, .nodes [3], []) ∧
        [3] <:+: [3, 4] ∧
        s.step (.page (.find 5 "div i")) =
          .ok (s, .nodes [6], []) ∧
        6 ∉ [3, 4] := by
  let page : List Node :=
    [rootNode [1], htmlNode 1 "div" (some 0) [2, 4],
      htmlNode 2 "p" (some 1) [3], htmlNode 3 "i" (some 2) [],
      htmlNode 4 "i" (some 1) []]
  have h₀ : History Permits [start Document.empty {}] :=
    .start {}
  have h₁ :=
    h₀.step
      (.operation
        (.page (.appendPage 0 "<div><p><i></i></p><i></i></div>")))
      (ofNodes page) rfl (by cbv)
  have h₂ :=
    h₁.step (.operation (.page (.createElement "div" [])))
      (ofNodes (page ++ [htmlNode 5 "div" none []])) trivial rfl
  have h₃ :=
    h₂.step (.operation (.page (.createElement "i" [])))
      (ofNodes
        (page ++
          [htmlNode 5 "div" none [], htmlNode 6 "i" none []]))
      trivial rfl
  let parts :=
    page ++
      [htmlNode 5 "div" none [6], htmlNode 6 "i" (some 5) []]
  have h₄ :=
    h₃.step (.build (.append 5 (.node 6))) (ofNodes parts)
      (permits_build h₃.linked_last (by decide)) rfl
  have hAll :
      (ofNodes parts).step (.page (.queryAll "div i")) =
        .ok (ofNodes parts, .nodes [3, 4], []) :=
    step_of_notes _ (List.forall_mem_nil _) (by cbv)
  have hUnder :
      (ofNodes parts).step (.page (.find 2 "div i")) =
        .ok (ofNodes parts, .nodes [3], []) :=
    step_of_notes _ (List.forall_mem_nil _) (by cbv)
  have hBeside :
      (ofNodes parts).step (.page (.find 5 "div i")) =
        .ok (ofNodes parts, .nodes [6], []) :=
    step_of_notes _ (List.forall_mem_nil _) (by cbv)
  have hWithin : (ofNodes parts).page.tree.Within 2 0 :=
    .head (b := 1) rfl (.single rfl)
  have hApart : ¬ (ofNodes parts).page.tree.Joined 5 0 := by
    rintro ⟨top, hFirst, hSecond⟩
    rcases Tree.within_cases hFirst with rfl | ⟨p, hParent, _⟩
    · rcases Tree.within_cases hSecond with hSame | ⟨p, hUp, _⟩
      · cases hSame
      · cases hUp
    · cases hParent
  rcases scoping_of_history h₄ 2 "div i" with
    ⟨found, all, reports, hFound, hEvery, _, hPart, _⟩
  rcases scoping_of_history h₄ 5 "div i" with
    ⟨beside, all', reports', hFound', hEvery', _, _, hNone⟩
  cases hFound.symm.trans hUnder
  cases hEvery.symm.trans hAll
  cases hFound'.symm.trans hBeside
  cases hEvery'.symm.trans hAll
  exact
    ⟨_, _, h₄, hWithin, hApart, hAll, hUnder, (hPart hWithin).1,
      hBeside, hNone hApart 6 (List.mem_singleton_self 6)⟩

end Session

end MarkupMetrics
