import MarkupMetrics.Proofs.Dom.Preorder
import MarkupMetrics.Proofs.Session.History

/-
  This file proves that in every session of a run the loop
  down from a node lists what stands below it in document
  order, and that the loop up from a node passes exactly the
  nodes that it is listed below.

  Key theorems include:
    * `Session.listing_of_history`
-/

namespace MarkupMetrics

open Dom

namespace Session

/-
  The loop down from a node ends.  It lists the subtree by the
  recursive rule, without the node itself, and no node twice.
  From every node the way up ends too and repeats no node; the
  node it starts at is listed below exactly the others on it.
  A child and what is listed below it stand next to each other
  in the list.
-/
theorem listing_of_history
    {s : Session}
    {earlier : List Session}
    (hHistory : History Permits (s :: earlier))
    {n : NodeId}
    (hLive : s.page.tree.contains n = true) :
    ∃ below,
      s.page.tree.descendants n = .ok below ∧
        s.page.tree.Preorder (s.page.tree.childrenOf n) below ∧
        n ∉ below ∧
        below.Nodup ∧
        (∀ d, s.page.tree.contains d = true →
          ∃ above,
            s.page.tree.chain d = .ok (d :: above) ∧
              (d :: above).Nodup ∧
                (d ∈ below ↔ n ∈ above)) ∧
        (∀ c ∈ s.page.tree.childrenOf n,
          ∃ under,
            s.page.tree.descendants c = .ok under ∧
              (c :: under) <:+: below) := by
  have hLinked := hHistory.linked_last
  rcases Tree.exists_descendants hLinked n with
    ⟨below, hBelow⟩
  have hMembers {d : NodeId} :
      d ∈ below ↔ d ≠ n ∧ s.page.tree.Within d n :=
    Tree.mem_descendants_iff hLinked hLive hBelow
  refine
    ⟨below, hBelow, Tree.preorder_of_descendants hBelow,
      fun hSelf => (hMembers.mp hSelf).1 rfl,
      Tree.nodup_of_descendants hLinked hBelow, ?_, ?_⟩
  · intro d hThere
    rcases Tree.exists_above hLinked hThere with
      ⟨above, hChain, hNodup, hAbove⟩
    refine ⟨above, hChain, hNodup, ?_⟩
    rw [hMembers, hAbove, ne_comm]
  · intro c hChild
    rcases Tree.exists_descendants hLinked c with
      ⟨under, hUnder⟩
    exact
      ⟨under, hUnder,
        Tree.infix_of_child hBelow hUnder hChild⟩

/-
  The node that was made last stands first in the document,
  before another one with a child.
-/
theorem listing_of_branches :
    ∃ s earlier,
      History Permits (s :: earlier) ∧
        s.page.tree.contains 0 = true ∧
          s.page.tree.descendants 0 = .ok [3, 1, 2] ∧
            s.page.tree.Preorder [3, 1] [3, 1, 2] ∧
              s.page.tree.chain 2 = .ok [2, 1, 0] ∧
                [1, 2] <:+: [3, 1, 2] := by
  have h₀ : History Permits [ofNodes [rootNode []]] := .start {}
  have h₁ :=
    h₀.step (.operation (.page (.createElement "div" [])))
      (ofNodes [rootNode [], htmlNode 1 "div" none []])
      trivial rfl
  have h₂ :=
    h₁.step (.operation (.page (.createElement "div" [])))
      (ofNodes
        [rootNode [], htmlNode 1 "div" none [],
          htmlNode 2 "div" none []])
      trivial rfl
  have h₃ :=
    h₂.step (.operation (.page (.createElement "div" [])))
      (ofNodes
        [rootNode [], htmlNode 1 "div" none [],
          htmlNode 2 "div" none [], htmlNode 3 "div" none []])
      trivial rfl
  have h₄ :=
    h₃.step (.build (.append 0 (.node 1)))
      (ofNodes
        [rootNode [1], htmlNode 1 "div" (some 0) [],
          htmlNode 2 "div" none [], htmlNode 3 "div" none []])
      (permits_build h₃.linked_last (by decide)) rfl
  have h₅ :=
    h₄.step (.build (.append 1 (.node 2)))
      (ofNodes
        [rootNode [1], htmlNode 1 "div" (some 0) [2],
          htmlNode 2 "div" (some 1) [],
          htmlNode 3 "div" none []])
      (permits_build h₄.linked_last (by decide)) rfl
  have h₆ :=
    h₅.step (.build (.appendBefore 1 (.node 3)))
      (ofNodes
        [rootNode [3, 1], htmlNode 1 "div" (some 0) [2],
          htmlNode 2 "div" (some 1) [],
          htmlNode 3 "div" (some 0) []])
      (permits_build h₅.linked_last (by decide)) rfl
  rcases listing_of_history h₆ (n := 0) rfl with
    ⟨below, hBelow, hOrder, _, _, hAbove, hBlocks⟩
  have hThree : [3, 1, 2] = below := by
    have hList :
        Except.ok (ε := Fault) [3, 1, 2] = .ok below := hBelow
    exact Except.ok.inj hList
  subst hThree
  rcases hAbove 2 rfl with ⟨above, hChain, _, _⟩
  have hWay : [1, 0] = above := by
    have hList :
        Except.ok (ε := Fault) [2, 1, 0] = .ok (2 :: above) :=
      hChain
    exact (List.cons.inj (Except.ok.inj hList)).2
  subst hWay
  have hInner : 1 ∈ [3, 1] := by simp
  rcases hBlocks 1 hInner with ⟨under, hUnder, hBlock⟩
  have hOnly : [2] = under := by
    have hList : Except.ok (ε := Fault) [2] = .ok under := hUnder
    exact Except.ok.inj hList
  subst hOnly
  exact ⟨_, _, h₆, rfl, hBelow, hOrder, hChain, hBlock⟩

end Session

end MarkupMetrics
