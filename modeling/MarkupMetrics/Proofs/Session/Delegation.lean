import MarkupMetrics.Proofs.Condition.Evaluation
import MarkupMetrics.Proofs.Document.Delegation
import MarkupMetrics.Proofs.Session.History
import Mathlib

/-
  This file proves that in every session of a run delegation
  is a short form of binding.  A listener that is delegated by
  a selector runs for the nodes that direct listeners would
  run for, if one were attached to each node that the selector
  finds below.

  Key theorems include:
    * `Session.delegation_of_history`
-/

namespace MarkupMetrics

open Dom

namespace Session

/-
  One listener is delegated on a node, or a direct one with
  the same handler is attached to each node that is found
  below.  At every target the event then runs the handler for
  the same nodes in the same order: those on the way up that
  were found.  There are none if the text is no selector.
-/
theorem delegation_of_history
    {s : Session}
    {earlier : List Session}
    (hHistory : History Permits (s :: earlier))
    (node : NodeId)
    (source event : String)
    (target : NodeId)
    (h : Handler) :
    ∃ found chain currents d₁ id calls₁ d₂ ids calls₂,
      (s.page.tree.find node source).Gives found ∧
        s.page.tree.chain target = .ok chain ∧
        (s.page.delegate node source event h).Gives (d₁, id) ∧
        d₁.Runs [id] h target event calls₁ currents ∧
        (s.page.bindEach event h found).Gives (d₂, ids) ∧
        d₂.Runs ids h target event calls₂ currents ∧
        currents =
          chain.filter (fun x => decide (x ∈ found)) ∧
        (∀ e, Selector.parse source = .error e →
          currents = []) := by
  have hLinked := hHistory.linked_last
  have hNumbered := hHistory.numbered s List.mem_cons_self
  rcases Tree.exists_find hLinked node source with
    ⟨found, hTells⟩
  have hFind := hTells.gives
  rcases Tree.exists_chain hLinked target with
    ⟨chain, hChain, hNodup⟩
  have hLive := Tree.contains_of_find hFind
  refine
    ⟨found, chain, _, _, _, _, _, _, _, hFind, hChain,
      Document.delegate_gives_iff.mpr rfl,
      Document.runs_of_delegated hLinked hNumbered hFind hChain
        hNodup event h,
      (Document.bindEach_gives_iff hLive).mpr rfl,
      Document.runs_of_directs hLinked hNumbered hFind hChain
        event h,
      rfl, ?_⟩
  intro e hError
  rcases Tree.find_gives_iff.mp hFind with
    ⟨below, hTries, rfl⟩
  cases hTries with
  | all list hList _ =>
      rw [hError] at hList
      cases hList
  | none _ _ hBelow => simp [hBelow]

/- A session on a page without listeners. -/
private def onItems
    (nodes : List (Option Node)) : Session :=
  start (Document.ofTree ⟨nodes.toArray, []⟩) {}

/- A list item. -/
private def item
    (id : NodeId)
    (parent : Option NodeId)
    (children : List NodeId) : Option Node :=
  some
    { id, parent, children
      data := .element ⟨.html "li", []⟩ }

/- An event at an item in an item goes through both of them. -/
theorem delegation_of_nested_items :
    ∃ s earlier,
      History Permits (s :: earlier) ∧
        ∃ d₁ id calls₁ d₂ ids calls₂,
          (s.page.delegate 0 "li" "e" (.recorder "x")).Gives
              (d₁, id) ∧
            d₁.Runs [id] (.recorder "x") 2 "e" calls₁ [2, 1] ∧
            (s.page.bindEach "e" (.recorder "x") [1, 2]).Gives
              (d₂, ids) ∧
            d₂.Runs ids (.recorder "x") 2 "e" calls₂
              [2, 1] := by
  let root (children : List NodeId) : Option Node :=
    some { id := 0, children, data := .document }
  have h₀ : History Permits [onItems [root []]] := .start {}
  have h₁ :=
    h₀.step (.operation (.page (.createElement "li" [])))
      (onItems [root [], item 1 none []]) trivial rfl
  have h₂ :=
    h₁.step (.operation (.page (.createElement "li" [])))
      (onItems [root [], item 1 none [], item 2 none []])
      trivial rfl
  have h₃ :=
    h₂.step (.build (.append 0 (.node 1)))
      (onItems [root [1], item 1 (some 0) [], item 2 none []])
      (permits_build h₂.linked_last (by decide)) rfl
  have h₄ :=
    h₃.step (.build (.append 1 (.node 2)))
      (onItems
        [root [1], item 1 (some 0) [2], item 2 (some 1) []])
      (permits_build h₃.linked_last (by decide)) rfl
  rcases
    delegation_of_history h₄ 0 "li" "e" 2 (.recorder "x")
    with
    ⟨found, chain, currents, d₁, id, calls₁, d₂, ids, calls₂,
      hFind, hChain, hDelegate, hRuns, hBind, hRuns', hCurrents,
      _⟩
  have hItems : found = [1, 2] := by
    apply hFind.unique
    exact ⟨[], by cbv⟩
  have hWay : chain = [2, 1, 0] :=
    (Except.ok.inj hChain).symm
  subst hItems
  subst hWay
  have hBoth : currents = [2, 1] := hCurrents
  subst hBoth
  exact
    ⟨_, _, h₄, d₁, id, calls₁, d₂, ids, calls₂, hDelegate, hRuns,
      hBind, hRuns'⟩

end Session

end MarkupMetrics
