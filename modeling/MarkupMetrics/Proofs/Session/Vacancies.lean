import MarkupMetrics.Proofs.Dom.Vacating
import MarkupMetrics.Proofs.Session.Numbers
import Mathlib

/-
  This file proves what a session loses when a node is
  removed, and what nodes get in its place.

  The node goes with all nodes below it and with their
  listeners, and nothing else changes.  The nodes that are
  made next take their ids, and start without parent,
  children and listeners.

  Key definitions include:
    * `Session.thinned`
    * `Session.Proceeds`
    * `Session.Supplies`
    * `Session.Vacates`

  Key theorems include:
    * `Session.Tidy.supplies`
    * `Session.vacancies_of_history`
-/

namespace MarkupMetrics

open Dom

------------------------------------------------------------
-- Counting listeners
------------------------------------------------------------

/- The listeners of several nodes are those of each together. -/
theorem Document.length_filter_nodes
    {η : Type}
    (d : Document η)
    {ids : List NodeId}
    (hNodup : ids.Nodup) :
    (d.listeners.filter fun l => decide (l.node ∈ ids)).length =
      (ids.map d.listenerCount).sum := by
  induction ids with
  | nil => simp
  | cons id ids ih =>
      rcases List.nodup_cons.mp hNodup with ⟨hNew, hRest⟩
      have hFirst :
          (d.listeners.filter fun l =>
              decide (l.node ∈ id :: ids)).filter
            (fun l => l.node == id) =
          d.listenersOf id := by
        rw [List.filter_filter]
        apply List.filter_congr
        intro l _
        by_cases hSame : l.node = id <;> simp [hSame]
      have hOthers :
          (d.listeners.filter fun l =>
              decide (l.node ∈ id :: ids)).filter
            (fun l => !(l.node == id)) =
          d.listeners.filter fun l => decide (l.node ∈ ids) := by
        rw [List.filter_filter]
        apply List.filter_congr
        intro l _
        by_cases hSame : l.node = id
        · simp [hSame, hNew]
        · simp [hSame]
      rw [List.length_eq_length_filter_add
        (fun l : Listener η => l.node == id), hFirst, hOthers,
        ih hRest, List.map_cons, List.sum_cons]
      rfl

namespace Session

------------------------------------------------------------
-- Removing nodes
------------------------------------------------------------

/- A session whose tree has lost nodes, without their listeners. -/
def thinned
    (s : Session)
    (tree : Tree) : Session :=
  { s with
    page := { s.page with
      tree
      listeners :=
        s.page.listeners.filter fun l =>
          tree.contains l.node } }

theorem step_remove
    {s : Session}
    {node : NodeId}
    {tree : Tree}
    (hRun : s.page.tree.remove node = .ok tree) :
    s.step (.page (.remove node)) =
      .ok (s.thinned tree, .nothing, []) := by
  rw [step, perform, PageOperation.perform, Document.remove,
    hRun]
  rfl

variable {s : Session}
variable {node : NodeId}
variable {below : List NodeId}
variable {tree : Tree}

/- A node that stays keeps its listeners. -/
theorem Tidy.listenersOf_thinned
    (hTidy : s.Tidy)
    (hPruned : Tree.Pruned node below s.page.tree tree)
    {x : NodeId}
    (hStays : x ∉ node :: below) :
    (s.thinned tree).page.listenersOf x =
      s.page.listenersOf x := by
  simp only [Document.listenersOf, thinned, List.filter_filter]
  apply List.filter_congr
  intro l hMember
  by_cases hSame : l.node = x
  · have hBefore := hTidy.live l hMember
    have hThere : tree.contains x = true :=
      (hPruned.live x).mpr ⟨hSame ▸ hBefore, hStays⟩
    simp [hSame, hThere]
  · simp [hSame]

/- The listeners of the nodes that go are what is lost. -/
theorem Tidy.totalListeners_thinned
    (hTidy : s.Tidy)
    (hPruned : Tree.Pruned node below s.page.tree tree)
    (hNodup : (node :: below).Nodup) :
    s.page.totalListeners =
      (s.thinned tree).page.totalListeners +
        ((node :: below).map s.page.listenerCount).sum := by
  have hGone :
      (s.page.listeners.filter fun l =>
          !tree.contains l.node) =
        s.page.listeners.filter fun l =>
          decide (l.node ∈ node :: below) := by
    apply List.filter_congr
    intro l hMember
    rw [Bool.eq_iff_iff, Bool.not_eq_true', ← Bool.not_eq_true,
      hPruned.live, decide_eq_true_iff, not_and_not_right]
    exact ⟨fun h => h (hTidy.live l hMember), fun h _ => h⟩
  rw [← s.page.length_filter_nodes hNodup, ← hGone]
  exact List.length_eq_length_filter_add _

------------------------------------------------------------
-- Making nodes
------------------------------------------------------------

/- Actions lead from one session to another and remove no node. -/
def Proceeds : Session → Session → Prop :=
  Relation.ReflTransGen fun s s' =>
    ∃ action,
      (∀ node, action ≠ .operation (.page (.remove node))) ∧
        s.act action = .ok s'

/-
  The nodes that are made as long as none is removed take
  certain ids in order.  Each starts with its data alone.
-/
def Supplies
    (s : Session)
    (ids : Nat → NodeId) : Prop :=
  ∀ later, s.Proceeds later →
    ∃ made,
      (∀ i, later.page.tree.contains i = true ↔
        s.page.tree.contains i = true ∨ ∃ k < made, ids k = i) ∧
        ∀ data page id,
          later.page.create data = (page, id) →
            id = ids made ∧
              page.tree.get? id =
                some { id, parent := none, children := [], data } ∧
              page.listenersOf id = []

/- Such actions leave no trace of a removal. -/
theorem Tidy.proceeds
    (hTidy : s.Tidy)
    {later : Session}
    (hProceeds : s.Proceeds later) :
    later.Tidy ∧ s.page.tree.Touched later.page.tree := by
  induction hProceeds with
  | refl => exact ⟨hTidy, .refl⟩
  | tail _ hStep ih =>
      rcases hStep with ⟨action, hOther, hAct⟩
      have hBecomes := (becomes_of_act hAct).1
      exact
        ⟨hBecomes.tidy ih.1,
          ih.2.trans (hBecomes.edited hOther).touched⟩

theorem Tidy.supplies
    (hTidy : s.Tidy) :
    s.Supplies s.page.tree.upcoming := by
  intro later hProceeds
  rcases hTidy.proceeds hProceeds with ⟨hLater, hTouched⟩
  rcases hTouched.supplied hTidy.free with ⟨made, hSupplied⟩
  refine ⟨made, hSupplied.live, ?_⟩
  intro data page id hCreate
  rw [Document.create, Prod.mk.injEq] at hCreate
  rcases hCreate with ⟨rfl, rfl⟩
  rcases Tree.get?_create hLater.free data with
    ⟨hVacant, hRead⟩
  refine ⟨?_, (hRead _).trans (if_pos rfl), ?_⟩
  · rw [Tree.create_id, hSupplied.next, Nat.add_zero]
  · exact
      hLater.listenersOf_missing
        (Tree.not_contains_iff.mpr hVacant)

------------------------------------------------------------
-- Runs
------------------------------------------------------------

/-
  What a session is after a node was removed.  The node and
  those below it are gone with as many listeners as they had,
  and all others keep theirs.  Their ids are taken before any
  other that was free, the last in document order first.
-/
structure Vacates
    (s s' : Session)
    (node : NodeId)
    (below : List NodeId) : Prop where
  tree : Tree.Pruned node below s.page.tree s'.page.tree
  listeners :
    ∀ x, x ∉ node :: below →
      s'.page.listenersOf x = s.page.listenersOf x
  total :
    s.page.totalListeners =
      s'.page.totalListeners +
        ((node :: below).map s.page.listenerCount).sum
  ids :
    s'.Supplies
      (queued (node :: below).reverse s.page.tree.upcoming)

theorem vacancies_of_history
    {s : Session}
    {earlier : List Session}
    (hHistory : History Permits (s :: earlier))
    {node : NodeId}
    (hLive : s.page.tree.contains node = true)
    (hOther : node ≠ 0) :
    ∃ below tree,
      s.page.tree.descendants node = .ok below ∧
        s.page.tree.Preorder [node] (node :: below) ∧
        s.step (.page (.remove node)) =
          .ok (s.thinned tree, .nothing, []) ∧
        s.Vacates (s.thinned tree) node below := by
  have hLinked := hHistory.linked_last
  have hTidy := hHistory.tidy s (by simp)
  rcases Tree.exists_remove hLinked hLive hOther with
    ⟨below, u, tree, hBelow, hRemove, hCut, hFreed⟩
  have hPruned :=
    Tree.pruned_of_freed hLinked hLive hBelow hCut hFreed
  have hOrder := Tree.preorder_of_subtree hLive hBelow
  have hNodup : (node :: below).Nodup := by
    rw [List.nodup_cons]
    refine ⟨?_, Tree.nodup_of_descendants hLinked hBelow⟩
    intro hMember
    exact
      ((Tree.mem_descendants_iff hLinked hLive hBelow).mp
        hMember).1 rfl
  have hStep := step_remove hRemove
  have hAct :
      s.act (.operation (.page (.remove node))) =
        .ok (s.thinned tree) := by
    rw [act, hStep]
    rfl
  have hAfter := (becomes_of_act hAct).1.tidy hTidy
  refine ⟨below, tree, hBelow, hOrder, hStep, hPruned, ?_, ?_, ?_⟩
  · intro x hStays
    exact hTidy.listenersOf_thinned hPruned hStays
  · exact hTidy.totalListeners_thinned hPruned hNodup
  · rw [← hPruned.upcoming]
    exact hAfter.supplies

/-
  A box with two elements and a listener is removed.  Of its
  ids that of its last element is taken next, though another
  id was free before.
-/
theorem vacancies_of_box :
    ∃ s earlier tree,
      History Permits (s :: earlier) ∧
        s.page.tree.contains 1 = true ∧
        s.page.tree.free = [5] ∧
        s.page.totalListeners = 2 ∧
        s.step (.page (.remove 1)) =
          .ok (s.thinned tree, .nothing, []) ∧
        s.Vacates (s.thinned tree) 1 [2, 3] ∧
        tree.childrenOf 0 = [4] ∧
        (s.thinned tree).page.totalListeners = 1 ∧
        ((s.thinned tree).page.create .comment).2 = 3 := by
  let nodes : List Node :=
    [rootNode [1, 4], htmlNode 1 "div" (some 0) [2, 3],
      htmlNode 2 "p" (some 1) [], htmlNode 3 "i" (some 1) [],
      htmlNode 4 "b" (some 0) []]
  let text : Node := { id := 5, data := .text "x" }
  let state (listeners : List (Listener Handler)) : Session :=
    start
      { tree := ⟨(nodes.map some ++ [none]).toArray, [5]⟩
        listeners
        nextListener := listeners.length } {}
  let first : Listener Handler :=
    ⟨0, 2, "e", none, .recorder "a"⟩
  let second : Listener Handler :=
    ⟨1, 4, "e", none, .recorder "b"⟩
  have h₀ : History Permits [start Document.empty {}] :=
    .start {}
  have h₁ :=
    h₀.step
      (.operation
        (.page
          (.appendPage 0 "<div><p></p><i></i></div><b></b>")))
      (ofNodes nodes) rfl (by cbv)
  have h₂ :=
    h₁.step (.operation (.page (.createText "x")))
      (ofNodes (nodes ++ [text])) trivial rfl
  have h₃ :=
    h₂.step (.operation (.page (.remove 5))) (state []) trivial
      (by cbv)
  have h₄ :=
    h₃.step (.operation (.page (.bind 2 "e" "a")))
      (state [first]) trivial rfl
  have h₅ :=
    h₄.step (.operation (.page (.bind 4 "e" "b")))
      (state [first, second]) trivial rfl
  have hThere :
      (state [first, second]).page.tree.contains 1 = true :=
    rfl
  rcases vacancies_of_history h₅ hThere (by decide) with
    ⟨below, tree, hBelow, _, hStep, hVacates⟩
  have hList : below = [2, 3] := by
    cases hBelow
    rfl
  subst hList
  have hRoot := hVacates.tree.parent 0 _ rfl rfl
  have hTotal := hVacates.total
  rcases hVacates.ids _ Relation.ReflTransGen.refl with
    ⟨made, hMade, hIds⟩
  have hNone : made = 0 := by
    by_contra hSome
    have hAgain :=
      (hMade 3).mpr
        (Or.inr ⟨0, Nat.pos_of_ne_zero hSome, rfl⟩)
    exact ((hVacates.tree.live 3).mp hAgain).2 (by decide)
  refine
    ⟨_, _, tree, h₅, hThere, rfl, rfl, hStep, hVacates,
      Tree.childrenOf_of_get? hRoot, ?_, ?_⟩
  · exact (Nat.add_right_cancel hTotal).symm
  · subst hNone
    exact (hIds .comment _ _ Prod.mk.eta.symm).1

end Session

end MarkupMetrics
