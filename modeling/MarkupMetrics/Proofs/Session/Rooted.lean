import MarkupMetrics.Proofs.Session.History
import Mathlib

/-
  This file proves how long a tree keeps its document node.

  The document node can be put below another node, like any
  other.  Removal is refused for the document node itself, but
  not for what stands below the node that is removed.  So the
  document node stays throughout a run if and only if no node
  is removed that it stands below.

  Key definitions include:
    * `Tree.Rooted`
    * `Session.Uproots`

  Key theorems include:
    * `Session.Becomes.rooted_iff`
    * `Session.rooted_throughout_iff`
    * `Session.text_in_place_of_document`
-/

namespace MarkupMetrics

open Dom

------------------------------------------------------------
-- Trees
------------------------------------------------------------

namespace Dom.Tree

/- The node with the id of the document node is one. -/
def Rooted
    (t : Tree) : Prop :=
  ∃ n, t.get? 0 = some n ∧ n.data = .document

theorem rooted_iff_kindOf?
    {t : Tree} :
    t.Rooted ↔ t.kindOf? 0 = some .document := by
  simp [Rooted, kindOf?, NodeData.kind_eq_document_iff]

theorem Rooted.contains
    {t : Tree}
    (hRooted : t.Rooted) :
    t.contains 0 = true := by
  rcases hRooted with ⟨n, hNode, _⟩
  exact contains_of_get? hNode

theorem rooted_empty : Tree.empty.Rooted :=
  ⟨_, rfl, rfl⟩

/- Only a removal can take the document node away. -/
theorem Rooted.touched
    {t t' : Tree}
    (hRooted : t.Rooted)
    (hFree : t.FreeListed)
    (hTouched : t.Touched t') :
    t'.Rooted := by
  rw [rooted_iff_kindOf?,
    hTouched.kindOf?_eq hFree hRooted.contains,
    ← rooted_iff_kindOf?]
  exact hRooted

/- It does so if the document node stands below what goes. -/
theorem Rooted.remove_iff
    {t t' : Tree}
    {id : NodeId}
    (hRooted : t.Rooted)
    (hLinked : t.Linked)
    (hRun : t.remove id = .ok t') :
    t'.Rooted ↔ ¬ (id ≠ 0 ∧ t.Within 0 id) := by
  by_cases hDocument : id = 0
  · subst hDocument
    rw [remove_document] at hRun
    cases hRun
    simpa using hRooted
  · rcases contentOf?_of_remove hLinked hDocument hRun 0 with
      ⟨hGone, hStays⟩
    rw [rooted_iff_kindOf?, kindOf?_eq_contentOf?]
    constructor
    · rintro hKind ⟨_, hWithin⟩
      rw [hGone hWithin] at hKind
      cases hKind
    · intro hAvoids
      rw [hStays fun hWithin => hAvoids ⟨hDocument, hWithin⟩,
        ← kindOf?_eq_contentOf?, ← rooted_iff_kindOf?]
      exact hRooted

end Dom.Tree

------------------------------------------------------------
-- Runs
------------------------------------------------------------

namespace Session

/- A node is removed that the document node stands below. -/
def Uproots
    (s : Session) : Action → Prop
  | .operation (.page (.remove node)) =>
      node ≠ 0 ∧ s.page.tree.Within 0 node
  | _ => False

/- This is the one way to lose the document node. -/
theorem Becomes.rooted_iff
    {s s' : Session}
    {action : Action}
    (hBecomes : s.Becomes s' action)
    (hLinked : s.page.tree.Linked)
    (hRooted : s.page.tree.Rooted) :
    s'.page.tree.Rooted ↔ ¬ s.Uproots action := by
  by_cases hRemoval :
      ∃ node, action = .operation (.page (.remove node))
  · rcases hRemoval with ⟨node, rfl⟩
    rcases hBecomes.2 with ⟨tree, hTree, hPage⟩
    rw [hPage]
    exact hRooted.remove_iff hLinked hTree
  · have hOther :
        ∀ node, action ≠ .operation (.page (.remove node)) :=
      fun node hAction => hRemoval ⟨node, hAction⟩
    have hStays : ¬ s.Uproots action := by
      unfold Uproots
      split
      · exact (hOther _ rfl).elim
      · exact id
    have hTouched := (hBecomes.edited hOther).touched
    exact
      iff_of_true (hRooted.touched hLinked.free hTouched)
        hStays

/-
  A permitted run has the document node in all its sessions if
  and only if it removes no node that the document node stands
  below.
-/
theorem rooted_throughout_iff
    {states : List Session}
    (hHistory : History Permits states) :
    (∀ s ∈ states, s.page.tree.Rooted) ↔
      History
        (fun s action => s.Permits action ∧ ¬ s.Uproots action)
        states := by
  constructor
  · intro hRooted
    induction hHistory with
    | start config complaints => exact .start config complaints
    | step action s' hBefore hPermits hAct ih =>
        rename_i s earlier
        have hOld : s.page.tree.Rooted := hRooted s (by simp)
        have hNew : s'.page.tree.Rooted := hRooted s' (by simp)
        have hKeeps : ¬ s.Uproots action :=
          ((becomes_of_act hAct).1.rooted_iff
            hBefore.linked_last hOld).mp hNew
        have hEarlier :=
          ih fun r hMember =>
            hRooted r (List.mem_cons_of_mem s' hMember)
        exact hEarlier.step action s' ⟨hPermits, hKeeps⟩ hAct
  · intro hKeeping s hMember
    have hBoth :=
      hKeeping.holds (P := fun s =>
          s.page.tree.Linked ∧ s.page.tree.Rooted)
        (fun _ _ => ⟨Tree.linked_empty, Tree.rooted_empty⟩)
        fun _ _ _ hOld hAllowed hBecomes =>
          ⟨hBecomes.linked hAllowed.1 hOld.1,
            (hBecomes.rooted_iff hOld.1 hOld.2).mpr
              hAllowed.2⟩
    exact (hBoth s hMember).2

/- A session on a page with a document node and a box. -/
private def rootAndBox
    (nodes : List (Option Node))
    (free : List NodeId) : Session :=
  start (Document.ofTree ⟨nodes.toArray, free⟩) {}

/- The document node, with a parent or without. -/
private def documentBelow
    (parent : Option NodeId) : Option Node :=
  some { id := 0, parent, data := .document }

/- An element with certain children. -/
private def boxAbove
    (children : List NodeId) : Option Node :=
  some
    { id := 1, children
      data := .element ⟨.html "div", []⟩ }

/-
  The document node is put below an element, and stays when
  another child of that element is removed.
-/
theorem rooted_below_element :
    ∃ s earlier,
      History Permits (s :: earlier) ∧
        s.page.tree.parent? 0 = some 1 ∧
          ∀ r ∈ s :: earlier, r.page.tree.Rooted := by
  let Keeps (s : Session) (action : Action) : Prop :=
    s.Permits action ∧ ¬ s.Uproots action
  have hPermitted :
      ∀ {states : List Session},
        History Keeps states → History Permits states :=
    fun hHistory => hHistory.weaken fun _ _ hKeeps => hKeeps.1
  have h₀ :
      History Keeps [rootAndBox [documentBelow none] []] :=
    .start {}
  have h₁ :=
    h₀.step (.operation (.page (.createElement "div" [])))
      (rootAndBox [documentBelow none, boxAbove []] [])
      ⟨trivial, id⟩ rfl
  have h₂ :=
    h₁.step (.build (.append 1 (.node 0)))
      (rootAndBox [documentBelow (some 1), boxAbove [0]] [])
      ⟨permits_build (hPermitted h₁).linked_last (by decide),
        id⟩
      rfl
  have h₃ :=
    h₂.step (.operation (.page .createComment))
      (rootAndBox
        [documentBelow (some 1), boxAbove [0],
          some { id := 2, data := .comment }] [])
      ⟨trivial, id⟩ rfl
  have h₄ :=
    h₃.step (.build (.append 1 (.node 2)))
      (rootAndBox
        [documentBelow (some 1), boxAbove [0, 2],
          some { id := 2, parent := some 1, data := .comment }]
        [])
      ⟨permits_build (hPermitted h₃).linked_last (by decide),
        id⟩
      rfl
  have h₅ :=
    h₄.step (.operation (.page (.remove 2)))
      (rootAndBox
        [documentBelow (some 1), boxAbove [0], none] [2])
      ⟨trivial, fun hUproots =>
        Tree.not_within_of_isWithin (hPermitted h₄).linked_last
          (by decide) rfl hUproots.2⟩
      (by cbv)
  exact
    ⟨_, _, hPermitted h₅, rfl,
      (rooted_throughout_iff (hPermitted h₅)).mpr h₅⟩

/-
  The document node is put below an element that is removed
  then.  It goes with the element, and the next node, a text,
  takes its place.
-/
theorem text_in_place_of_document :
    ∃ s' s earlier,
      History Permits (s' :: s :: earlier) ∧
        s.page.tree.get? 0 = none ∧
          s'.page.tree.get? 0 =
            some { id := 0, data := .text "x" } := by
  have h₀ :
      History Permits [rootAndBox [documentBelow none] []] :=
    .start {}
  have h₁ :=
    h₀.step (.operation (.page (.createElement "div" [])))
      (rootAndBox [documentBelow none, boxAbove []] []) trivial
      rfl
  have h₂ :=
    h₁.step (.operation (.page (.append 1 [0])))
      (rootAndBox [documentBelow (some 1), boxAbove [0]] [])
      (by
        intro c hMember
        have hId : c = 0 := by simpa using hMember
        subst hId
        exact
          Tree.not_within_of_isWithin h₁.linked_last
            (by decide))
      rfl
  have h₃ :=
    h₂.step (.operation (.page (.remove 1)))
      (rootAndBox [none, none] [0, 1]) trivial (by cbv)
  have h₄ :=
    h₃.step (.operation (.page (.createText "x")))
      (rootAndBox
        [some { id := 0, data := .text "x" }, none] [1])
      trivial rfl
  exact ⟨_, _, _, h₄, rfl, rfl⟩

end Session

end MarkupMetrics
