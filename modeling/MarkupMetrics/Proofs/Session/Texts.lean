import MarkupMetrics.Proofs.Dom.Grafts
import MarkupMetrics.Proofs.Dom.Reading
import MarkupMetrics.Proofs.Html.Blanks
import MarkupMetrics.Proofs.Session.Copies
import MarkupMetrics.Proofs.Session.Matching
import MarkupMetrics.Proofs.Session.Vacancies

/-
  This file proves what the text of a node is in every session
  of a run, and that comments and texts without characters may
  come, move and go without changing it.

  What hangs below such a node moves with it.  Only where it
  comes into the tree or leaves it, nodes below it get their
  text or lose it.

  Key definitions include:
    * `PageOperation.Quiet`
    * `PageOperation.Hides`
    * `Session.Shuffles`

  Key theorems include:
    * `Tree.textContent_of_appendPage`
    * `PageOperation.textContent_eq`
    * `Session.Shuffles.textContent_eq`
    * `Session.text_in_document_order`
-/

namespace MarkupMetrics

open Dom Relation

------------------------------------------------------------
-- Pages
------------------------------------------------------------

/-
  A page whose body holds blanks at the top leaves no trace in
  the texts of nodes that are not below them.
-/
theorem Dom.Tree.textContent_of_appendPage
    {t t' : Tree}
    {owner n : NodeId}
    {html : String}
    {ids : List NodeId}
    (hLinked : t.Linked)
    (hOwner : t.contains owner = true)
    (hRun : t.appendPage owner html = .ok (t', ids))
    (hBlanks :
      ∀ c ∈ t'.childrenOf owner, t.contains c = false →
        t'.isBlank c = true)
    (hSeen :
      ¬ ∃ c ∈ t'.childrenOf owner,
        t.contains c = false ∧ TransGen t'.IsChild n c) :
    t'.textContent n = t.textContent n := by
  have hGrafted := grafted_of_appendPage hLinked hOwner hRun
  have hLike : t.ReadsLike t' := by
    have hParts := hRun
    rw [appendPage, Outcome.bind_eq_ok_iff] at hParts
    rcases hParts with ⟨page, hPage, _⟩
    have hPageLinked : page.Linked := linked_empty.addPage hPage
    rcases exists_descendants hPageLinked 0 with ⟨all, hAll⟩
    rcases exists_appendPage hPage hAll hLinked hOwner with
      ⟨_, hSame⟩ | ⟨body, below, u, _, _, hSame, hCopied⟩
    · rw [hSame] at hRun
      cases hRun
      exact (AddsBlanks.refl t).toReadsLike
    · rw [hSame] at hRun
      cases hRun
      exact hCopied.readsLike hLinked hOwner hBlanks
  apply hLike.textContent_eq hLinked hGrafted.linked
  intro hMissing
  cases hLive : t'.contains n with
  | false => exact isBlank_of_missing hLive
  | true =>
      rcases hGrafted.exists_root hMissing hLive with
        ⟨root, hParent, hFresh, hWithin⟩
      have hChild :=
        (hGrafted.linked.listed root owner).mpr hParent
      rcases reflTransGen_iff_eq_or_transGen.mp hWithin with
        rfl | hBelow
      · exact hBlanks root hChild hFresh
      · exact (hSeen ⟨root, hChild, hFresh, hBelow⟩).elim

------------------------------------------------------------
-- Operations
------------------------------------------------------------

namespace PageOperation

/-
  Whether an operation makes, moves and removes no nodes but
  comments and texts without characters, each with all that is
  below it.  It leads from one tree to another.
-/
def Quiet
    (t t' : Tree) : PageOperation → Prop
  | .createText content => content = ""
  | .createComment => True
  | .append _ children => ∀ c ∈ children, t.isBlank c = true
  | .insertBefore _ nodes => ∀ c ∈ nodes, t.isBlank c = true
  | .reparent source _ =>
      ∀ c ∈ t.childrenOf source, t.isBlank c = true
  | .remove node => t.isBlank node = true
  | .appendPage node _ =>
      ∀ c ∈ t'.childrenOf node, t.contains c = false →
        t'.isBlank c = true
  | _ => False

/-
  Whether a node stands below one that an operation removes,
  or below one that it takes from a page.
-/
def Hides
    (t t' : Tree)
    (n : NodeId) : PageOperation → Prop
  | .remove node => TransGen t.IsChild n node
  | .appendPage node _ =>
      ∃ c ∈ t'.childrenOf node,
        t.contains c = false ∧ TransGen t'.IsChild n c
  | _ => False

/- A quiet operation changes no text but of what it hides. -/
theorem textContent_eq
    {around : Surroundings}
    {page page' : Page}
    {operation : PageOperation}
    {answer : Answer}
    {n : NodeId}
    (hLinked : page.tree.Linked)
    (hLinked' : page'.tree.Linked)
    (hPermitted : operation.Permitted page.tree)
    (hRun :
      (operation.perform around page).Gives (page', answer))
    (hQuiet : operation.Quiet page.tree page'.tree)
    (hSeen : ¬ operation.Hides page.tree page'.tree n) :
    page'.tree.textContent n = page.tree.textContent n := by
  have hEnd (hAdds : page.tree.AddsBlanks page'.tree) :
      page'.tree.textContent n = page.tree.textContent n :=
    hAdds.textContent_eq hLinked hLinked' (hAdds.new n)
  cases operation with
  | createText content =>
      cases hQuiet
      simp only [perform, create, Trace.gives_pure_iff,
        Prod.mk.injEq] at hRun
      exact hEnd (hRun.1 ▸ .create hLinked rfl)
  | createComment =>
      simp only [perform, create, Trace.gives_pure_iff,
        Prod.mk.injEq] at hRun
      exact hEnd (hRun.1 ▸ .create hLinked rfl)
  | append parent children =>
      rcases edit_gives hRun with ⟨tree, hEdit, rfl⟩
      exact hEnd (Tree.addsBlanks_of_append hQuiet hEdit)
  | insertBefore anchor nodes =>
      rcases edit_gives hRun with ⟨tree, hEdit, rfl⟩
      exact hEnd (Tree.addsBlanks_of_insertBefore hQuiet hEdit)
  | reparent source target =>
      rcases edit_gives hRun with ⟨tree, hEdit, rfl⟩
      exact
        hEnd (Tree.addsBlanks_of_reparent hLinked hQuiet hEdit)
  | remove node =>
      rcases outcome_of_perform hRun with ⟨tree, hTree, rfl⟩
      exact
        Tree.textContent_of_remove hLinked hQuiet hTree hSeen
  | appendPage node html =>
      rw [perform, Trace.gives_bind_iff] at hRun
      rcases hRun with ⟨⟨grown, ids⟩, hGrow, hDone⟩
      rw [Trace.gives_lift_iff, Document.appendPage,
        Outcome.bind_eq_ok_iff] at hGrow
      rcases hGrow with ⟨⟨tree, made⟩, hTree, hPage⟩
      rw [Outcome.pure_eq_ok_iff, Prod.mk.injEq] at hPage
      rw [around.gives_complain_bind_iff, Trace.gives_pure_iff,
        Prod.mk.injEq] at hDone
      rcases hPage with ⟨rfl, _⟩
      rcases hDone with ⟨rfl, _⟩
      exact
        Tree.textContent_of_appendPage hLinked hPermitted hTree
          hQuiet hSeen
  | _ => exact hQuiet.elim

end PageOperation

------------------------------------------------------------
-- Runs
------------------------------------------------------------

/- Whether an action is an operation or a call that is quiet. -/
def Action.Quiet
    (t t' : Tree) : Action → Prop
  | .operation (.page edit) => edit.Quiet t t'
  | .operation _ => False
  | .build call => call.Quiet t

/- A call neither removes nodes nor brings in more than one. -/
def Action.Hides
    (t t' : Tree)
    (n : NodeId) : Action → Prop
  | .operation (.page edit) => edit.Hides t t' n
  | _ => False

namespace Session

/-
  A step that makes, moves and removes no nodes but comments
  and texts without characters.  A given node is not below one
  that goes, or comes from a page.
-/
def Shuffles
    (n : NodeId)
    (s s' : Session) : Prop :=
  ∃ action,
    s.Permits action ∧ s.act action = .ok s' ∧
      action.Quiet s.page.tree s'.page.tree ∧
      ¬ action.Hides s.page.tree s'.page.tree n

/- Such a step changes no more than it must. -/
theorem Shuffles.textContent_eq
    {n : NodeId}
    {s s' : Session}
    (hStep : Shuffles n s s')
    (hLinked : s.page.tree.Linked) :
    s'.page.tree.Linked ∧
      s'.page.tree.textContent n =
        s.page.tree.textContent n := by
  rcases hStep with ⟨action, hPermits, hAct, hQuiet, hSeen⟩
  have hLinked' :=
    (becomes_of_act hAct).1.linked hPermits hLinked
  refine ⟨hLinked', ?_⟩
  cases action with
  | operation operation =>
      rcases step_of_act hAct with ⟨answer, reports, hRun⟩
      cases operation with
      | page operation =>
          exact
            operation.textContent_eq hLinked hLinked' hPermits
              (gives_of_step_page hRun) hQuiet hSeen
      | registry operation => exact hQuiet.elim
      | language caller operation => exact hQuiet.elim
  | build call =>
      rcases run_of_act hAct with ⟨tree, made, hRun, rfl⟩
      have hAdds :=
        Html.TreeCall.addsBlanks_of_run hLinked hQuiet hRun
      exact
        hAdds.textContent_eq hLinked hLinked' (hAdds.new n)

/-
  The text of any node is its own content, if it is a text
  node, and then that of the text nodes below it to which only
  elements and documents lead, in the order of its descendants.
  An element or a document has the texts of its children, and
  any other node has its own content alone.

  However comments and texts without characters come, move and
  go, with what is below them, no other node gets another
  text.
-/
theorem text_in_document_order
    {s : Session}
    {earlier : List Session}
    (hHistory : History Permits (s :: earlier))
    (n : NodeId) :
    (∃ below read : List NodeId,
      s.page.tree.descendants n = .ok below ∧ below.Nodup ∧
        read.Sublist below ∧
        (∀ x, x ∈ read ↔ s.page.tree.ReadFrom x n) ∧
        s.page.tree.textContent n =
          .ok
            ((s.page.tree.textAt? n).getD "" ++
              String.join
                (read.filterMap s.page.tree.textAt?))) ∧
      (s.page.tree.isOpen n = true →
        ∃ texts,
          (s.page.tree.childrenOf n).mapM
              s.page.tree.textContent =
            .ok texts ∧
          s.page.tree.textContent n =
            .ok (String.join texts)) ∧
      (s.page.tree.isOpen n = false →
        s.page.tree.textContent n =
          .ok ((s.page.tree.textAt? n).getD "")) ∧
        ∀ s', ReflTransGen (Shuffles n) s s' →
          s'.page.tree.textContent n =
            s.page.tree.textContent n := by
  have hLinked := hHistory.linked_last
  refine
    ⟨Tree.exists_read hLinked n,
      Tree.textContent_of_open hLinked,
      Tree.textContent_of_closed hLinked, ?_⟩
  intro s' hRun
  have hKept :
      s'.page.tree.Linked ∧
        s'.page.tree.textContent n =
          s.page.tree.textContent n := by
    induction hRun with
    | refl => exact ⟨hLinked, rfl⟩
    | tail _ hStep ih =>
        rcases hStep.textContent_eq ih.1 with ⟨hNext, hSame⟩
        exact ⟨hNext, hSame.trans ih.2⟩
  exact hKept.2

/- A paragraph with two texts and a comment between them. -/
private def aroundComment
    (below : List NodeId)
    (others : List Node) : Session :=
  let nodes : List Node :=
    [rootNode [1], htmlNode 1 "p" (some 0) [2, 3, 4],
      { id := 2, parent := some 1, data := .text "a" },
      { id := 3, parent := some 1, children := below
        data := .comment },
      { id := 4, parent := some 1, data := .text "c" }]
  ofNodes (nodes ++ others)

/-
  A text hangs below the comment.  It is listed between the
  others but not read, and when the comment goes with it the
  paragraph says the same.
-/
theorem text_around_comment :
    ∃ s earlier s',
      History Permits (s :: earlier) ∧
        s.page.tree.descendants 1 = .ok [2, 3, 5, 4] ∧
        s.page.tree.textContent 5 = .ok "b" ∧
        s.page.tree.textContent 1 = .ok "ac" ∧
        s.step (.page (.remove 3)) = .ok (s', .nothing, []) ∧
        s'.page.tree.descendants 1 = .ok [2, 4] ∧
        s'.page.tree.textContent 1 = .ok "ac" := by
  have h₀ : History Permits [start Document.empty {}] :=
    .start {}
  have h₁ :=
    h₀.step
      (.operation
        (.page (.appendPage 0 "<p>a<!--x-->c</p>")))
      (aroundComment [] []) rfl (by cbv)
  have h₂ :=
    h₁.step (.operation (.page (.createText "b")))
      (aroundComment [] [{ id := 5, data := .text "b" }])
      trivial rfl
  have h₃ :=
    h₂.step (.operation (.page (.append 3 [5])))
      (aroundComment [5]
        [{ id := 5, parent := some 3, data := .text "b" }])
      (permits_append h₂.linked_last (by decide)) rfl
  have hTree :
      (aroundComment [5]
          [{ id := 5, parent := some 3
             data := .text "b" }]).page.tree.remove 3 =
        .ok
          ⟨#[some (rootNode [1]),
            some (htmlNode 1 "p" (some 0) [2, 4]),
            some { id := 2, parent := some 1, data := .text "a" },
            none,
            some { id := 4, parent := some 1, data := .text "c" },
            none], [5, 3]⟩ := by
    cbv
  have hStep := step_remove hTree
  rcases text_in_document_order h₃ 1 with ⟨_, _, _, hKept⟩
  refine ⟨_, _, _, h₃, rfl, rfl, rfl, hStep, rfl, ?_⟩
  refine
    (hKept _
      (.single
        ⟨.operation (.page (.remove 3)), trivial, ?_, rfl,
          ?_⟩)).trans rfl
  · rw [act, hStep]
    rfl
  · intro hBelow
    rcases TransGen.head'_iff.mp hBelow with ⟨p, hParent, hUp⟩
    cases hParent
    rcases hUp.cases_head with hSame | ⟨q, hNone, _⟩
    · cases hSame
    · cases hNone

end Session

end MarkupMetrics
