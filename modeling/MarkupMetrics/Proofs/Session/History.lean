import MarkupMetrics.Proofs.Html.Calls
import MarkupMetrics.Proofs.Registry.Detaching
import MarkupMetrics.Session.Operation

/-
  This file defines the histories of sessions, and proves what
  an action makes of a session.

  An action is an operation, or a call that builds the tree
  from outside.  What it does is said once, by `Becomes`; all
  that holds throughout a history is proved from that.

  Key definitions include:
    * `Action`
    * `Session.act`
    * `Session.History`
    * `PageOperation.Permitted`
    * `Session.Permits`
    * `Session.Becomes`
    * `Session.ofNodes`

  Key theorems include:
    * `PageOperation.outcome_of_perform`
    * `RegistryOperation.outcome_of_perform`
    * `RegistryOperation.Outcome.scanned`
    * `Session.becomes_of_act`
-/

namespace MarkupMetrics

open Dom

------------------------------------------------------------
-- Actions
------------------------------------------------------------

/- What can happen to a session. -/
inductive Action where
  | operation (operation : Operation)
  | build (call : Html.TreeCall NodeId)

namespace Session

/- A session after an action. -/
def act
    (s : Session) : Action → Except Fault Session
  | .operation operation => do
      let (s, _, _) ← s.step operation
      return s
  | .build call => do
      let (tree, _) ← call.run s.page.tree
      return { s with page := { s.page with tree } }

/-
  The sessions of a run from an empty document and an empty
  registry, the last one first.  The parser may complain of
  pages as it likes.
-/
inductive History
    (allowed : Session → Action → Prop) :
    List Session → Prop where
  | start
      (config : Config)
      (complaints : String → List String := typelessComplaints) :
      History allowed
        [Session.start Document.empty config complaints]
  | step
      {s : Session}
      {earlier : List Session}
      (action : Action)
      (s' : Session)
      (hBefore : History allowed (s :: earlier))
      (hAllowed : allowed s action)
      (hAct : s.act action = .ok s') :
      History allowed (s' :: s :: earlier)

end Session

------------------------------------------------------------
-- Permission
------------------------------------------------------------

/-
  Whether an operation puts no node below itself, and grafts
  onto a node only.
-/
def PageOperation.Permitted
    (t : Tree) : PageOperation → Prop
  | .append parent children =>
      ∀ c ∈ children, t.MayHold parent c
  | .insertBefore anchor nodes =>
      ∀ p, t.parent? anchor = some p →
        ∀ c ∈ nodes, t.MayHold p c
  | .reparent source target =>
      ∀ c ∈ t.childrenOf source, t.MayHold target c
  | .appendPage node _ => t.contains node = true
  | _ => True

/- Whether an action puts no node below itself. -/
def Session.Permits
    (s : Session) : Action → Prop
  | .operation (.page operation) =>
      operation.Permitted s.page.tree
  | .operation _ => True
  | .build call => call.Permitted s.page.tree

------------------------------------------------------------
-- Complaints
------------------------------------------------------------

namespace Surroundings

/- The notes of what the parser finds wrong with a page. -/
def notes
    (around : Surroundings)
    (html : String) : List Effect :=
  (around.complaints html).map fun message =>
    .note .page .debug ("HTML parse error: " ++ message)

theorem complain_eq
    (around : Surroundings)
    (html : String) :
    around.complain html = .done () (around.notes html) := by
  unfold complain notes
  induction around.complaints html with
  | nil => rfl
  | cons message rest ih =>
      rw [List.forM_eq_forM] at ih ⊢
      rw [List.forM_cons, ih]
      rfl

/- They make no difference to a result. -/
theorem gives_complain_bind_iff
    {α : Type}
    {around : Surroundings}
    {html : String}
    {f : Unit → Trace α}
    {a : α} :
    (around.complain html >>= f).Gives a ↔ (f ()).Gives a := by
  rw [Trace.gives_bind_iff, complain_eq]
  constructor
  · rintro ⟨_, _, hRest⟩
    exact hRest
  · intro hRest
    exact ⟨(), ⟨_, rfl⟩, hRest⟩

end Surroundings

------------------------------------------------------------
-- Operations on documents
------------------------------------------------------------

/-
  What an edit that removes no node does to a tree: the nodes
  are no more than touched, and the links still agree if the
  edit is permitted.
-/
structure Dom.Tree.Edited
    (permitted : Prop)
    (t t' : Tree) : Prop where
  touched : t.Touched t'
  linked : permitted → t.Linked → t'.Linked

theorem Dom.Tree.Edited.keeps
    {permitted : Prop}
    {t t' : Tree}
    (hEdited : Tree.Edited permitted t t') :
    t.Keeps t' :=
  hEdited.touched.keeps

theorem Dom.Tree.Edited.refl
    (permitted : Prop)
    (t : Tree) :
    Tree.Edited permitted t t :=
  ⟨.refl, fun _ hLinked => hLinked⟩

namespace PageOperation

/- What an operation makes of a page. -/
def Outcome
    (page page' : Page)
    (operation : PageOperation) : Prop :=
  match operation with
  | .remove node =>
      ∃ tree,
        page.tree.remove node = .ok tree ∧
          page' =
            { page with
              tree
              listeners :=
                page.listeners.filter fun l =>
                  tree.contains l.node }
  | .bind node event label =>
      page' = page.attached node event none (.recorder label)
  | .delegate node selector event label =>
      page' =
        page.attached node event (some (.ofText selector))
          (.recorder label)
  | .unbind node event listener =>
      page' = page.detach node event none listener
  | .undelegate node selector event listener =>
      page' = page.detach node event (some selector) listener
  | _ =>
      ∃ tree,
        page' = { page with tree } ∧
          Tree.Edited (operation.Permitted page.tree)
            page.tree tree

/- The result of an edit of the tree. -/
theorem edit_gives
    {page page' : Page}
    {f : Tree → Except Fault Tree}
    {answer : Answer}
    (hRun : (edit page f).Gives (page', answer)) :
    ∃ tree, f page.tree = .ok tree ∧
      page' = { page with tree } := by
  rw [edit, Trace.gives_bind_iff] at hRun
  rcases hRun with ⟨edited, hEdit, hDone⟩
  rw [Trace.gives_lift_iff, Document.editTree,
    Outcome.bind_eq_ok_iff] at hEdit
  rcases hEdit with ⟨tree, hTree, hPage⟩
  rw [Outcome.pure_eq_ok_iff] at hPage
  rw [Trace.gives_pure_iff, Prod.mk.injEq] at hDone
  exact ⟨tree, hTree, by rw [← hDone.1, ← hPage]⟩

/- A question changes nothing. -/
private theorem same_of_ask
    {α : Type}
    {page page' : Page}
    {x : Trace α}
    {f : α → Answer}
    {answer : Answer}
    (hRun :
      (do return (page, f (← x)) :
        Trace (Page × Answer)).Gives (page', answer)) :
    page' = page := by
  rcases Trace.gives_bind_iff.mp hRun with ⟨a, _, hDone⟩
  rw [Trace.gives_pure_iff, Prod.mk.injEq] at hDone
  exact hDone.1.symm

private theorem unchanged
    (permitted : Prop)
    {page page' : Page}
    (hSame : page' = page) :
    ∃ tree, page' = { page with tree } ∧
      Tree.Edited permitted page.tree tree :=
  ⟨page.tree, hSame, Tree.Edited.refl permitted page.tree⟩

theorem outcome_of_perform
    {around : Surroundings}
    {page page' : Page}
    {operation : PageOperation}
    {answer : Answer}
    (hRun :
      (operation.perform around page).Gives (page', answer)) :
    operation.Outcome page page' := by
  cases operation with
  | createElement tag attrs =>
      simp only [perform, create, Trace.gives_pure_iff,
        Prod.mk.injEq] at hRun
      exact
        ⟨_, hRun.1.symm, Tree.touched_create _ _,
          fun _ hLinked => hLinked.create _⟩
  | createText content =>
      simp only [perform, create, Trace.gives_pure_iff,
        Prod.mk.injEq] at hRun
      exact
        ⟨_, hRun.1.symm, Tree.touched_create _ _,
          fun _ hLinked => hLinked.create _⟩
  | createComment =>
      simp only [perform, create, Trace.gives_pure_iff,
        Prod.mk.injEq] at hRun
      exact
        ⟨_, hRun.1.symm, Tree.touched_create _ _,
          fun _ hLinked => hLinked.create _⟩
  | append parent children =>
      rcases edit_gives hRun with ⟨tree, hEdit, hPage⟩
      exact
        ⟨tree, hPage, (Tree.sameNodes_of_append hEdit).touched,
          fun hPermitted hLinked =>
            hLinked.append hPermitted hEdit⟩
  | insertBefore anchor nodes =>
      rcases edit_gives hRun with ⟨tree, hEdit, hPage⟩
      exact
        ⟨tree, hPage,
          (Tree.sameNodes_of_insertBefore hEdit).touched,
          fun hPermitted hLinked =>
            hLinked.insertBefore hPermitted hEdit⟩
  | reparent source target =>
      rcases edit_gives hRun with ⟨tree, hEdit, hPage⟩
      exact
        ⟨tree, hPage, (Tree.sameNodes_of_reparent hEdit).touched,
          fun hPermitted hLinked =>
            hLinked.reparent hPermitted hEdit⟩
  | remove node =>
      rw [perform, Trace.gives_bind_iff] at hRun
      rcases hRun with ⟨removed, hRemove, hDone⟩
      rw [Trace.gives_lift_iff, Document.remove,
        Outcome.bind_eq_ok_iff] at hRemove
      rcases hRemove with ⟨tree, hTree, hPage⟩
      rw [Outcome.pure_eq_ok_iff] at hPage
      rw [Trace.gives_pure_iff, Prod.mk.injEq] at hDone
      exact ⟨tree, hTree, by rw [← hDone.1, ← hPage]⟩
  | setAttribute node name value =>
      rcases edit_gives hRun with ⟨tree, hEdit, hPage⟩
      exact
        ⟨tree, hPage,
          Tree.touched_of_modifyAttrs hEdit,
          fun _ hLinked =>
            hLinked.ofSameLinks
              (Tree.sameLinks_of_modifyAttrs hEdit)⟩
  | removeAttribute node name =>
      rcases edit_gives hRun with ⟨tree, hEdit, hPage⟩
      exact
        ⟨tree, hPage,
          Tree.touched_of_modifyAttrs hEdit,
          fun _ hLinked =>
            hLinked.ofSameLinks
              (Tree.sameLinks_of_modifyAttrs hEdit)⟩
  | addAttributes node attrs =>
      rcases edit_gives hRun with ⟨tree, hEdit, hPage⟩
      exact
        ⟨tree, hPage,
          Tree.touched_of_modifyAttrs hEdit,
          fun _ hLinked =>
            hLinked.ofSameLinks
              (Tree.sameLinks_of_modifyAttrs hEdit)⟩
  | appendText node text =>
      rw [perform, addText, Trace.gives_bind_iff] at hRun
      rcases hRun with ⟨joined, hJoin, hDone⟩
      rw [Trace.gives_lift_iff] at hJoin
      cases joined with
      | some tree =>
          rw [Trace.gives_pure_iff, Prod.mk.injEq] at hDone
          exact
            ⟨tree, hDone.1.symm,
              Tree.touched_of_appendText? hJoin,
              fun _ hLinked =>
                hLinked.ofSameLinks
                  (Tree.sameLinks_of_appendText? hJoin)⟩
      | none =>
          rw [Trace.gives_pure_iff, Prod.mk.injEq] at hDone
          exact unchanged _ hDone.1.symm
  | appendPage node html =>
      rw [perform, Trace.gives_bind_iff] at hRun
      rcases hRun with ⟨⟨grown, ids⟩, hGrow, hDone⟩
      rw [Trace.gives_lift_iff, Document.appendPage,
        Outcome.bind_eq_ok_iff] at hGrow
      rcases hGrow with ⟨⟨tree, made⟩, hTree, hPage⟩
      rw [Outcome.pure_eq_ok_iff, Prod.mk.injEq] at hPage
      rw [around.gives_complain_bind_iff, Trace.gives_pure_iff,
        Prod.mk.injEq] at hDone
      exact
        ⟨tree, by rw [← hDone.1, ← hPage.1],
          Tree.touched_of_appendPage hTree,
          fun hPermitted hLinked =>
            hLinked.appendPage hPermitted hTree⟩
  | addPage html =>
      rw [perform, Trace.gives_bind_iff] at hRun
      rcases hRun with ⟨grown, hGrow, hDone⟩
      rw [Trace.gives_lift_iff, Document.addPage,
        Document.editTree, Outcome.bind_eq_ok_iff] at hGrow
      rcases hGrow with ⟨tree, hTree, hPage⟩
      rw [Outcome.pure_eq_ok_iff] at hPage
      rw [around.gives_complain_bind_iff, Trace.gives_pure_iff,
        Prod.mk.injEq] at hDone
      exact
        ⟨tree, by rw [← hDone.1, ← hPage],
          Tree.touched_of_addPage hTree,
          fun _ hLinked => hLinked.addPage hTree⟩
  | «matches» node selector =>
      exact unchanged _ (same_of_ask hRun)
  | query selector => exact unchanged _ (same_of_ask hRun)
  | queryAll selector => exact unchanged _ (same_of_ask hRun)
  | find node selector => exact unchanged _ (same_of_ask hRun)
  | bind node event label =>
      rw [perform, Trace.gives_bind_iff] at hRun
      rcases hRun with ⟨⟨attached, id⟩, hBind, hDone⟩
      rw [Document.bind_gives_iff, Prod.mk.injEq] at hBind
      rw [Trace.gives_pure_iff, Prod.mk.injEq] at hDone
      exact hDone.1.symm.trans hBind.1
  | delegate node selector event label =>
      rw [perform, Trace.gives_bind_iff] at hRun
      rcases hRun with ⟨⟨attached, id⟩, hBind, hDone⟩
      rw [Document.delegate_gives_iff, Prod.mk.injEq] at hBind
      rw [Trace.gives_pure_iff, Prod.mk.injEq] at hDone
      exact hDone.1.symm.trans hBind.1
  | unbind node event listener =>
      simp only [perform, Trace.gives_pure_iff,
        Prod.mk.injEq] at hRun
      exact hRun.1.symm
  | undelegate node selector event listener =>
      simp only [perform, Trace.gives_pure_iff,
        Prod.mk.injEq] at hRun
      exact hRun.1.symm
  | dispatch node event =>
      rw [perform, Trace.gives_bind_iff] at hRun
      rcases hRun with ⟨n, _, hDone⟩
      rw [Trace.gives_pure_iff, Prod.mk.injEq] at hDone
      exact unchanged _ hDone.1.symm

end PageOperation

------------------------------------------------------------
-- Operations on registries
------------------------------------------------------------

namespace RegistryOperation

/- What an operation makes of a session. -/
def Outcome
    (s s' : Session) : RegistryOperation → Prop
  | .addProvider provider _ =>
      Registry.Bindings (some provider.shortName)
        ((s.registry.evicted s.page provider.shortName).1,
          (s.registry.evicted s.page
            provider.shortName).2.enrolled
              provider s.providers.length)
        (s'.page, s'.registry) ∧
          s'.providers.length = s.providers.length + 1
  | .removeProvider name =>
      (s'.page, s'.registry) = s.registry.evicted s.page name
  | .clear => (s'.page, s'.registry) = s.registry.clear s.page
  | .teardown =>
      s'.page = (s.registry.clear s.page).1 ∧
        s'.registry = (s.retire s.initial).registry
  | .replace config =>
      s'.page = s.page ∧
        s'.registry = (s.retire config).registry
  | .parse _ =>
      Registry.Bindings none (s.page, s.registry)
        (s'.page, s'.registry)
  | .parseFor name _ =>
      Registry.Bindings (some name) (s.page, s.registry)
        (s'.page, s'.registry)
  | .unbind name =>
      (s'.page, s'.registry) = s.registry.unbind s.page name
  | .setEnabled enabled =>
      s'.page = s.page ∧
        s'.registry = s.registry.setEnabled enabled
  | .setDebug debug =>
      s'.page = s.page ∧
        s'.registry = s.registry.setDebug debug
  | .push _ _ | .setTransport _ _ =>
      s'.page = s.page ∧ s'.registry = s.registry

theorem outcome_of_perform
    {s s' : Session}
    {operation : RegistryOperation}
    {answer : Answer}
    (hRun : (operation.perform s).Gives (s', answer)) :
    operation.Outcome s s' ∧
      s.providers.length ≤ s'.providers.length := by
  cases operation with
  | addProvider provider hasTransport =>
      rw [perform, Trace.gives_bind_iff] at hRun
      rcases hRun with ⟨⟨page, r, n⟩, hAdd, hDone⟩
      simp only [Trace.gives_pure_iff, Prod.mk.injEq] at hDone
      rcases hDone with ⟨rfl, _⟩
      refine ⟨⟨Registry.add_bindings hAdd, ?_⟩, ?_⟩
      · simp [Session.withPage]
      · simp [Session.withPage]
  | removeProvider name =>
      rw [perform, Trace.gives_bind_iff] at hRun
      rcases hRun with ⟨⟨page, r, found⟩, hRemove, hDone⟩
      simp only [Trace.gives_pure_iff, Prod.mk.injEq] at hDone
      rcases hDone with ⟨rfl, _⟩
      exact ⟨Registry.remove_gives hRemove, Nat.le_refl _⟩
  | clear =>
      simp only [perform, Trace.gives_pure_iff,
        Prod.mk.injEq] at hRun
      rcases hRun with ⟨rfl, _⟩
      exact ⟨rfl, Nat.le_refl _⟩
  | teardown =>
      simp only [perform, Trace.gives_pure_iff,
        Prod.mk.injEq] at hRun
      rcases hRun with ⟨rfl, _⟩
      exact ⟨⟨rfl, rfl⟩, Nat.le_refl _⟩
  | replace config =>
      simp only [perform, Trace.gives_pure_iff,
        Prod.mk.injEq] at hRun
      rcases hRun with ⟨rfl, _⟩
      exact ⟨⟨rfl, rfl⟩, Nat.le_refl _⟩
  | parse root =>
      rw [perform, Trace.gives_bind_iff] at hRun
      rcases hRun with ⟨⟨page, r, n⟩, hScan, hDone⟩
      simp only [Trace.gives_pure_iff, Prod.mk.injEq] at hDone
      rcases hDone with ⟨rfl, _⟩
      exact ⟨Registry.scan_bindings hScan, Nat.le_refl _⟩
  | parseFor name root =>
      rw [perform, Trace.gives_bind_iff] at hRun
      rcases hRun with ⟨⟨page, r, n⟩, hScan, hDone⟩
      simp only [Trace.gives_pure_iff, Prod.mk.injEq] at hDone
      rcases hDone with ⟨rfl, _⟩
      exact ⟨Registry.scan_bindings hScan, Nat.le_refl _⟩
  | unbind name =>
      simp only [perform, Trace.gives_pure_iff,
        Prod.mk.injEq] at hRun
      rcases hRun with ⟨rfl, _⟩
      exact ⟨rfl, Nat.le_refl _⟩
  | push name payload =>
      rw [perform, Trace.gives_bind_iff] at hRun
      rcases hRun with ⟨_, _, hDone⟩
      rw [Trace.gives_pure_iff, Prod.mk.injEq] at hDone
      rcases hDone with ⟨rfl, _⟩
      exact ⟨⟨rfl, rfl⟩, Nat.le_refl _⟩
  | setEnabled enabled =>
      simp only [perform, Trace.gives_pure_iff,
        Prod.mk.injEq] at hRun
      rcases hRun with ⟨rfl, _⟩
      exact ⟨⟨rfl, rfl⟩, Nat.le_refl _⟩
  | setDebug debug =>
      simp only [perform, Trace.gives_pure_iff,
        Prod.mk.injEq] at hRun
      rcases hRun with ⟨rfl, _⟩
      exact ⟨⟨rfl, rfl⟩, Nat.le_refl _⟩
  | setTransport provider hasTransport =>
      simp only [perform, Trace.gives_pure_iff,
        Prod.mk.injEq] at hRun
      rcases hRun with ⟨rfl, _⟩
      exact
        ⟨⟨rfl, rfl⟩,
          Nat.le_of_eq (List.length_modify _ _ _).symm⟩

end RegistryOperation

------------------------------------------------------------
-- Actions
------------------------------------------------------------

namespace Session

/- What an action makes of a session. -/
def Becomes
    (s s' : Session) : Action → Prop
  | .operation (.page operation) =>
      s'.registry = s.registry ∧
        operation.Outcome s.page s'.page
  | .operation (.registry operation) => operation.Outcome s s'
  | .operation (.language _ _) =>
      s'.registry = s.registry ∧ s'.page = s.page
  | .build call =>
      s'.registry = s.registry ∧
        ∃ tree,
          s'.page = { s.page with tree } ∧
            Tree.Edited (call.Permitted s.page.tree)
              s.page.tree tree

/- Counting runs changes no more than their counts. -/
theorem length_countRun
    (effects : List Effect)
    (states : List ProviderState) :
    (effects.foldl countRun states).length =
      states.length := by
  induction effects generalizing states with
  | nil => rfl
  | cons effect rest ih =>
      rw [List.foldl_cons, ih]
      cases effect <;> simp [countRun]

/-
  A step performs its operation, and then no more than counts
  the runs and tells what the effects come to.
-/
theorem step_cases
    {s s' : Session}
    {operation : Operation}
    {answer : Answer}
    {reports : List Report}
    (hRun :
      s.step operation = .ok (s', answer, reports)) :
    ∃ s₁ effects,
      s.perform operation = .done (s₁, answer) effects ∧
        s' =
          { s₁ with
            providers :=
              effects.foldl countRun s₁.providers } ∧
        reports =
          effects.flatMap
            (s₁.report (callerDebug operation)) := by
  unfold step at hRun
  cases hPerform : s.perform operation with
  | fault why => simp [hPerform] at hRun
  | done result effects =>
      rcases result with ⟨s₁, answer₁⟩
      simp only [hPerform, settle, Except.ok.injEq,
        Prod.mk.injEq] at hRun
      rcases hRun with ⟨hSession, rfl, hReports⟩
      exact
        ⟨s₁, effects, rfl, hSession.symm, hReports.symm⟩

/- What is performed comes to an answer. -/
theorem exists_step
    {s : Session}
    {operation : Operation}
    (hSome : ∃ result, (s.perform operation).Gives result) :
    ∃ s' answer reports,
      s.step operation = .ok (s', answer, reports) := by
  rcases hSome with ⟨⟨s₁, answer⟩, effects, hPerform⟩
  unfold step
  rw [hPerform]
  exact ⟨_, _, _, rfl⟩

/- Taking a provider out comes to an end, if it is there or not. -/
theorem step_removeProvider
    (s : Session)
    (name : String) :
    ∃ reports,
      s.step (.registry (.removeProvider name)) =
        .ok
          (s.withPage (s.registry.evicted s.page name).1
              (s.registry.evicted s.page name).2,
            .truth (s.registry.contains name), reports) := by
  rcases s.registry.exists_remove_eq s.page name with
    ⟨level, message, hRemove⟩
  simp only [step, perform, RegistryOperation.perform, hRemove]
  exact ⟨_, rfl⟩

/- Notes count no runs. -/
theorem foldl_countRun_of_notes
    {notes : List Effect}
    (hNotes : ∀ e ∈ notes, e.isNote = true)
    (states : List ProviderState) :
    notes.foldl countRun states = states := by
  induction notes with
  | nil => rfl
  | cons e notes ih =>
      rw [List.forall_mem_cons] at hNotes
      cases e with
      | note origin level message => exact ih hNotes.2
      | _ => cases hNotes.1

/- A question that writes notes changes nothing. -/
theorem step_of_notes
    (s : Session)
    {operation : PageOperation}
    {answer : Answer}
    {notes : List Effect}
    (hNotes : ∀ e ∈ notes, e.isNote = true)
    (hDone :
      operation.perform s.surroundings s.page =
        .done (s.page, answer) notes) :
    s.step (.page operation) =
      .ok (s, answer, notes.flatMap (s.report true)) := by
  have hPerform :
      s.perform (.page operation) = .done (s, answer) notes := by
    rw [perform, hDone]
    exact Trace.map_done _ _ _
  rw [step, hPerform]
  simp only [settle, foldl_countRun_of_notes hNotes]
  rfl

/- What is told of a page that the parser complains of. -/
def complained
    (s : Session)
    (html : String) : List Report :=
  (s.complaints html).map fun message =>
    .log .debug none ("HTML parse error: " ++ message)

/- Complaints show in every session, and count no runs. -/
theorem settle_notes
    (s : Session)
    (debug : Bool)
    (html : String) :
    s.settle debug (s.surroundings.notes html) =
      (s, s.complained html) := by
  have hNotes :
      ∀ e ∈ s.surroundings.notes html, e.isNote = true := by
    intro e hMember
    rcases List.mem_map.mp hMember with ⟨message, _, rfl⟩
    rfl
  rw [settle, foldl_countRun_of_notes hNotes]
  congr 1
  rw [Surroundings.notes, List.flatMap_map, complained,
    ← List.flatMap_pure_eq_map]
  rfl

/- A page is added with its complaints, if it can be read. -/
theorem step_appendPage
    {s : Session}
    {node : NodeId}
    {html : String}
    {tree : Tree}
    {ids : List NodeId}
    (hRun : s.page.tree.appendPage node html = .ok (tree, ids)) :
    s.step (.page (.appendPage node html)) =
      .ok
        ({ s with page := { s.page with tree } }, .nodes ids,
          s.complained html) := by
  let s' : Session := { s with page := { s.page with tree } }
  have hPerform :
      s.perform (.page (.appendPage node html)) =
        .done (s', .nodes ids) (s.surroundings.notes html) := by
    rw [perform, PageOperation.perform, Document.appendPage,
      hRun, Surroundings.complain_eq]
    simp [bind, Trace.bind, pure, Trace.pure, Trace.after, s']
    rfl
  rw [step, hPerform]
  exact
    congrArg
      (fun settled =>
        Except.ok (settled.1, Answer.nodes ids, settled.2))
      (s'.settle_notes true html)

/- A step on a document is what the operation makes of it. -/
theorem gives_of_step_page
    {s s' : Session}
    {operation : PageOperation}
    {answer : Answer}
    {reports : List Report}
    (hRun :
      s.step (.page operation) = .ok (s', answer, reports)) :
    (operation.perform s.surroundings s.page).Gives
      (s'.page, answer) := by
  rcases step_cases hRun with ⟨s₁, effects, hPerform, rfl, _⟩
  have hGives : (s.perform (.page operation)).Gives _ :=
    ⟨effects, hPerform⟩
  rw [perform, Trace.gives_bind_iff] at hGives
  rcases hGives with ⟨⟨page, answer₁⟩, hPage, hDone⟩
  rw [Trace.gives_pure_iff, Prod.mk.injEq] at hDone
  rcases hDone with ⟨rfl, rfl⟩
  exact hPage

theorem perform_becomes
    {s s' : Session}
    {operation : Operation}
    {answer : Answer}
    (hRun : (s.perform operation).Gives (s', answer)) :
    s.Becomes s' (.operation operation) ∧
      s.providers.length ≤ s'.providers.length := by
  cases operation with
  | page operation =>
      rw [perform, Trace.gives_bind_iff] at hRun
      rcases hRun with ⟨⟨page, answer₁⟩, hPage, hDone⟩
      rw [Trace.gives_pure_iff, Prod.mk.injEq] at hDone
      rcases hDone with ⟨rfl, _⟩
      exact
        ⟨⟨rfl, PageOperation.outcome_of_perform hPage⟩,
          Nat.le_refl _⟩
  | registry operation =>
      exact RegistryOperation.outcome_of_perform hRun
  | language caller operation =>
      rw [perform, Trace.gives_bind_iff] at hRun
      rcases hRun with ⟨answer₁, _, hDone⟩
      rw [Trace.gives_pure_iff, Prod.mk.injEq] at hDone
      rcases hDone with ⟨rfl, _⟩
      exact ⟨⟨rfl, rfl⟩, Nat.le_refl _⟩

/- An action that is an operation is a step. -/
theorem step_of_act
    {s s' : Session}
    {operation : Operation}
    (hAct : s.act (.operation operation) = .ok s') :
    ∃ answer reports,
      s.step operation = .ok (s', answer, reports) := by
  rw [act, Outcome.bind_eq_ok_iff] at hAct
  rcases hAct with ⟨⟨s₁, answer, reports⟩, hStep, hDone⟩
  rw [Outcome.pure_eq_ok_iff] at hDone
  exact ⟨answer, reports, hDone ▸ hStep⟩

/- Any other action is a call that runs on the tree. -/
theorem run_of_act
    {s s' : Session}
    {call : Html.TreeCall NodeId}
    (hAct : s.act (.build call) = .ok s') :
    ∃ tree made,
      call.run s.page.tree = .ok (tree, made) ∧
        s' = { s with page := { s.page with tree } } := by
  rw [act, Outcome.bind_eq_ok_iff] at hAct
  rcases hAct with ⟨⟨tree, made⟩, hRun, hDone⟩
  rw [Outcome.pure_eq_ok_iff] at hDone
  exact ⟨tree, made, hRun, hDone.symm⟩

theorem becomes_of_act
    {s s' : Session}
    {action : Action}
    (hAct : s.act action = .ok s') :
    s.Becomes s' action ∧
      s.providers.length ≤ s'.providers.length := by
  cases action with
  | operation operation =>
      rcases step_of_act hAct with ⟨answer, reports, hStep⟩
      rcases step_cases hStep with
        ⟨s₁, effects, hPerform, rfl, _⟩
      rcases perform_becomes ⟨effects, hPerform⟩ with
        ⟨hBecomes, hLength⟩
      rw [length_countRun]
      refine ⟨?_, hLength⟩
      cases operation with
      | page operation => exact hBecomes
      | language caller operation => exact hBecomes
      | registry operation =>
          cases operation with
          | addProvider provider hasTransport =>
              exact
                ⟨hBecomes.1,
                  (length_countRun _ _).trans hBecomes.2⟩
          | _ => exact hBecomes
  | build call =>
      rcases run_of_act hAct with ⟨tree, made, hCall, rfl⟩
      exact
        ⟨⟨rfl, tree, rfl, Html.TreeCall.touched_of_run hCall,
          fun hPermitted hLinked =>
            Html.TreeCall.linked_run hLinked hPermitted hCall⟩,
          Nat.le_refl _⟩

end Session

------------------------------------------------------------
-- What stays
------------------------------------------------------------

/- All but a removal is an edit that removes no node. -/
theorem PageOperation.Outcome.edited
    {page page' : Page}
    {operation : PageOperation}
    (hOutcome : operation.Outcome page page')
    (hOther : ∀ node, operation ≠ .remove node) :
    Tree.Edited (operation.Permitted page.tree) page.tree
      page'.tree := by
  cases operation with
  | remove node => exact (hOther node rfl).elim
  | bind node event label =>
      have hPage : page' = _ := hOutcome
      exact hPage ▸ Tree.Edited.refl _ _
  | delegate node selector event label =>
      have hPage : page' = _ := hOutcome
      exact hPage ▸ Tree.Edited.refl _ _
  | unbind node event listener =>
      have hPage : page' = _ := hOutcome
      exact hPage ▸ Tree.Edited.refl _ _
  | undelegate node selector event listener =>
      have hPage : page' = _ := hOutcome
      exact hPage ▸ Tree.Edited.refl _ _
  | _ =>
      rcases hOutcome with ⟨tree, rfl, hEdited⟩
      exact hEdited

theorem PageOperation.Outcome.succeeds
    {page page' : Page}
    {operation : PageOperation}
    (hOutcome : operation.Outcome page page') :
    Document.Succeeds page page' := by
  cases operation with
  | remove node =>
      rcases hOutcome with ⟨tree, _, rfl⟩
      exact .ofSublist rfl List.filter_sublist
  | bind node event label =>
      have hPage : page' = _ := hOutcome
      exact hPage ▸ .attached _ _ _ none _
  | delegate node selector event label =>
      have hPage : page' = _ := hOutcome
      exact hPage ▸ .attached _ _ _ (some selector) _
  | unbind node event listener =>
      have hPage : page' = _ := hOutcome
      exact hPage ▸ .detach _ _ _ _ _
  | undelegate node selector event listener =>
      have hPage : page' = _ := hOutcome
      exact hPage ▸ .detach _ _ _ _ _
  | _ =>
      rcases hOutcome with ⟨tree, rfl, _⟩
      exact .ofSublist rfl (List.Sublist.refl _)

/- A page has lost some listeners, and nothing else. -/
def Document.Reduced
    (page page' : Page) : Prop :=
  ∃ p, page' =
    { page with listeners := page.listeners.filter p }

theorem Document.reduced_refl
    (page : Page) :
    Reduced page page := by
  refine ⟨fun _ => true, ?_⟩
  rw [List.filter_eq_self.mpr fun _ _ => rfl]

/-
  An operation of a registry detaches listeners, and then
  attaches some in a scan.
-/
theorem RegistryOperation.Outcome.scanned
    {s s' : Session}
    {operation : RegistryOperation}
    (hOutcome : operation.Outcome s s') :
    ∃ only page r,
      Document.Reduced s.page page ∧
        Registry.Bindings only (page, r)
          (s'.page, s'.registry) := by
  have hReduced :
      Document.Reduced s.page s'.page →
        ∃ only page r,
          Document.Reduced s.page page ∧
            Registry.Bindings only (page, r)
              (s'.page, s'.registry) := by
    intro hPage
    exact
      ⟨none, s'.page, s'.registry, hPage,
        Relation.ReflTransGen.refl⟩
  have hSame :
      s'.page = s.page →
        ∃ only page r,
          Document.Reduced s.page page ∧
            Registry.Bindings only (page, r)
              (s'.page, s'.registry) := by
    intro hPage
    apply hReduced
    rw [hPage]
    exact Document.reduced_refl s.page
  cases operation with
  | addProvider provider hasTransport =>
      exact
        ⟨some provider.shortName, _, _, ⟨_, rfl⟩, hOutcome.1⟩
  | parse root =>
      exact
        ⟨none, _, _, Document.reduced_refl s.page, hOutcome⟩
  | parseFor name root =>
      exact
        ⟨some name, _, _, Document.reduced_refl s.page,
          hOutcome⟩
  | removeProvider name =>
      have hPage : s'.page = _ := congrArg Prod.fst hOutcome
      exact hReduced ⟨_, hPage⟩
  | clear =>
      have hPage : s'.page = _ := congrArg Prod.fst hOutcome
      rw [Registry.clear_eq] at hPage
      exact hReduced ⟨_, hPage⟩
  | teardown =>
      have hPage : s'.page = _ := hOutcome.1
      rw [Registry.clear_eq] at hPage
      exact hReduced ⟨_, hPage⟩
  | unbind name =>
      have hPage : s'.page = _ := congrArg Prod.fst hOutcome
      rw [Registry.unbind_eq] at hPage
      exact hReduced ⟨_, hPage⟩
  | replace config => exact hSame hOutcome.1
  | setEnabled enabled => exact hSame hOutcome.1
  | setDebug debug => exact hSame hOutcome.1
  | push name payload => exact hSame hOutcome.1
  | setTransport provider hasTransport =>
      exact hSame hOutcome.1

/- So it leaves the tree alone, and the order of listeners. -/
theorem RegistryOperation.Outcome.page
    {s s' : Session}
    {operation : RegistryOperation}
    (hOutcome : operation.Outcome s s') :
    s'.page.tree = s.page.tree ∧
      Document.Succeeds s.page s'.page := by
  rcases hOutcome.scanned with ⟨only, page, r, hPage, hScan⟩
  rcases hPage with ⟨p, rfl⟩
  have hFewer :
      Document.Succeeds s.page
        { s.page with
          listeners := s.page.listeners.filter p } :=
    .ofSublist rfl List.filter_sublist
  exact ⟨hScan.same.1, hFewer.trans hScan.succeeds⟩

namespace Session

theorem Becomes.succeeds
    {s s' : Session}
    {action : Action}
    (hBecomes : s.Becomes s' action) :
    Document.Succeeds s.page s'.page := by
  cases action with
  | operation operation =>
      cases operation with
      | page operation => exact hBecomes.2.succeeds
      | registry operation =>
          exact RegistryOperation.Outcome.page hBecomes |>.2
      | language caller operation =>
          exact hBecomes.2 ▸ .refl _
  | build call =>
      rcases hBecomes.2 with ⟨tree, hPage, _⟩
      rw [hPage]
      exact .ofSublist rfl (List.Sublist.refl _)

/- All but a removal is an edit that removes no node. -/
theorem Becomes.edited
    {s s' : Session}
    {action : Action}
    (hBecomes : s.Becomes s' action)
    (hOther :
      ∀ node, action ≠ .operation (.page (.remove node))) :
    Tree.Edited (s.Permits action) s.page.tree
      s'.page.tree := by
  cases action with
  | operation operation =>
      cases operation with
      | page operation =>
          apply hBecomes.2.edited
          rintro node rfl
          exact hOther node rfl
      | registry operation =>
          rw [(RegistryOperation.Outcome.page hBecomes).1]
          exact .refl _ _
      | language caller operation =>
          rw [hBecomes.2]
          exact .refl _ _
  | build call =>
      rcases hBecomes.2 with ⟨tree, hPage, hEdited⟩
      rw [hPage]
      exact hEdited

/- A permitted action keeps the links in agreement. -/
theorem Becomes.linked
    {s s' : Session}
    {action : Action}
    (hBecomes : s.Becomes s' action)
    (hPermits : s.Permits action)
    (hLinked : s.page.tree.Linked) :
    s'.page.tree.Linked := by
  by_cases hRemoval :
      ∃ node, action = .operation (.page (.remove node))
  · rcases hRemoval with ⟨node, rfl⟩
    rcases hBecomes.2 with ⟨tree, hTree, hPage⟩
    rw [hPage]
    exact hLinked.remove hTree
  · apply (hBecomes.edited _).linked hPermits hLinked
    intro node hAction
    exact hRemoval ⟨node, hAction⟩

------------------------------------------------------------
-- Whole histories
------------------------------------------------------------

/- A run under more conditions is one under fewer. -/
theorem History.weaken
    {allowed allowed' : Session → Action → Prop}
    (hWeaker : ∀ s action, allowed s action → allowed' s action)
    {states : List Session}
    (hHistory : History allowed states) :
    History allowed' states := by
  induction hHistory with
  | start config complaints => exact .start config complaints
  | step action s' _ hAllowed hAct ih =>
      exact ih.step action s' (hWeaker _ _ hAllowed) hAct

/- What holds at the start and is kept holds throughout. -/
theorem History.holds
    {allowed : Session → Action → Prop}
    {P : Session → Prop}
    (hStart :
      ∀ config complaints,
        P (Session.start Document.empty config complaints))
    (hStep :
      ∀ s action s', P s → allowed s action →
        s.Becomes s' action → P s')
    {states : List Session}
    (hHistory : History allowed states) :
    ∀ s ∈ states, P s := by
  induction hHistory with
  | start config complaints =>
      simpa using hStart config complaints
  | step action s' hBefore hAllowed hAct ih =>
      rename_i s earlier
      have hLast := ih s (by simp)
      have hNew :=
        hStep s action s' hLast hAllowed
          (becomes_of_act hAct).1
      intro x hMember
      rcases List.mem_cons.mp hMember with rfl | hOld
      · exact hNew
      · exact ih x hOld

theorem History.linked
    {states : List Session}
    (hHistory : History Permits states) :
    ∀ s ∈ states, s.page.tree.Linked :=
  hHistory.holds (fun _ _ => Tree.linked_empty)
    fun _ _ _ hLinked hPermits hBecomes =>
      hBecomes.linked hPermits hLinked

/- In particular the links of the last tree agree. -/
theorem History.linked_last
    {s : Session}
    {earlier : List Session}
    (hHistory : History Permits (s :: earlier)) :
    s.page.tree.Linked :=
  hHistory.linked s (by simp)

/- A call that the tree admits is permitted. -/
theorem permits_build
    {s : Session}
    {call : Html.TreeCall NodeId}
    (hLinked : s.page.tree.Linked)
    (hAdmits : s.page.tree.admits call = true) :
    s.Permits (.build call) :=
  Html.TreeCall.permitted_of_admits hLinked hAdmits

theorem History.numbered
    {allowed : Session → Action → Prop}
    {states : List Session}
    (hHistory : History allowed states) :
    ∀ s ∈ states, s.page.Numbered :=
  hHistory.holds (fun _ _ => Document.numbered_ofTree _)
    fun _ _ _ hNumbered _ hBecomes =>
      hNumbered.succeeds hBecomes.succeeds

/- The last page comes after every earlier one. -/
theorem History.succeeds
    {allowed : Session → Action → Prop}
    {s : Session}
    {earlier : List Session}
    (hHistory : History allowed (s :: earlier)) :
    ∀ r ∈ s :: earlier, Document.Succeeds r.page s.page := by
  generalize hStates : s :: earlier = states at hHistory
  induction hHistory generalizing s earlier with
  | start config =>
      cases hStates
      simpa using Document.Succeeds.refl _
  | step action s' hBefore hAllowed hAct ih =>
      cases hStates
      intro r hMember
      rcases List.mem_cons.mp hMember with rfl | hOld
      · exact Document.Succeeds.refl _
      · exact
          (ih rfl r hOld).trans
            (becomes_of_act hAct).1.succeeds

------------------------------------------------------------
-- Small sessions
------------------------------------------------------------

/- A session on a few nodes, without listeners and providers. -/
def ofNodes
    (nodes : List Node) : Session :=
  start (Document.ofTree ⟨(nodes.map some).toArray, []⟩) {}

/- The document node. -/
def rootNode
    (children : List NodeId) : Node :=
  { id := 0, children, data := .document }

/- An HTML element without attributes. -/
def htmlNode
    (id : NodeId)
    (name : String)
    (parent : Option NodeId)
    (children : List NodeId) : Node :=
  { id, parent, children, data := .element ⟨.html name, []⟩ }

/- A session with one element, which stands nowhere. -/
def ofElement
    (e : Element) : Session :=
  ofNodes [rootNode [], { id := 1, data := .element e }]

end Session

end MarkupMetrics
