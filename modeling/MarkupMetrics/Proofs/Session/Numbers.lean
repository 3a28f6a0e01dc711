import MarkupMetrics.Proofs.Session.History
import Mathlib

/-
  This file proves what the numbers of listeners are good for.

  A number is given out once in a run, also where the node is
  missing and the number is lost.  A node that takes the id of
  a removed one starts without listeners.  A listener is
  detached by its number only together with its node, its
  event and the very text of its selector, and no other
  listener goes with it.

  Key definitions include:
    * `PageOperation.record?`
    * `Document.Gains`
    * `Document.Loses`
    * `Session.Hands`
    * `Session.Listens`

  Key theorems include:
    * `Document.Numbered.loses`
    * `Session.Becomes.listener_cases`
    * `Session.Hands.range`
    * `Session.listens_of_history`
-/

namespace MarkupMetrics

open Dom

------------------------------------------------------------
-- Operations
------------------------------------------------------------

namespace PageOperation

/- The record of what an operation attaches by some number. -/
def record? : PageOperation → Nat → Option Binding
  | .bind node event _, id => some ⟨node, event, none, id⟩
  | .delegate node selector event _, id =>
      some ⟨node, event, some selector, id⟩
  | _, _ => none

/- The record of what an operation detaches. -/
def detached? : PageOperation → Option Binding
  | .unbind node event listener =>
      some ⟨node, event, none, listener⟩
  | .undelegate node selector event listener =>
      some ⟨node, event, some selector, listener⟩
  | _ => none

/- Whether an operation makes one node. -/
def makes : PageOperation → Bool
  | .createElement _ _ | .createText _ | .createComment => true
  | _ => false

end PageOperation

------------------------------------------------------------
-- Pages
------------------------------------------------------------

namespace Document

/-
  A page uses up a number.  It gains the listener with a
  record at the end, unless the node of that is missing.
-/
inductive Gains
    (page page' : Page)
    (b : Binding) : Prop where
  | one
      (l : Listener Handler)
      (hLive : page.tree.contains b.element = true)
      (hNames : b.names l = true)
      (hPage :
        page' =
          { page with
            listeners := page.listeners ++ [l]
            nextListener := page.nextListener + 1 })
  | none
      (hMissing : page.tree.contains b.element = false)
      (hPage :
        page' =
          { page with nextListener := page.nextListener + 1 })

/-
  A page loses the one listener with a record, or stays the
  same for want of such a listener.
-/
inductive Loses
    (page page' : Page)
    (b : Binding) : Prop where
  | one
      (before after : List (Listener Handler))
      (l : Listener Handler)
      (hLive : page.tree.contains b.element = true)
      (hNames : b.names l = true)
      (hBefore : page.listeners = before ++ l :: after)
      (hAfter :
        page' = { page with listeners := before ++ after })
  | none
      (hNone : ∀ l ∈ page.listeners, b.names l = false)
      (hPage : page' = page)

theorem attached_gains
    (page : Page)
    (node : NodeId)
    (event : String)
    (source : Option String)
    (h : Handler) :
    Gains page
      (page.attached node event (source.map .ofText) h)
      ⟨node, event, source, page.nextListener⟩ := by
  cases hLive : page.tree.contains node with
  | false =>
      apply Gains.none hLive
      simp [attached, hLive]
  | true =>
      let l : Listener Handler :=
        ⟨page.nextListener, node, event, source.map .ofText, h⟩
      have hSource : l.source? = source :=
        Delegation.source_ofText source
      apply Gains.one l hLive
      · exact Binding.names_iff.mpr ⟨rfl, rfl, rfl, hSource⟩
      · simp [attached, hLive, l]

/- Of the listeners in order one at most has a record. -/
theorem Numbered.filter_names
    {page : Page}
    (hNumbered : page.Numbered)
    {b : Binding}
    {before after : List (Listener Handler)}
    {l : Listener Handler}
    (hNames : b.names l = true)
    (hList : page.listeners = before ++ l :: after) :
    (page.listeners.filter fun m => !b.names m) =
      before ++ after := by
  have hApart := hNumbered.increasing
  rw [hList, List.pairwise_append, List.pairwise_cons]
    at hApart
  have hOther :
      ∀ m : Listener Handler, m.id ≠ l.id →
        (!b.names m) = true := by
    intro m hId
    rw [Bool.not_eq_true', Bool.eq_false_iff]
    intro hAlso
    apply hId
    rw [(Binding.names_iff.mp hAlso).2.1,
      (Binding.names_iff.mp hNames).2.1]
  have hBefore : ∀ m ∈ before, (!b.names m) = true := by
    intro m hMember
    have hLess := hApart.2.2 m hMember l List.mem_cons_self
    exact hOther m (Nat.ne_of_lt hLess)
  have hAfter : ∀ m ∈ after, (!b.names m) = true := by
    intro m hMember
    exact hOther m (Nat.ne_of_gt (hApart.2.1.1 m hMember))
  rw [hList, List.filter_append,
    List.filter_cons_of_neg (by simp [hNames]),
    List.filter_eq_self.mpr hBefore,
    List.filter_eq_self.mpr hAfter]

theorem Numbered.loses
    {page : Page}
    (hNumbered : page.Numbered)
    (hLive :
      ∀ l ∈ page.listeners, page.tree.contains l.node = true)
    (b : Binding) :
    Loses page (b.detach page) b := by
  have hDetach :
      b.detach page =
        { page with
          listeners :=
            page.listeners.filter fun l => !b.names l } :=
    rfl
  by_cases hSome : ∃ l ∈ page.listeners, b.names l = true
  · rcases hSome with ⟨l, hMember, hNames⟩
    rcases List.append_of_mem hMember with
      ⟨before, after, hList⟩
    have hElement := (Binding.names_iff.mp hNames).1
    apply
      Loses.one before after l (hElement ▸ hLive l hMember)
        hNames hList
    rw [hDetach, hNumbered.filter_names hNames hList]
  · have hNone : ∀ l ∈ page.listeners, b.names l = false := by
      simpa using hSome
    have hAll :
        (page.listeners.filter fun l => !b.names l) =
          page.listeners :=
      List.filter_eq_self.mpr fun l hMember => by
        simp [hNone l hMember]
    exact Loses.none hNone (by rw [hDetach, hAll])

end Document

------------------------------------------------------------
-- Listeners on nodes
------------------------------------------------------------

/- A scan attaches to nodes of the page only. -/
theorem Registry.Bindings.listener_cases
    {only : Option String}
    {w w' : Page × Registry}
    (hRun : Bindings only w w')
    {l : Listener Handler}
    (hMember : l ∈ w'.1.listeners) :
    l ∈ w.1.listeners ∨ w.1.tree.contains l.node = true := by
  induction hRun with
  | refl => exact Or.inl hMember
  | tail hBefore hStep ih =>
      cases hStep with
      | step page r before after e d h _ _ hLive =>
          rcases Document.mem_attached_iff.mp hMember with
            hOld | ⟨_, rfl⟩
          · exact ih hOld
          · have hTree := (Bindings.same hBefore).1
            exact Or.inr (hTree ▸ hLive)

/- So do the operations of a document. -/
theorem PageOperation.Outcome.listener_cases
    {page page' : Page}
    {operation : PageOperation}
    (hOutcome : operation.Outcome page page')
    {l : Listener Handler}
    (hMember : l ∈ page'.listeners) :
    l ∈ page.listeners ∨
      page.tree.contains l.node = true := by
  have hAttached :
      ∀ {node : NodeId} {event : String}
        {delegation : Option Delegation} {h : Handler},
        page' = page.attached node event delegation h →
          l ∈ page.listeners ∨
            page.tree.contains l.node = true := by
    rintro node event delegation h rfl
    rcases Document.mem_attached_iff.mp hMember with
      hOld | ⟨hLive, rfl⟩
    · exact Or.inl hOld
    · exact Or.inr hLive
  cases operation with
  | remove node =>
      rcases hOutcome with ⟨tree, _, rfl⟩
      exact Or.inl (List.mem_of_mem_filter hMember)
  | bind node event label => exact hAttached hOutcome
  | delegate node selector event label =>
      exact hAttached hOutcome
  | unbind node event listener =>
      have hPage : page' = _ := hOutcome
      rw [hPage] at hMember
      exact Or.inl (List.mem_of_mem_filter hMember)
  | undelegate node selector event listener =>
      have hPage : page' = _ := hOutcome
      rw [hPage] at hMember
      exact Or.inl (List.mem_of_mem_filter hMember)
  | _ =>
      rcases hOutcome with ⟨tree, rfl, _⟩
      exact Or.inl hMember

namespace Session

/- A listener was there before, or its node was. -/
theorem Becomes.listener_cases
    {s s' : Session}
    {action : Action}
    (hBecomes : s.Becomes s' action)
    {l : Listener Handler}
    (hMember : l ∈ s'.page.listeners) :
    l ∈ s.page.listeners ∨
      s.page.tree.contains l.node = true := by
  cases action with
  | operation operation =>
      cases operation with
      | page operation =>
          exact hBecomes.2.listener_cases hMember
      | registry operation =>
          rcases RegistryOperation.Outcome.scanned hBecomes with
            ⟨only, page, r, ⟨p, rfl⟩, hScan⟩
          rcases hScan.listener_cases hMember with hOld | hLive
          · exact Or.inl (List.mem_of_mem_filter hOld)
          · exact Or.inr hLive
      | language caller operation =>
          exact Or.inl (hBecomes.2 ▸ hMember)
  | build call =>
      rcases hBecomes.2 with ⟨tree, hPage, _⟩
      rw [hPage] at hMember
      exact Or.inl hMember

/- Free ids have no node, and missing nodes no listener. -/
structure Tidy
    (s : Session) : Prop where
  free : s.page.tree.FreeListed
  live :
    ∀ l ∈ s.page.listeners,
      s.page.tree.contains l.node = true

/- A session has no listeners on ids that hold no node. -/
theorem Tidy.listenersOf_missing
    {s : Session}
    (hTidy : s.Tidy)
    {i : NodeId}
    (hMissing : s.page.tree.contains i = false) :
    s.page.listenersOf i = [] := by
  apply List.filter_eq_nil_iff.mpr
  intro l hMember hNode
  have hThere := hTidy.live l hMember
  rw [beq_iff_eq.mp hNode, hMissing] at hThere
  cases hThere

theorem Becomes.tidy
    {s s' : Session}
    {action : Action}
    (hBecomes : s.Becomes s' action)
    (hTidy : s.Tidy) :
    s'.Tidy := by
  by_cases hRemoval :
      ∃ node, action = .operation (.page (.remove node))
  · rcases hRemoval with ⟨node, rfl⟩
    rcases hBecomes.2 with ⟨tree, hTree, hPage⟩
    constructor
    · rw [hPage]
      exact Tree.freeListed_of_remove hTidy.free hTree
    · rw [hPage]
      intro l hMember
      exact (List.mem_filter.mp hMember).2
  · have hEdited :=
      hBecomes.edited fun node hAction =>
        hRemoval ⟨node, hAction⟩
    constructor
    · exact hEdited.touched.freeListed hTidy.free
    · intro l hMember
      apply hEdited.keeps
      rcases hBecomes.listener_cases hMember with hOld | hLive
      · exact hTidy.live l hOld
      · exact hLive

theorem History.tidy
    {allowed : Session → Action → Prop}
    {states : List Session}
    (hHistory : History allowed states) :
    ∀ s ∈ states, s.Tidy :=
  hHistory.holds
    (fun _ _ => ⟨Tree.linked_empty.free, by
      intro l hMember
      cases hMember⟩)
    fun _ _ _ hTidy _ hBecomes => hBecomes.tidy hTidy

end Session

------------------------------------------------------------
-- Steps
------------------------------------------------------------

/- What attaches by one number does so by any other. -/
theorem PageOperation.record?_of_record?
    {operation : PageOperation}
    {id : Nat}
    {b : Binding}
    (hRecord : operation.record? id = some b)
    (id' : Nat) :
    operation.record? id' = some { b with listener := id' } := by
  cases operation with
  | bind node event label =>
      cases hRecord
      rfl
  | delegate node selector event label =>
      cases hRecord
      rfl
  | _ => cases hRecord

namespace Session

variable {s s' : Session}
variable {operation : PageOperation}

/- A request to attach is always answered. -/
theorem exists_step_attach
    {id : Nat}
    {b : Binding}
    (hRecord : operation.record? id = some b) :
    ∃ s' answer reports,
      s.step (.page operation) = .ok (s', answer, reports) := by
  have hPage :
      ∃ w, (operation.perform s.surroundings s.page).Gives w := by
    cases operation with
    | bind node event label =>
        exact
          Trace.exists_map (fun w => (w.1, Answer.count w.2))
            ⟨_, Document.bind_gives_iff.mpr rfl⟩
    | delegate node selector event label =>
        exact
          Trace.exists_map (fun w => (w.1, Answer.count w.2))
            ⟨_, Document.delegate_gives_iff.mpr rfl⟩
    | _ => cases hRecord
  apply exists_step
  exact
    Trace.exists_map (fun w => ({ s with page := w.1 }, w.2))
      hPage

/- The answer is the next number, which is used up. -/
theorem gains_of_step
    {b : Binding}
    {answer : Answer}
    {reports : List Report}
    (hRecord :
      operation.record? s.page.nextListener = some b)
    (hStep :
      s.step (.page operation) = .ok (s', answer, reports)) :
    answer = .count s.page.nextListener ∧
      s.page.Gains s'.page b := by
  have hGives := gives_of_step_page hStep
  cases operation with
  | bind node event label =>
      cases hRecord
      rw [PageOperation.perform, Trace.gives_bind_iff] at hGives
      rcases hGives with ⟨⟨attached, id⟩, hBind, hDone⟩
      rw [Document.bind_gives_iff, Prod.mk.injEq] at hBind
      rw [Trace.gives_pure_iff, Prod.mk.injEq] at hDone
      refine ⟨by rw [← hDone.2, hBind.2], ?_⟩
      rw [← hDone.1, hBind.1]
      exact s.page.attached_gains node event none _
  | delegate node selector event label =>
      cases hRecord
      rw [PageOperation.perform, Trace.gives_bind_iff] at hGives
      rcases hGives with ⟨⟨attached, id⟩, hBind, hDone⟩
      rw [Document.delegate_gives_iff, Prod.mk.injEq] at hBind
      rw [Trace.gives_pure_iff, Prod.mk.injEq] at hDone
      refine ⟨by rw [← hDone.2, hBind.2], ?_⟩
      rw [← hDone.1, hBind.1]
      exact s.page.attached_gains node event (some selector) _
  | _ => cases hRecord

/- A request to detach does no more than that. -/
theorem step_detach
    {b : Binding}
    (hRecord : operation.detached? = some b) :
    s.step (.page operation) =
      .ok
        ({ s with page := b.detach s.page },
          .count ((b.detach s.page).listenerCount b.element),
          []) := by
  cases operation with
  | unbind node event listener =>
      cases hRecord
      rfl
  | undelegate node selector event listener =>
      cases hRecord
      rfl
  | _ => cases hRecord

/- The id of a node that is made had no node before. -/
theorem made_of_step
    {node : NodeId}
    {reports : List Report}
    (hFree : s.page.tree.FreeListed)
    (hMakes : operation.makes = true)
    (hStep :
      s.step (.page operation) =
        .ok (s', .count node, reports)) :
    s.page.tree.contains node = false ∧
      s'.page.tree.contains node = true := by
  have hCreate :
      ∃ data, operation.perform s.surroundings s.page =
        PageOperation.create s.page data := by
    cases operation with
    | createElement tag attrs => exact ⟨_, rfl⟩
    | createText content => exact ⟨_, rfl⟩
    | createComment => exact ⟨_, rfl⟩
    | _ => cases hMakes
  rcases hCreate with ⟨data, hPerform⟩
  have hGives := gives_of_step_page hStep
  rw [hPerform, PageOperation.create, Trace.gives_pure_iff,
    Prod.mk.injEq] at hGives
  rcases hGives with ⟨hPage, hAnswer⟩
  cases hAnswer
  rw [← hPage]
  exact Tree.contains_created hFree data

------------------------------------------------------------
-- Numbers in runs
------------------------------------------------------------

/-
  A number is handed out: as the answer to a request to attach
  a listener, or to a listener that is attached.
-/
inductive Hands
    (s s' : Session)
    (id : Nat) : Prop where
  | answered
      {operation : PageOperation}
      {b : Binding}
      {reports : List Report}
      (hRecord : operation.record? id = some b)
      (hStep :
        s.step (.page operation) =
          .ok (s', .count id, reports))
  | attached
      {action : Action}
      {l : Listener Handler}
      (hAct : s.act action = .ok s')
      (hNew : l ∈ s'.page.listeners)
      (hOld : l ∉ s.page.listeners)
      (hId : l.id = id)

/- It is one that the counter passes in that step. -/
theorem Hands.range
    {id : Nat}
    (hHands : s.Hands s' id) :
    s.page.nextListener ≤ id ∧ id < s'.page.nextListener := by
  cases hHands with
  | answered hRecord hStep =>
      rcases
        gains_of_step
          (PageOperation.record?_of_record? hRecord _) hStep
        with ⟨hAnswer, hGains⟩
      cases hAnswer
      refine ⟨Nat.le_refl _, ?_⟩
      cases hGains with
      | one l _ _ hPage =>
          rw [hPage]
          exact Nat.lt_succ_self _
      | none _ hPage =>
          rw [hPage]
          exact Nat.lt_succ_self _
  | attached hAct hNew hOld hId =>
      rcases (becomes_of_act hAct).1.succeeds.listeners with
        ⟨kept, new, hList, hKept, _, hRange⟩
      rw [hList, List.mem_append] at hNew
      rcases hNew with hThere | hLater
      · exact (hOld (hKept.subset hThere)).elim
      · subst hId
        exact ⟨(hRange _ hLater).1, (hRange _ hLater).2.1⟩

/-
  What holds of the listeners of a session, and of what can
  happen to them next.  Every request to attach is answered by
  a number, which is used up even if the node is missing.
  Numbers that are handed out are greater than all those
  handed out before.  No number is attached twice, and those
  at a node increase.  Nodes that come to be have no listener.
  A request to detach takes the one listener with its record.
-/
structure Listens
    (s : Session)
    (earlier : List Session) : Prop where
  answered :
    ∀ operation b,
      PageOperation.record? operation s.page.nextListener =
          some b →
        ∃ s' reports,
          s.step (.page operation) =
              .ok (s', .count b.listener, reports) ∧
            s.page.Gains s'.page b
  fresh :
    ∀ s' id, s.Hands s' id →
      ∀ r r' older id', r' :: r :: older <:+ s :: earlier →
        r.Hands r' id' → id' < id
  once : (s.page.listeners.map (·.id)).Nodup
  increasing :
    ∀ node,
      ((s.page.listenersOf node).map (·.id)).Pairwise (· < ·)
  live :
    ∀ l ∈ s.page.listeners,
      s.page.tree.contains l.node = true
  made :
    ∀ operation s' node reports,
      PageOperation.makes operation = true →
        s.step (.page operation) =
            .ok (s', .count node, reports) →
          s.page.tree.contains node = false ∧
            s'.page.tree.contains node = true
  bare :
    ∀ action s' node, s.act action = .ok s' →
      s.page.tree.contains node = false →
        s'.page.listenersOf node = []
  detached :
    ∀ operation b,
      PageOperation.detached? operation = some b →
        ∃ page,
          s.step (.page operation) =
              .ok
                ({ s with page },
                  .count (page.listenerCount b.element), []) ∧
            s.page.Loses page b

theorem listens_of_history
    {allowed : Session → Action → Prop}
    {s : Session}
    {earlier : List Session}
    (hHistory : History allowed (s :: earlier)) :
    s.Listens earlier := by
  have hTidy := hHistory.tidy s List.mem_cons_self
  have hNumbered := hHistory.numbered s List.mem_cons_self
  constructor
  · intro operation b hRecord
    rcases exists_step_attach (s := s) hRecord with
      ⟨s', answer, reports, hStep⟩
    rcases gains_of_step hRecord hStep with
      ⟨rfl, hGains⟩
    have hNumber : b.listener = s.page.nextListener := by
      have hSame := PageOperation.record?_of_record? hRecord
        s.page.nextListener
      rw [hRecord, Option.some.injEq] at hSame
      rw [hSame]
    exact ⟨s', reports, hNumber ▸ hStep, hGains⟩
  · intro s' id hNow r r' older id' hSuffix hThen
    have hThere : r' ∈ s :: earlier :=
      hSuffix.subset List.mem_cons_self
    have hCounter := (hHistory.succeeds r' hThere).counter
    have hBefore := hThen.range.2
    have hAfter := hNow.range.1
    omega
  · exact
      List.pairwise_map.mpr
        (hNumbered.increasing.imp Nat.ne_of_lt)
  · intro node
    exact List.pairwise_map.mpr (hNumbered.increasing.filter _)
  · exact hTidy.live
  · intro operation s' node reports hMakes hStep
    exact made_of_step hTidy.free hMakes hStep
  · intro action s' node hAct hMissing
    apply List.filter_eq_nil_iff.mpr
    intro l hMember hAt
    have hNode : l.node = node := beq_iff_eq.mp hAt
    have hLive : s.page.tree.contains node = true := by
      rw [← hNode]
      rcases (becomes_of_act hAct).1.listener_cases hMember
        with hOld | hThere
      · exact hTidy.live l hOld
      · exact hThere
    rw [hMissing] at hLive
    cases hLive
  · intro operation b hRecord
    exact
      ⟨_, step_detach hRecord, hNumbered.loses hTidy.live b⟩

/- A session on a page with certain listeners. -/
private def withListeners
    (nodes : List (Option Node))
    (free : List NodeId)
    (listeners : List (Listener Handler))
    (next : Nat) : Session :=
  start
    { tree := ⟨nodes.toArray, free⟩
      listeners
      nextListener := next } {}

/-
  A listener is attached to an element, and another one to a
  node that is missing.  The element is removed, and a text
  takes its id; it has the third number alone.
-/
theorem listens_of_reused_id :
    ∃ s earlier,
      History Permits (s :: earlier) ∧
        s.page.listeners.map (fun l => (l.id, l.node)) =
            [(2, 1)] ∧
          s.Listens earlier := by
  let root : Option Node := some { id := 0, data := .document }
  let box : Option Node :=
    some { id := 1, data := .element ⟨.html "b", []⟩ }
  let text : Option Node := some { id := 1, data := .text "x" }
  let recorder (id : Nat) (label : String) :
      Listener Handler :=
    ⟨id, 1, "e", none, .recorder label⟩
  have h₀ : History Permits [withListeners [root] [] [] 0] :=
    .start {}
  have h₁ :=
    h₀.step (.operation (.page (.createElement "b" [])))
      (withListeners [root, box] [] [] 0) trivial rfl
  have h₂ :=
    h₁.step (.operation (.page (.bind 1 "e" "one")))
      (withListeners [root, box] [] [recorder 0 "one"] 1)
      trivial rfl
  have h₃ :=
    h₂.step (.operation (.page (.delegate 7 "b" "e" "lost")))
      (withListeners [root, box] [] [recorder 0 "one"] 2)
      trivial (by cbv)
  have h₄ :=
    h₃.step (.operation (.page (.remove 1)))
      (withListeners [root, none] [1] [] 2) trivial (by cbv)
  have h₅ :=
    h₄.step (.operation (.page (.createText "x")))
      (withListeners [root, text] [] [] 2) trivial rfl
  have h₆ :=
    h₅.step (.operation (.page (.bind 1 "e" "two")))
      (withListeners [root, text] [] [recorder 2 "two"] 3)
      trivial rfl
  exact ⟨_, _, h₆, rfl, listens_of_history h₆⟩

end Session

end MarkupMetrics
