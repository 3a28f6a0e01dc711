import MarkupMetrics.Proofs.Document.Comparing
import MarkupMetrics.Proofs.Session.Custody
import MarkupMetrics.Proofs.Session.Dispatch
import MarkupMetrics.Proofs.Session.Pushes

/-
  This file proves that taking a provider out of a registry
  goes unnoticed by the others.

  The listeners of the provider are gone, and the events make
  the calls that are left, in the same order and with the same
  payloads.  Nothing else has changed.

  Key definitions include:
    * `Registry.owns`
    * `Session.lessened`
    * `Session.Unnoticed`

  Key theorems include:
    * `Registry.Custody.without_meant`
    * `Session.unnoticed_of_history`
-/

namespace MarkupMetrics

open Dom

------------------------------------------------------------
-- The listeners of a provider
------------------------------------------------------------

namespace Registry

/- Whether a listener has the number of a binding of a name. -/
def owns
    (r : Registry)
    (name : String)
    (l : Listener Handler) : Bool :=
  (r.bindings name).any fun b => b.listener == l.id

variable {page : Page}
variable {r : Registry}

/-
  A listener with the number of a binding is the one that was
  recorded: its handler acts for the entry with that name.
-/
theorem Custody.owns_iff
    (hCustody : r.Custody page)
    (hDistinct : r.names.Nodup)
    {e : Entry}
    (hEntry : e ∈ r.entries)
    {l : Listener Handler}
    (hMember : l ∈ page.listeners) :
    r.owns e.shortName l = true ↔
      ∃ guard raw,
        l.handler = .provided (r.context e) guard raw := by
  rcases hCustody with ⟨alive, hAccounts⟩
  simp only [owns, ← meant_eq_bindings hDistinct,
    List.any_eq_true, beq_iff_eq]
  constructor
  · rintro ⟨b, hThere, hId⟩
    rcases mem_meant_iff.mp hThere with
      ⟨e', hOther, hMeant, hBinding⟩
    have hName : e.shortName = e'.shortName := by
      simpa [Entry.isMeant] using hMeant
    have hSame : e' = e :=
      List.inj_on_of_nodup_map hDistinct hOther hEntry
        hName.symm
    have hOwn :=
      hAccounts.apart l hMember (r.context e, b)
        (mem_recorded_iff.mpr
          ⟨e, hEntry, rfl, hSame ▸ hBinding⟩) hId.symm
    cases hHandler : l.handler with
    | recorder label => simp [Listener.own?, hHandler] at hOwn
    | provided cx guard raw =>
        have hContext := Listener.context_of_own? hOwn hHandler
        exact ⟨guard, raw, by rw [← hContext]⟩
  · rintro ⟨guard, raw, hHandler⟩
    have hOwn :
        l.own? r.number =
          some
            (r.context e,
              ⟨l.node, l.event, l.source?, l.id⟩) := by
      simp [Listener.own?, hHandler, context]
    have hDue := List.mem_filterMap.mpr ⟨l, hMember, hOwn⟩
    rw [hAccounts.own.mem_iff] at hDue
    rcases mem_recorded_iff.mp (List.mem_of_mem_filter hDue)
      with ⟨e', hOther, hContext, hBinding⟩
    have hName : e.shortName = e'.shortName :=
      congrArg Context.shortName hContext
    refine
      ⟨_, mem_meant_iff.mpr ⟨e', hOther, ?_, hBinding⟩, rfl⟩
    simp [Entry.isMeant, hName]

/- Taking a name's listeners away takes away what it owns. -/
theorem Custody.without_meant
    (hCustody : r.Custody page)
    (hDistinct : r.names.Nodup)
    (name : String) :
    page.without (r.meant (some name)) =
      page.restricted fun l => !r.owns name l := by
  rcases hCustody with ⟨alive, hAccounts⟩
  unfold Document.without Document.restricted
  congr 1
  apply List.filter_congr
  intro l hMember
  congr 1
  rw [Bool.eq_iff_iff,
    hAccounts.names_iff
      (Accounts.meant_recorded r (some name)) hMember]
  simp only [owns, ← meant_eq_bindings hDistinct,
    List.any_eq_true, beq_iff_eq]
  constructor
  · rintro ⟨x, hOwn, hThere⟩
    exact ⟨x.2, hThere, (Listener.names_of_own? hOwn).2.2⟩
  · rintro ⟨b, hThere, hId⟩
    rcases Accounts.meant_recorded r (some name) b hThere with
      ⟨cx, hRecord⟩
    exact
      ⟨(cx, b),
        hAccounts.apart l hMember _ hRecord hId.symm, hThere⟩

end Registry

------------------------------------------------------------
-- Sessions with fewer listeners
------------------------------------------------------------

/- Each of several calls comes to an end if all of them do. -/
theorem Trace.gives_of_forM
    {α : Type}
    {calls : List α}
    {run : α → Trace Unit}
    (hRun : (calls.forM run).Gives ()) :
    ∀ c ∈ calls, (run c).Gives () := by
  induction calls with
  | nil => simp
  | cons c rest ih =>
      rw [List.forM_eq_forM, List.forM_cons,
        Trace.gives_bind_iff] at hRun
      rcases hRun with ⟨_, hFirst, hRest⟩
      intro x hMember
      rcases List.mem_cons.mp hMember with rfl | hLater
      · exact hFirst
      · exact ih hRest x hLater

namespace Session

/-
  A session that has lost some listeners, and whose registry
  has other entries.
-/
def lessened
    (s : Session)
    (keep : Listener Handler → Bool)
    (entries : List Entry) : Session :=
  { s with
    page := s.page.restricted keep
    registry := { s.registry with entries } }

variable (s : Session)
variable (keep : Listener Handler → Bool)
variable (entries : List Entry)

/- What reaches transports does not depend on listeners. -/
theorem sent_lessened
    {α : Type}
    (x : Trace α) :
    (s.lessened keep entries).sent x = s.sent x := by
  cases x <;> rfl

/- If an event comes to an end each of its calls does. -/
theorem gives_of_step_dispatch
    {s : Session}
    {target : NodeId}
    {event : String}
    {calls : List (Call Handler)}
    {result : Session × Answer × List Report}
    (hCalls : s.page.calls target event = .ok calls)
    (hStep :
      s.step (.page (.dispatch target event)) = .ok result) :
    ∀ c ∈ calls, (s.called target event c).Gives () := by
  rcases result with ⟨s', answer, reports⟩
  rcases step_cases hStep with ⟨s₁, effects, hPerform, _, _⟩
  rw [perform_dispatch hCalls] at hPerform
  have hGives : Trace.Gives _ (s₁, answer) :=
    ⟨effects, hPerform⟩
  rw [Trace.gives_note_bind_iff] at hGives
  rcases Trace.gives_bind_iff.mp hGives with ⟨_, hRun, _⟩
  exact Trace.gives_of_forM hRun

/- The answer of an event is the number of its calls. -/
theorem answer_of_step_dispatch
    {s s' : Session}
    {target : NodeId}
    {event : String}
    {calls : List (Call Handler)}
    {answer : Answer}
    {reports : List Report}
    (hCalls : s.page.calls target event = .ok calls)
    (hStep :
      s.step (.page (.dispatch target event)) =
        .ok (s', answer, reports)) :
    answer = .count calls.length := by
  rcases exists_step_dispatch hCalls
      (gives_of_step_dispatch hCalls hStep) with
    ⟨s₁, reports₁, hSame⟩
  rw [hStep] at hSame
  cases hSame
  rfl

/-
  What an event does before and after listeners were taken
  away: the calls of those that are left, each of which does
  the same, and sends the same.  If the event came to an end
  before, it does so after.
-/
structure Lessens
    (s s' : Session)
    (keep : Listener Handler → Bool)
    (target : NodeId)
    (event : String)
    (calls : List (Call Handler)) : Prop where
  before : s.page.calls target event = .ok calls
  after :
    s'.page.calls target event =
      .ok (calls.filter fun c => keep c.listener)
  same :
    ∀ c, s'.called target event c = s.called target event c
  ends :
    ∀ result,
      s.step (.page (.dispatch target event)) = .ok result →
        ∃ result',
          s'.step (.page (.dispatch target event)) =
            .ok result'
  sentBefore :
    ∀ s₁ answer reports,
      s.step (.page (.dispatch target event)) =
          .ok (s₁, answer, reports) →
        answer = .count calls.length ∧
          reports.filterMap Report.payload? =
            calls.flatMap fun c =>
              s.sent (s.called target event c)
  sentAfter :
    ∀ s₁ answer reports,
      s'.step (.page (.dispatch target event)) =
          .ok (s₁, answer, reports) →
        answer =
            .count
              (calls.filter fun c => keep c.listener).length ∧
          reports.filterMap Report.payload? =
            (calls.filter fun c =>
              keep c.listener).flatMap fun c =>
                s.sent (s.called target event c)

theorem lessens
    {s : Session}
    {target : NodeId}
    {event : String}
    {calls : List (Call Handler)}
    (hCalls : s.page.calls target event = .ok calls)
    (keep : Listener Handler → Bool)
    (entries : List Entry) :
    Lessens s (s.lessened keep entries) keep target event
      calls := by
  have hAfter :
      (s.lessened keep entries).page.calls target event =
        .ok (calls.filter fun c => keep c.listener) :=
    Document.calls_restricted hCalls keep
  constructor
  · exact hCalls
  · exact hAfter
  · exact fun c => rfl
  · intro result hStep
    have hEach := gives_of_step_dispatch hCalls hStep
    rcases exists_step_dispatch hAfter (fun c hMember =>
        hEach c (List.mem_of_mem_filter hMember)) with
      ⟨s₁, reports, hRun⟩
    exact ⟨_, hRun⟩
  · intro s₁ answer reports hStep
    exact
      ⟨answer_of_step_dispatch hCalls hStep,
        payloads_dispatch hCalls hStep⟩
  · intro s₁ answer reports hStep
    refine ⟨answer_of_step_dispatch hAfter hStep, ?_⟩
    rw [payloads_dispatch hAfter hStep]
    apply List.flatMap_congr
    intro c _
    exact s.sent_lessened keep entries _

------------------------------------------------------------
-- Taking a provider out
------------------------------------------------------------

/-
  A session is as another one was, but for the listeners of
  one provider.  They are those whose handlers act for the
  provider, and they are missing at every node and in what
  every event does.
-/
structure Unnoticed
    (s s' : Session)
    (e : Entry) : Prop where
  tree : s'.page.tree = s.page.tree
  owned :
    ∀ l ∈ s.page.listeners,
      s.registry.owns e.shortName l = true ↔
        ∃ guard raw,
          l.handler =
            .provided (s.registry.context e) guard raw
  listeners :
    ∀ node,
      s'.page.listenersOf node =
        (s.page.listenersOf node).filter fun l =>
          !s.registry.owns e.shortName l
  events :
    ∀ target event, ∃ calls,
      Lessens s s' (fun l => !s.registry.owns e.shortName l)
        target event calls

theorem unnoticed_lessened
    {s : Session}
    {earlier : List Session}
    (hHistory : History Permits (s :: earlier))
    {e : Entry}
    (hEntry : e ∈ s.registry.entries)
    (entries : List Entry) :
    Unnoticed s
      (s.lessened
        (fun l => !s.registry.owns e.shortName l) entries)
      e := by
  have hDistinct := hHistory.roster.distinct
  rw [← Registry.names_eq_members] at hDistinct
  constructor
  · rfl
  · intro l hMember
    exact
      (hHistory.custody s (by simp)).owns_iff hDistinct hEntry
        hMember
  · exact s.page.listenersOf_restricted _
  · intro target event
    rcases dispatches_of_history hHistory target event with
      ⟨_, calls, hDispatches⟩
    exact ⟨calls, lessens hDispatches.found _ entries⟩

/- Taking bindings away comes to an end. -/
theorem step_unbind
    (s : Session)
    (only : Option String) :
    s.step (.registry (.unbind only)) =
      .ok
        (s.withPage (s.registry.unbind s.page only).1
            (s.registry.unbind s.page only).2,
          .nothing, []) :=
  rfl

/-
  A provider in use is taken out, or is left without bindings.
  Either way its own entry is all that changes in the
  registry, and no one else notices.
-/
theorem unnoticed_of_history
    {s : Session}
    {earlier : List Session}
    (hHistory : History Permits (s :: earlier))
    {e : Entry}
    (hEntry : e ∈ s.registry.entries) :
    (∃ s' reports,
      s.step (.registry (.removeProvider e.shortName)) =
          .ok (s', .truth true, reports) ∧
        s'.registry =
          { s.registry with
            entries :=
              s.registry.entries.filter
                (·.shortName != e.shortName) } ∧
        s.Unnoticed s' e) ∧
      ∃ s' reports,
        s.step (.registry (.unbind (some e.shortName))) =
            .ok (s', .nothing, reports) ∧
          s'.registry =
            { s.registry with
              entries :=
                s.registry.entries.map fun e' =>
                  if e'.shortName = e.shortName then
                    { e' with bindings := [] }
                  else e' } ∧
          s.Unnoticed s' e := by
  have hDistinct := hHistory.roster.distinct
  rw [← Registry.names_eq_members] at hDistinct
  have hWithout :=
    (hHistory.custody s (by simp)).without_meant hDistinct
      e.shortName
  constructor
  · have hThere : s.registry.contains e.shortName = true := by
      simp only [Registry.contains, Registry.entry?,
        List.find?_isSome, beq_iff_eq]
      exact ⟨e, hEntry, rfl⟩
    rcases s.step_removeProvider e.shortName with
      ⟨reports, hStep⟩
    rw [hThere] at hStep
    refine ⟨_, reports, hStep, rfl, ?_⟩
    simp only [Registry.evicted, hWithout]
    exact unnoticed_lessened hHistory hEntry _
  · refine ⟨_, _, step_unbind s _, ?_, ?_⟩
    · have hMeant :
          ∀ e' : Entry,
            e'.isMeant (some e.shortName) = true ↔
              e'.shortName = e.shortName := by
        intro e'
        simpa [Entry.isMeant] using eq_comm
      simp only [withPage, Registry.unbind, hMeant,
        Entry.released]
    · simp only [Registry.unbind_eq, hWithout]
      exact unnoticed_lessened hHistory hEntry _

/-
  An element is bound for one provider, by the page, and for
  another provider.  Without the first provider the other two
  listeners are left, and an event sends what the other
  provider sends.
-/
theorem unnoticed_between_others :
    ∃ s earlier e s' reports,
      History Permits (s :: earlier) ∧
        e ∈ s.registry.entries ∧
        s.step (.registry (.removeProvider e.shortName)) =
          .ok (s', .truth true, reports) ∧
        s.Unnoticed s' e ∧
        (s.page.listenersOf 1).map (·.id) = [0, 1, 2] ∧
        (s'.page.listenersOf 1).map (·.id) = [1, 2] ∧
        ∃ calls,
          s'.page.calls 1 "e" = .ok calls ∧
            (calls.flatMap fun c =>
              s.sent (s.called 1 "e" c)) =
                [.list [.text "test", .text "Q"]] := by
  let attrs : List (String × String) :=
    [("data-metric-event", "e"), ("data-P-method", "test"),
      ("data-Q-method", "test")]
  let root (children : List NodeId) : Option Node :=
    some { id := 0, children, data := .document }
  let box (parent : Option NodeId) : Option Node :=
    some
      { id := 1, parent
        data :=
          .element
            ⟨.html "i", attrs.map fun a => .plain a.1 a.2⟩ }
  let linked : Tree := ⟨#[root [1], box (some 0)], []⟩
  let own (id number : Nat) (name : String) :
      Listener Handler :=
    ⟨id, 1, "e", none,
      .provided ⟨0, number, name⟩ .always
        (Provider.countingHandler ⟨0, number, name⟩)⟩
  let other : Listener Handler :=
    ⟨1, 1, "e", none, .recorder "other"⟩
  let entry (number id : Nat) (name : String) : Entry :=
    { provider := .counting name, number
      bindings := [⟨1, "e", none, id⟩] }
  let bare (nodes : List (Option Node)) : Session :=
    start (Document.ofTree ⟨nodes.toArray, []⟩) {}
  let state (nextListener : Nat)
      (listeners : List (Listener Handler))
      (entries : List Entry) : Session :=
    { page := { tree := linked, listeners, nextListener }
      registry := { number := 0, config := {}, entries }
      initial := {}
      providers := entries.map fun _ => ⟨true, 0⟩ }
  have h₀ : History Permits [bare [root []]] := .start {}
  have h₁ :=
    h₀.step (.operation (.page (.createElement "i" attrs)))
      (bare [root [], box none]) trivial rfl
  have h₂ :=
    h₁.step (.build (.append 0 (.node 1)))
      (bare [root [1], box (some 0)])
      (permits_build h₁.linked_last (by decide)) rfl
  have h₃ :=
    h₂.step
      (.operation
        (.registry (.addProvider (.counting "P") true)))
      (state 1 [own 0 0 "P"] [entry 0 0 "P"]) trivial (by cbv)
  have h₄ :=
    h₃.step (.operation (.page (.bind 1 "e" "other")))
      (state 2 [own 0 0 "P", other] [entry 0 0 "P"]) trivial
      rfl
  have h₅ :=
    h₄.step
      (.operation
        (.registry (.addProvider (.counting "Q") true)))
      (state 3 [own 0 0 "P", other, own 2 1 "Q"]
        [entry 0 0 "P", entry 1 2 "Q"]) trivial (by cbv)
  have hEntry :
      entry 0 0 "P" ∈
        (state 3 [own 0 0 "P", other, own 2 1 "Q"]
          [entry 0 0 "P", entry 1 2 "Q"]).registry.entries :=
    List.mem_cons_self
  rcases (unnoticed_of_history h₅ hEntry).1 with
    ⟨s', reports, hStep, _, hUnnoticed⟩
  rcases hUnnoticed.events 1 "e" with ⟨calls, hEvent⟩
  have hCalls :
      (state 3 [own 0 0 "P", other, own 2 1 "Q"]
        [entry 0 0 "P", entry 1 2 "Q"]).page.calls 1 "e" =
          .ok
            [⟨own 0 0 "P", 1⟩, ⟨other, 1⟩,
              ⟨own 2 1 "Q", 1⟩] := by
    cbv
  rw [hEvent.before] at hCalls
  cases hCalls
  refine
    ⟨_, _, _, s', reports, h₅, hEntry, hStep, hUnnoticed, rfl,
      ?_, _, hEvent.after, ?_⟩
  · rw [hUnnoticed.listeners 1]
    rfl
  · cbv

end Session

end MarkupMetrics
