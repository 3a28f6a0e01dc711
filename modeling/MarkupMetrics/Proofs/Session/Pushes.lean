import MarkupMetrics.Proofs.Document.Dispatch
import MarkupMetrics.Proofs.Provider.Running
import MarkupMetrics.Proofs.Session.Arrivals
import MarkupMetrics.Proofs.Session.Provenance
import MarkupMetrics.Provider.Samples
import Mathlib

/-
  This file proves what an event pushes: for each of its calls
  in order, what the raw handler sends that was built when the
  listener was attached, if the condition that the element had
  then holds on the page as it is now.

  Key definitions include:
    * `Session.conditionOf`
    * `Session.Fires`
    * `Session.Pushes`

  Key theorems include:
    * `Session.fires_of_bound`
    * `Session.pushes_of_history`
-/

namespace MarkupMetrics

open Dom

/- The event as a call sees it. -/
def Call.event
    (c : Call Handler)
    (target : NodeId)
    (name : String) : PageEvent :=
  ⟨name, target, c.current⟩

namespace Session

------------------------------------------------------------
-- One call
------------------------------------------------------------

/- The condition of the element of a listener. -/
def conditionOf
    (s : Session)
    (l : Listener Handler) : Option String :=
  s.page.tree.attr? l.node s.registry.config.conditionAttribute

/-
  What the listener of a provider does for an event.  It was
  attached between two sessions in a row of the run.  If the
  condition that its element had then admits the node that it
  runs for now, its raw handler runs after some notes, and
  otherwise notes are all that is written.  A raw handler that
  pushes sends its payload once, as it is found now, if what
  is pushed on behalf of the provider reaches a transport now.
-/
structure Fires
    (states : List Session)
    (s : Session)
    (l : Listener Handler)
    (event : PageEvent)
    (cx : Context)
    (guard : Guard)
    (raw : RawHandler)
    (before after : Session) : Prop where
  recent : ∃ older, (after :: before :: older) <:+ states
  bound : Bound before after l cx guard raw
  decided :
    ∀ c : Condition, ∃ holds,
      (c.evaluate cx.origin s.page.tree event.current).Tells
        holds
  admitted :
    Condition.Admits (after.conditionOf l) cx.origin
        s.page.tree event.current →
      ∃ notes,
        (∀ e ∈ notes, e.isNote = true) ∧
          l.handler.run s.diagnoses s.page.tree event =
            Trace.after notes
              (raw (s.diagnoses cx.registry) s.page.tree event)
  denied :
    ¬ Condition.Admits (after.conditionOf l) cx.origin
        s.page.tree event.current →
      (l.handler.run s.diagnoses s.page.tree event).Tells ()
  sends :
    Condition.Admits (after.conditionOf l) cx.origin
        s.page.tree event.current →
      s.sent (l.handler.run s.diagnoses s.page.tree event) =
        s.sent
          (raw (s.diagnoses cx.registry) s.page.tree event)
  pushes :
    ∀ (pusher : Context) (data : PushData),
      raw = pushHandler pusher data →
        ∀ payload found,
          data.resolve (s.diagnoses cx.registry) s.page.tree
                event =
              .done payload found →
            s.sent
                (raw (s.diagnoses cx.registry) s.page.tree
                  event) =
              found.filterMap s.arrival? ++
                if s.reaches pusher then [payload] else []
  silent :
    ¬ Condition.Admits (after.conditionOf l) cx.origin
        s.page.tree event.current →
      s.sent (l.handler.run s.diagnoses s.page.tree event) = []

theorem fires_of_bound
    {states older : List Session}
    {s before after : Session}
    {l : Listener Handler}
    {cx : Context}
    {guard : Guard}
    {raw : RawHandler}
    (hLinked : s.page.tree.Linked)
    (hRecent : (after :: before :: older) <:+ states)
    (hBound : Bound before after l cx guard raw)
    (event : PageEvent) :
    s.Fires states l event cx guard raw before after := by
  have hHandler := hBound.attached.handler
  rcases Guard.passes_iff_admits hLinked
      hBound.attached.guarded event.current with
    ⟨pass, hPass, hAdmits⟩
  have hRun :
      Condition.Admits (after.conditionOf l) cx.origin
          s.page.tree event.current →
        ∃ notes,
          (∀ e ∈ notes, e.isNote = true) ∧
            l.handler.run s.diagnoses s.page.tree event =
              Trace.after notes
                (raw (s.diagnoses cx.registry) s.page.tree
                  event) := by
    intro hNow
    rw [hHandler]
    exact
      Handler.run_admitted s.diagnoses
        (hAdmits.mpr hNow ▸ hPass)
  have hNotes :
      ¬ Condition.Admits (after.conditionOf l) cx.origin
          s.page.tree event.current →
        (l.handler.run s.diagnoses s.page.tree
          event).Tells () := by
    intro hNow
    have hFalse : pass = false := by
      rw [← Bool.not_eq_true]
      exact fun hTrue => hNow (hAdmits.mp hTrue)
    rw [hHandler]
    exact Handler.run_denied s.diagnoses (hFalse ▸ hPass)
  constructor
  · exact ⟨older, hRecent⟩
  · exact hBound
  · intro c
    exact c.exists_evaluate hLinked cx.origin event.current
  · exact hRun
  · exact hNotes
  · intro hNow
    rcases hRun hNow with ⟨notes, hOnly, hAfter⟩
    rw [hAfter, s.sent_after hOnly]
  · rintro pusher data rfl payload found hFound
    exact s.sent_pushHandler pusher hFound
  · intro hNow
    exact s.sent_of_tells (hNotes hNow)

/- A call comes to an end if its raw handler does. -/
theorem Fires.gives
    {states : List Session}
    {s before after : Session}
    {l : Listener Handler}
    {event : PageEvent}
    {cx : Context}
    {guard : Guard}
    {raw : RawHandler}
    (hFires : s.Fires states l event cx guard raw before after)
    (hRaw :
      (raw (s.diagnoses cx.registry) s.page.tree
        event).Gives ()) :
    (l.handler.run s.diagnoses s.page.tree event).Gives () := by
  by_cases hNow :
      Condition.Admits (after.conditionOf l) cx.origin
        s.page.tree event.current
  · rcases hFires.admitted hNow with ⟨notes, _, hRun⟩
    rcases hRaw with ⟨effects, hDone⟩
    rw [hRun, hDone]
    exact ⟨_, rfl⟩
  · exact (hFires.denied hNow).gives

/- A recorder comes to an end, and sends nothing. -/
theorem run_recorder
    {s : Session}
    (hLinked : s.page.tree.Linked)
    (label : String)
    (event : PageEvent) :
    ((Handler.recorder label).run s.diagnoses s.page.tree
        event).Gives () ∧
      s.sent
          ((Handler.recorder label).run s.diagnoses s.page.tree
            event) =
        [] := by
  rcases Tree.exists_textContent hLinked event.current with
    ⟨text, hText⟩
  have hRun :
      (Handler.recorder label).run s.diagnoses s.page.tree
          event =
        .done () [.heard ⟨label, event, text⟩] := by
    rw [Handler.run, hText]
    rfl
  rw [hRun]
  exact ⟨⟨_, rfl⟩, rfl⟩

------------------------------------------------------------
-- The whole event
------------------------------------------------------------

/- What a call does in a session. -/
def called
    (s : Session)
    (target : NodeId)
    (event : String)
    (c : Call Handler) : Trace Unit :=
  c.listener.handler.run s.diagnoses s.page.tree
    (c.event target event)

/-
  What an event pushes in a session after some earlier ones.
  Its calls run one after another in order, those of providers
  as told above, and those of recorders send nothing.  If the
  raw handlers come to an end, so does the event.  What it
  brings to transports is what each call sends, in order.
-/
structure Pushes
    (s : Session)
    (earlier : List Session)
    (target : NodeId)
    (event : String)
    (calls : List (Call Handler)) : Prop where
  found : s.page.calls target event = .ok calls
  inOrder :
    s.perform (.page (.dispatch target event)) =
      (do
        Trace.note .page .trace
          ("Dispatching " ++ event ++ " at node " ++
            Text.decimalText target ++ " to " ++
            Text.decimalText calls.length ++ " listeners")
        calls.forM (s.called target event)
        return (s, .count calls.length))
  fires :
    ∀ c ∈ calls, ∀ cx guard raw,
      c.listener.handler = .provided cx guard raw →
        ∃ before after,
          s.Fires (s :: earlier) c.listener
            (c.event target event) cx guard raw before after
  recorders :
    ∀ c ∈ calls, ∀ label,
      c.listener.handler = .recorder label →
        s.sent (s.called target event c) = []
  ends :
    (∀ c ∈ calls, ∀ cx guard raw,
      c.listener.handler = .provided cx guard raw →
        (raw (s.diagnoses cx.registry) s.page.tree
          (c.event target event)).Gives ()) →
      ∃ s' reports,
        s.step (.page (.dispatch target event)) =
          .ok (s', .count calls.length, reports)
  arrive :
    ∀ s' answer reports,
      s.step (.page (.dispatch target event)) =
          .ok (s', answer, reports) →
        reports.filterMap Report.payload? =
          calls.flatMap fun c =>
            s.sent (s.called target event c)

/- An event makes its calls, and changes no session. -/
theorem perform_dispatch
    {s : Session}
    {target : NodeId}
    {event : String}
    {calls : List (Call Handler)}
    (hCalls : s.page.calls target event = .ok calls) :
    s.perform (.page (.dispatch target event)) =
      (do
        Trace.note .page .trace
          ("Dispatching " ++ event ++ " at node " ++
            Text.decimalText target ++ " to " ++
            Text.decimalText calls.length ++ " listeners")
        calls.forM (s.called target event)
        return (s, .count calls.length)) := by
  rw [perform, PageOperation.perform,
    Document.dispatch_eq hCalls]
  simp only [bind_assoc, pure_bind]
  rfl

/- If all of its calls come to an end, so does an event. -/
theorem exists_step_dispatch
    {s : Session}
    {target : NodeId}
    {event : String}
    {calls : List (Call Handler)}
    (hCalls : s.page.calls target event = .ok calls)
    (hEach : ∀ c ∈ calls, (s.called target event c).Gives ()) :
    ∃ s' reports,
      s.step (.page (.dispatch target event)) =
        .ok (s', .count calls.length, reports) := by
  rcases Trace.gives_forM hEach with ⟨effects, hRun⟩
  unfold step
  rw [perform_dispatch hCalls, hRun]
  exact ⟨_, _, rfl⟩

/- What an event brings to transports its calls have sent. -/
theorem payloads_dispatch
    {s s' : Session}
    {target : NodeId}
    {event : String}
    {calls : List (Call Handler)}
    {answer : Answer}
    {reports : List Report}
    (hCalls : s.page.calls target event = .ok calls)
    (hStep :
      s.step (.page (.dispatch target event)) =
        .ok (s', answer, reports)) :
    reports.filterMap Report.payload? =
      calls.flatMap fun c =>
        s.sent (s.called target event c) := by
  rcases step_cases hStep with
    ⟨s₁, effects, hPerform, _, rfl⟩
  rw [perform_dispatch hCalls] at hPerform
  rcases Trace.bind_eq_done_iff.mp hPerform with
    ⟨_, noted, others, hNote, hOthers, rfl⟩
  rcases Trace.bind_eq_done_iff.mp hOthers with
    ⟨_, made, last, hMade, hLast, rfl⟩
  rw [Trace.pure_eq_done_iff, Prod.mk.injEq] at hLast
  rcases hLast with ⟨⟨rfl, _⟩, rfl⟩
  cases hNote
  rw [payloads_reports, List.append_nil,
    List.filterMap_append, sent_forM s hMade]
  rfl

/-
  In every session of a run whose actions are permitted, every
  event at every target pushes what its calls send.
-/
theorem pushes_of_history
    {s : Session}
    {earlier : List Session}
    (hHistory : History Permits (s :: earlier))
    (target : NodeId)
    (event : String) :
    ∃ calls, s.Pushes earlier target event calls := by
  have hLinked := hHistory.linked_last
  have hNumbered := hHistory.numbered s (by simp)
  rcases Tree.exists_chain hLinked target with
    ⟨chain, hChain, hNodup⟩
  have hCalls := Document.calls_of_chain hChain event
  have hAttached :
      ∀ c ∈ s.page.callsAlong event [] chain,
        c.listener ∈ s.page.listeners := by
    intro c hMember
    exact
      ((Document.mem_callsAlong_iff_due hNumbered hNodup).mp
        hMember).attached
  have hFires :
      ∀ c ∈ s.page.callsAlong event [] chain, ∀ cx guard raw,
        c.listener.handler = .provided cx guard raw →
          ∃ before after,
            s.Fires (s :: earlier) c.listener
              (c.event target event) cx guard raw before
                after := by
    intro c hMember cx guard raw hHandler
    rcases hHistory.bound (hAttached c hMember) hHandler with
      ⟨before, after, older, hRecent, hBound⟩
    exact
      ⟨before, after, fires_of_bound hLinked hRecent hBound _⟩
  refine ⟨s.page.callsAlong event [] chain, ?_⟩
  constructor
  · exact hCalls
  · exact perform_dispatch hCalls
  · exact hFires
  · intro c _ label hHandler
    rw [called, hHandler]
    exact (run_recorder hLinked label _).2
  · intro hEnds
    apply exists_step_dispatch hCalls
    intro c hMember
    cases hHandler : c.listener.handler with
    | recorder label =>
        rw [called, hHandler]
        exact (run_recorder hLinked label _).1
    | provided cx guard raw =>
        rcases hFires c hMember cx guard raw hHandler with
          ⟨before, after, hCall⟩
        exact hCall.gives (hEnds c hMember cx guard raw hHandler)
  · intro s' answer reports hStep
    exact payloads_dispatch hCalls hStep

/- A provider that sends the same for each element. -/
private def plainSender : Provider :=
  .custom "Sender" "S" "m" [("send", .literal (.text "x"))]

/- The attributes of an element with a condition. -/
private def guardedAttrs
    (k condition : String) : List (String × String) :=
  [("data-metric-event", "e"), ("m", "send"), ("k", k),
    ("data-metric-condition", condition)]

/- Such an element below the document. -/
private def guardedNodes
    (k condition : String) : List (Option Node) :=
  [some { id := 0, children := [1], data := .document },
    some
      { id := 1, parent := some 0
        data :=
          .element
            ⟨.html "i",
              (guardedAttrs k condition).map fun a =>
                .plain a.1 a.2⟩ }]

/- The listener for the element, which asks for `k`. -/
private def guardedListener : Listener Handler :=
  ⟨0, 1, "e", none,
    .provided ⟨0, 0, "S"⟩
      (.when ⟨"attr", "k", "1", "equals", none, false⟩)
      (pushHandler ⟨0, 0, "S"⟩ (.literal (.text "x")))⟩

/- A session in which the provider is in use. -/
private def guardedSession
    (nodes : List (Option Node))
    (listeners : List (Listener Handler))
    (bindings : List Binding) : Session :=
  { page :=
      { tree := ⟨nodes.toArray, []⟩
        listeners
        nextListener := listeners.length }
    registry :=
      { number := 0, config := {}
        entries :=
          [{ provider := plainSender, number := 0
             bindings }] }
    initial := {}
    providers := [{ hasTransport := true }] }

/- The session before the element is bound. -/
private def unboundSession : Session :=
  guardedSession (guardedNodes "0" "attr(k equals 1)") [] []

/- The session after that. -/
private def boundSession
    (k condition : String) : Session :=
  guardedSession (guardedNodes k condition) [guardedListener]
    [⟨1, "e", none, 0⟩]

private theorem act_parse_unbound :
    unboundSession.act
        (.operation (.registry (.parse none))) =
      .ok (boundSession "0" "attr(k equals 1)") := by
  have hFind :
      unboundSession.page.tree.find
          ((none : Option NodeId).getD 0)
          unboundSession.registry.eventSelector =
        .done [1] [] := by
    cbv
  have hScan :
      unboundSession.registry.scan unboundSession.page none
          none =
        .done
          ((boundSession "0" "attr(k equals 1)").page,
            (boundSession "0" "attr(k equals 1)").registry, 1)
          [.note (.registry 0 "registry") .info
            "Binding analytics handlers for node 1 on e"] := by
    rw [Registry.scan, hFind]
    rfl
  simp only [act, step, perform, RegistryOperation.perform,
    hScan]
  rfl

/-
  An element is bound while its condition does not hold.  Then
  the text of the condition is spoilt, which makes no
  difference, and the attribute that it asked for is changed,
  which does.
-/
theorem pushes_of_changed_condition :
    ∃ s earlier calls,
      History Permits (s :: earlier) ∧
        s.Pushes earlier 1 "e" calls ∧
        (calls.flatMap fun c => s.sent (s.called 1 "e" c)) =
          [.text "x"] := by
  have h₀ : History Permits [start Document.empty {}] :=
    .start {}
  have h₁ :=
    h₀.step
      (.operation
        (.registry (.addProvider plainSender true)))
      (guardedSession
        [some { id := 0, data := .document }] [] [])
      trivial (by cbv)
  have h₂ :=
    h₁.step
      (.operation
        (.page
          (.createElement "i"
            (guardedAttrs "0" "attr(k equals 1)"))))
      (guardedSession
        [some { id := 0, data := .document },
          some
            { id := 1
              data :=
                .element
                  ⟨.html "i",
                    (guardedAttrs "0" "attr(k equals 1)").map
                      fun a => .plain a.1 a.2⟩ }] [] [])
      trivial rfl
  have h₃ :=
    h₂.step (.build (.append 0 (.node 1))) unboundSession
      (permits_build h₂.linked_last (by decide)) rfl
  have h₄ :=
    h₃.step (.operation (.registry (.parse none)))
      (boundSession "0" "attr(k equals 1)") trivial
      act_parse_unbound
  have h₅ :=
    h₄.step
      (.operation
        (.page
          (.setAttribute 1 "data-metric-condition" "?")))
      (boundSession "0" "?") trivial rfl
  have h₆ :=
    h₅.step (.operation (.page (.setAttribute 1 "k" "1")))
      (boundSession "1" "?") trivial rfl
  rcases pushes_of_history h₆ 1 "e" with ⟨calls, hPushes⟩
  have hFound := hPushes.found
  have hCalls :
      (boundSession "1" "?").page.calls 1 "e" =
        .ok [⟨guardedListener, 1⟩] := by
    cbv
  rw [hCalls] at hFound
  cases hFound
  exact ⟨_, _, _, h₆, hPushes, by cbv⟩

end Session

end MarkupMetrics
