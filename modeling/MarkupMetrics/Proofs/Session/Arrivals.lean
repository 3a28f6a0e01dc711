import MarkupMetrics.Proofs.Outcome
import MarkupMetrics.Session.Basic

/-
  This file proves which payloads of what is done reach
  transports, and in which order.

  Whether one does depends on the session at the moment only,
  and on nothing that is done.

  Key definitions include:
    * `Session.reaches`
    * `Session.sent`

  Key theorems include:
    * `Session.payloads_reports`
    * `Session.sent_pushHandler`
    * `Session.sent_forM`
-/

namespace MarkupMetrics

open Dom

------------------------------------------------------------
-- Arrivals
------------------------------------------------------------

/- The payload that a report brings to a transport. -/
def Report.payload? : Report → Option Payload
  | .pushed payload => some payload
  | _ => none

namespace Session

/-
  Whether what is pushed on behalf of a provider reaches a
  transport at present: pushing is enabled, and the provider
  has one.
-/
def reaches
    (s : Session)
    (cx : Context) : Bool :=
  (s.configOf cx.registry).enabled &&
    s.hasTransport cx.provider

/- The payload of an effect, if it reaches a transport. -/
def arrival?
    (s : Session) : Effect → Option Payload
  | .push cx payload =>
      if s.reaches cx then some payload else none
  | _ => none

/- The payloads that a trace brings to transports, in order. -/
def sent
    {α : Type}
    (s : Session) : Trace α → List Payload
  | .fault _ => []
  | .done _ effects => effects.filterMap s.arrival?

/- Notes bring nothing to transports, whether shown or not. -/
theorem payloads_noted
    (s : Session)
    (debug : Bool)
    (origin : Origin)
    (level : Level)
    (message : String) :
    (s.noted debug origin level message).filterMap
      Report.payload? = [] := by
  unfold noted
  cases s.shows debug origin with
  | true => rfl
  | false => rfl

/- What arrives of an effect is what its reports bring. -/
theorem payloads_report
    (s : Session)
    (debug : Bool)
    (e : Effect) :
    (s.report debug e).filterMap Report.payload? =
      (s.arrival? e).toList := by
  cases e with
  | note origin level message =>
      exact s.payloads_noted debug origin level message
  | heard hearing => rfl
  | ran provider => rfl
  | push cx payload =>
      rw [report, List.filterMap_append, payloads_noted,
        List.nil_append]
      cases hEnabled : (s.configOf cx.registry).enabled with
      | false =>
          simp [delivered, arrival?, reaches, hEnabled,
            payloads_noted]
      | true =>
          cases hTransport : s.hasTransport cx.provider with
          | false =>
              simp [delivered, arrival?, reaches, hEnabled,
                hTransport, payloads_noted]
          | true =>
              simp [delivered, arrival?, reaches, hEnabled,
                hTransport, Report.payload?]

theorem payloads_reports
    (s : Session)
    (debug : Bool)
    (effects : List Effect) :
    (effects.flatMap (s.report debug)).filterMap
        Report.payload? =
      effects.filterMap s.arrival? := by
  induction effects with
  | nil => rfl
  | cons e rest ih =>
      rw [List.flatMap_cons, List.filterMap_append, ih,
        payloads_report, List.filterMap_cons]
      cases s.arrival? e with
      | none => rfl
      | some payload => rfl

/- Notes are not sent. -/
theorem filterMap_arrival_of_notes
    (s : Session)
    {notes : List Effect}
    (hNotes : ∀ e ∈ notes, e.isNote = true) :
    notes.filterMap s.arrival? = [] := by
  apply List.filterMap_eq_nil_iff.mpr
  intro e hMember
  have hNote := hNotes e hMember
  cases e with
  | note origin level message => rfl
  | heard hearing => cases hNote
  | ran provider => cases hNote
  | push cx payload => cases hNote

theorem sent_of_tells
    {α : Type}
    (s : Session)
    {x : Trace α}
    {a : α}
    (hTells : x.Tells a) :
    s.sent x = [] := by
  rcases hTells with ⟨notes, rfl, hNotes⟩
  exact s.filterMap_arrival_of_notes hNotes

theorem sent_after
    {α : Type}
    (s : Session)
    {notes : List Effect}
    (hNotes : ∀ e ∈ notes, e.isNote = true)
    (x : Trace α) :
    s.sent (Trace.after notes x) = s.sent x := by
  cases x with
  | fault why => rfl
  | done a effects =>
      simp only [Trace.after, sent, List.filterMap_append,
        s.filterMap_arrival_of_notes hNotes, List.nil_append]

/-
  A push handler sends its payload once after what finding the
  payload has sent, or it does not arrive.
-/
theorem sent_pushHandler
    (s : Session)
    (cx : Context)
    {data : PushData}
    {debug : Bool}
    {t : Tree}
    {event : PageEvent}
    {payload : Payload}
    {found : List Effect}
    (hFound :
      data.resolve debug t event = .done payload found) :
    s.sent (pushHandler cx data debug t event) =
      found.filterMap s.arrival? ++
        if s.reaches cx then [payload] else [] := by
  have hRun :
      pushHandler cx data debug t event =
        .done () (found ++ [.push cx payload]) := by
    unfold pushHandler
    rw [hFound]
    rfl
  rw [hRun, sent, List.filterMap_append]
  congr 1
  cases hReaches : s.reaches cx with
  | true => simp [arrival?, hReaches]
  | false => simp [arrival?, hReaches]

/- What calls send is what each of them sends, in order. -/
theorem sent_forM
    {α : Type}
    (s : Session)
    {calls : List α}
    {run : α → Trace Unit}
    {effects : List Effect}
    (hRun : calls.forM run = .done () effects) :
    effects.filterMap s.arrival? =
      calls.flatMap fun c => s.sent (run c) := by
  induction calls generalizing effects with
  | nil =>
      rw [List.forM_eq_forM, List.forM_nil,
        Trace.pure_eq_done_iff] at hRun
      rw [hRun.2]
      rfl
  | cons c rest ih =>
      rw [List.forM_eq_forM, List.forM_cons,
        Trace.bind_eq_done_iff] at hRun
      rcases hRun with
        ⟨_, first, second, hFirst, hRest, rfl⟩
      rw [List.filterMap_append, List.flatMap_cons, ih hRest,
        hFirst]
      rfl

end Session

/- Calls come to an end if each of them does. -/
theorem Trace.gives_forM
    {α : Type}
    {calls : List α}
    {run : α → Trace Unit}
    (hEach : ∀ c ∈ calls, (run c).Gives ()) :
    (calls.forM run).Gives () := by
  induction calls with
  | nil => exact Trace.gives_pure_iff.mpr rfl
  | cons c rest ih =>
      rw [List.forM_eq_forM, List.forM_cons,
        Trace.gives_bind_iff]
      exact
        ⟨(), hEach c (by simp),
          ih fun x hMember => hEach x (by simp [hMember])⟩

end MarkupMetrics
