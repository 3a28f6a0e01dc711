import MarkupMetrics.Proofs.Session.Moments
import Mathlib

/-
  This file proves that diagnostics do not influence what a
  session does, and are silent when they are off.

  A report with a scope is a diagnostic.  Runs that differ in
  the debug switch only come to the same but for diagnostics,
  and show of the diagnostics of a run with the switch on all
  along those for which it is on at the moment.

  What is foreign may ask whether diagnostics are on.  Runs
  in which it does not are meant, and a provider that does
  shows that they have to be.

  Key definitions include:
    * `Report.isDiagnostic`
    * `Moment.events`
    * `Moment.Indifferent`
    * `Moment.Restricted`

  Key theorems include:
    * `Session.told_on`
    * `Moment.indifferent_of_view`
    * `Moment.restricted_of_view`
    * `Session.indifferent_beside`
    * `Session.not_indifferent_of_watching`
-/

namespace MarkupMetrics

open Dom

------------------------------------------------------------
-- Reports and who is behind them
------------------------------------------------------------

/- Whether a report is a note with a scope. -/
def Report.isDiagnostic : Report → Bool
  | .log _ (some _) _ => true
  | _ => false

/- Who is behind an effect. -/
def Effect.origin : Effect → Origin
  | .note origin _ _ => origin
  | .push cx _ => cx.origin
  | _ => .page

namespace Session

/- What an effect comes to, with who is behind it. -/
def told
    (s : Session)
    (debug : Bool)
    (e : Effect) : List (Origin × Report) :=
  (s.report debug e).map fun r => (e.origin, r)

/- Whether a report may be told at present. -/
def tells
    (s : Session)
    (debug : Bool)
    (x : Origin × Report) : Bool :=
  !x.2.isDiagnostic || s.shows debug x.1

variable (s : Session)

/- A switch does not matter to whether pushing is enabled. -/
theorem enabled_on_debug
    (number : Nat) :
    ((s.on .debug).configOf number).enabled =
      (s.configOf number).enabled := by
  by_cases hNumber : number = s.registry.number
  · simp [configOf, on, Registry.on, Config.on, hNumber]
  · cases hRetired : s.retired[number]? with
    | none =>
        simp [configOf, on, Registry.on, hNumber, hRetired]
    | some config =>
        simp [configOf, on, Registry.on, Config.on, hNumber,
          hRetired]

/- What shows also shows with the switch on all along. -/
theorem shows_on
    {debug : Bool}
    {origin : Origin}
    (hShows : s.shows debug origin = true) :
    (s.on .debug).shows true origin = true := by
  cases origin with
  | page => rfl
  | caller scope => rfl
  | registry number scope =>
      by_cases hNumber : number = s.registry.number
      · simp [shows, diagnoses, configOf, on, Registry.on,
          Config.on, hNumber]
      · cases hRetired : s.retired[number]? with
        | none =>
            simp [shows, diagnoses, configOf, hNumber,
              hRetired] at hShows
        | some config =>
            simp [shows, diagnoses, configOf, on, Registry.on,
              Config.on, hNumber, hRetired]

/- Only what has a scope may be kept from showing. -/
theorem scoped_of_hidden
    {debug : Bool}
    {origin : Origin}
    (hHidden : s.shows debug origin = false) :
    ∃ scope, scope? origin = some scope := by
  cases origin with
  | page => cases hHidden
  | caller scope => exact ⟨scope, rfl⟩
  | registry number scope => exact ⟨scope, rfl⟩

/-
  A note shows if it does with the switch on all along, and
  may be told.
-/
theorem noted_on
    (debug : Bool)
    (origin : Origin)
    (level : Level)
    (message : String) :
    (s.noted debug origin level message).map
        (fun r => (origin, r)) =
      (((s.on .debug).noted true origin level message).map
        fun r => (origin, r)).filter (s.tells debug) := by
  cases hShows : s.shows debug origin with
  | true =>
      simp [noted, hShows, shows_on s hShows, tells]
  | false =>
      rcases scoped_of_hidden s hShows with ⟨scope, hScope⟩
      have hTells :
          s.tells debug
              (origin, .log level (some scope) message) =
            false := by
        simp [tells, Report.isDiagnostic, hShows]
      cases hOther : (s.on .debug).shows true origin with
      | true => simp [noted, hShows, hOther, hScope, hTells]
      | false => simp [noted, hShows, hOther]

/- So does what sending a payload comes to. -/
theorem delivered_on
    (debug : Bool)
    (cx : Context)
    (payload : Payload) :
    (s.delivered debug cx payload).map
        (fun r => (cx.origin, r)) =
      (((s.on .debug).delivered true cx payload).map
        fun r => (cx.origin, r)).filter (s.tells debug) := by
  have hTransport :
      (s.on .debug).hasTransport cx.provider =
        s.hasTransport cx.provider :=
    rfl
  have hNoted := s.noted_on debug cx.origin
  unfold delivered
  rw [enabled_on_debug, hTransport]
  cases (s.configOf cx.registry).enabled with
  | false => exact hNoted _ _
  | true =>
      cases s.hasTransport cx.provider with
      | false => exact hNoted _ _
      | true => simp [tells, Report.isDiagnostic]

/- So does what any effect comes to. -/
theorem told_on
    (debug : Bool)
    (e : Effect) :
    s.told debug e =
      ((s.on .debug).told true e).filter (s.tells debug) := by
  cases e with
  | note origin level message =>
      exact s.noted_on debug origin level message
  | heard hearing => rfl
  | ran provider => rfl
  | push cx payload =>
      simp only [told, report, List.map_append,
        List.filter_append]
      exact
        congrArg₂ (· ++ ·)
          (s.noted_on debug cx.origin .info
            ("pushing -> " ++ payload.render))
          (s.delivered_on debug cx payload)

end Session

------------------------------------------------------------
-- Moments
------------------------------------------------------------

namespace Moment

/- Whether the notes of a caller show at a moment. -/
def debug
    (m : Moment) : Bool :=
  Session.callerDebug m.operation

/- The reports of a moment, with who is behind each. -/
def events
    (m : Moment) : List (Origin × Report) :=
  m.effects.flatMap (m.after.told m.debug)

/- The reports are the events, whoever is behind them. -/
theorem map_events
    (m : Moment) :
    m.events.map (·.2) = m.reports := by
  rw [m.reports_eq, events, List.map_flatMap]
  congr 1
  funext e
  simp [Session.told, Moment.debug]

/- What comes to a diagnostic is not from the page itself. -/
theorem origin_of_diagnostic
    {m : Moment}
    {x : Origin × Report}
    (hEvent : x ∈ m.events)
    (hDiagnostic : x.2.isDiagnostic = true) :
    x.1 ≠ .page := by
  rcases List.mem_flatMap.mp hEvent with ⟨e, _, hTold⟩
  rcases List.mem_map.mp hTold with ⟨r, hReport, rfl⟩
  cases e with
  | note origin level message =>
      rintro rfl
      rw [List.mem_singleton.mp hReport] at hDiagnostic
      cases hDiagnostic
  | heard hearing =>
      rw [List.mem_singleton.mp hReport] at hDiagnostic
      cases hDiagnostic
  | ran provider => cases hReport
  | push cx payload =>
      intro hPage
      cases hPage

/-
  A moment agrees with one of a run that differs in the debug
  switch only.  The same payloads arrive, and all reports are
  the same but for diagnostics.
-/
structure Indifferent
    (m m' : Moment) : Prop
    extends View.Agrees m.view m'.view where
  payloads :
    m.reports.filterMap Report.payload? =
      m'.reports.filterMap Report.payload?
  plain :
    (m.reports.filter fun r => !r.isDiagnostic) =
      m'.reports.filter fun r => !r.isDiagnostic

/-
  A moment has the events of one with the switch on all along,
  but for diagnostics of someone for whom the switch is off at
  the moment.
-/
structure Restricted
    (m m' : Moment) : Prop where
  reports : m.events.map (·.2) = m.reports
  reports' : m'.events.map (·.2) = m'.reports
  throughout :
    m'.debug = true ∧ m'.after.registry.config.debug = true ∧
      ∀ config ∈ m'.after.retired, config.debug = true
  events :
    m.events =
      m'.events.filter fun x =>
        !x.2.isDiagnostic || m.after.shows m.debug x.1
  silent :
    ∀ x ∈ m.events,
      x.2.isDiagnostic = true →
        x.1 ≠ .page ∧ m.after.shows m.debug x.1 = true

/- The notes of a caller show with the switch on all along. -/
theorem callerDebug_on
    (operation : Operation) :
    Session.callerDebug (operation.on .debug) = true := by
  cases operation with
  | page operation => rfl
  | registry operation => cases operation <;> rfl
  | language caller question => rfl

/- A moment that looks as another with the switch on. -/
theorem restricted_of_view
    {m m' : Moment}
    (hView : m.view.on .debug = m'.view) :
    Restricted m m' := by
  have hAfter : m'.after = m.after.on .debug :=
    (congrArg View.after hView).symm
  have hEffects : m'.effects = m.effects :=
    (congrArg View.effects hView).symm
  have hDebug : m'.debug = true := by
    have hOperation : m'.operation = m.operation.on .debug :=
      (congrArg View.operation hView).symm
    rw [debug, hOperation]
    exact callerDebug_on m.operation
  have hEvents :
      m.events =
        m'.events.filter fun x =>
          !x.2.isDiagnostic || m.after.shows m.debug x.1 := by
    rw [events, events, hEffects, hAfter, hDebug,
      List.filter_flatMap]
    congr 1
    funext e
    exact m.after.told_on m.debug e
  constructor
  · exact m.map_events
  · exact m'.map_events
  · rw [hAfter]
    refine ⟨hDebug, rfl, ?_⟩
    intro config hConfig
    rcases List.mem_map.mp hConfig with ⟨former, _, rfl⟩
    rfl
  · exact hEvents
  · intro x hEvent hDiagnostic
    refine ⟨origin_of_diagnostic hEvent hDiagnostic, ?_⟩
    rw [hEvents, List.mem_filter] at hEvent
    simpa [hDiagnostic] using hEvent.2

/- What is no diagnostic does not depend on the switch. -/
theorem plain_on
    (s : Session)
    (debug : Bool)
    (e : Effect) :
    ((s.report debug e).filter fun r => !r.isDiagnostic) =
      ((s.on .debug).report true e).filter fun r =>
        !r.isDiagnostic := by
  have hPlain :
      ∀ (s : Session) debug,
        ((s.report debug e).filter fun r => !r.isDiagnostic) =
          ((s.told debug e).filter fun x =>
            !x.2.isDiagnostic).map (·.2) := by
    intro s debug
    rw [Session.told, List.filter_map, List.map_map]
    exact (List.map_id _).symm
  rw [hPlain, hPlain, s.told_on, List.filter_filter]
  congr 1
  apply List.filter_congr
  intro x _
  cases hDiagnostic : x.2.isDiagnostic with
  | true => rfl
  | false => simp [Session.tells, hDiagnostic]

/- Payloads do not come with diagnostics. -/
theorem payloads_plain
    (reports : List Report) :
    (reports.filter fun r => !r.isDiagnostic).filterMap
        Report.payload? =
      reports.filterMap Report.payload? := by
  rw [List.filterMap_filter]
  apply List.filterMap_congr
  intro r _
  cases r with
  | log level scope message => simp [Report.payload?]
  | heard hearing => rfl
  | pushed payload => rfl

/- Moments that look the same with the switch on. -/
theorem indifferent_of_view
    {m m' : Moment}
    (hView : m.view.on .debug = m'.view.on .debug) :
    Indifferent m m' := by
  have hAfter : m.after.on .debug = m'.after.on .debug :=
    congrArg View.after hView
  have hEffects : m.effects = m'.effects :=
    congrArg View.effects hView
  have hPlain :
      (m.reports.filter fun r => !r.isDiagnostic) =
        m'.reports.filter fun r => !r.isDiagnostic := by
    rw [m.reports_eq, m'.reports_eq, List.filter_flatMap,
      List.filter_flatMap, hEffects]
    congr 1
    funext e
    have hFirst := plain_on m.after m.debug e
    have hSecond := plain_on m'.after m'.debug e
    rw [hAfter] at hFirst
    exact hFirst.trans hSecond.symm
  constructor
  · exact
      (m.view.agrees_on .debug).trans
        (hView ▸ (m'.view.agrees_on .debug).symm)
  · rw [← payloads_plain m.reports, hPlain,
      payloads_plain m'.reports]
  · exact hPlain

end Moment

------------------------------------------------------------
-- Runs
------------------------------------------------------------

/- What differs in the switch only is as heedless. -/
theorem Session.Heedless.of_on
    {s s' : Session}
    (hHeedless : s.Heedless)
    (hSession : s.on .debug = s'.on .debug) :
    s'.Heedless := by
  have hEntries : s.registry.entries = s'.registry.entries :=
    congrArg (fun s => s.registry.entries) hSession
  have hPage : s.page = s'.page :=
    congrArg (fun s => s.page) hSession
  constructor
  · intro e hMember
    exact hHeedless.providers e (hEntries ▸ hMember)
  · exact hPage ▸ hHeedless.handlers

/- So is what brings in the same, with the switch on. -/
theorem Operation.heedless_on_iff
    (operation : Operation) :
    (operation.on .debug).Heedless ↔ operation.Heedless := by
  cases operation with
  | page operation => rfl
  | language caller question => rfl
  | registry operation => cases operation <;> rfl

theorem Operation.heedless_of_alwaysOn
    {operations operations' : List Operation}
    (hHeedless : ∀ o ∈ operations, o.Heedless)
    (hOperations :
      alwaysOn .debug operations =
        alwaysOn .debug operations') :
    ∀ o ∈ operations', o.Heedless := by
  intro o hMember
  cases hSets : o.sets .debug with
  | true =>
      cases o with
      | registry operation =>
          cases operation with
          | setDebug debug => trivial
          | _ => cases hSets
      | _ => cases hSets
  | false =>
      have hThere : o.on .debug ∈ alwaysOn .debug operations' :=
        List.mem_map_of_mem
          (List.mem_filter.mpr ⟨hMember, by simp [hSets]⟩)
      rw [← hOperations] at hThere
      rcases List.mem_map.mp hThere with ⟨o', hOld, hSame⟩
      rw [← heedless_on_iff, ← hSame, heedless_on_iff]
      exact hHeedless o' (List.mem_of_mem_filter hOld)

/-
  Two runs of the same operations that differ in the debug
  switch only come to the same, moment by moment, but for
  diagnostics.  Each of them shows those of the run with the
  switch on all along for which it is on at the moment.  When
  the switch is turned on or off, nothing else happens.

  This is so as long as the switch is not heeded by what is
  foreign: the builders of the providers that are in use or
  are brought in, and the raw handlers that they build.
-/
theorem Session.indifferent_beside
    {s s' : Session}
    (hHeedless : s.Heedless)
    (hSession : s.on .debug = s'.on .debug)
    {operations operations' : List Operation}
    (hAdded : ∀ o ∈ operations, o.Heedless)
    (hOperations :
      alwaysOn .debug operations = alwaysOn .debug operations') :
    List.Forall₂ (Both Moment.Indifferent)
        (s.leaving .debug operations)
        (s'.leaving .debug operations') ∧
      List.Forall₂ (Both Moment.Restricted)
        (s.leaving .debug operations)
        ((s.on .debug).moments (alwaysOn .debug operations)) ∧
      List.Forall₂ (Both Moment.Restricted)
        (s'.leaving .debug operations')
        ((s.on .debug).moments (alwaysOn .debug operations)) ∧
      ∀ m : Moment,
        m.operation.sets .debug = true →
          m.answer = .nothing ∧ m.reports = [] ∧
            m.after.on .debug = m.before.on .debug := by
  have hFirst :=
    views_on .debug s (fun _ => hHeedless) operations
      fun _ => hAdded
  have hSecond :=
    views_on .debug s' (fun _ => hHeedless.of_on hSession)
      operations' fun _ =>
        Operation.heedless_of_alwaysOn hAdded hOperations
  rw [← hSession, ← hOperations] at hSecond
  refine ⟨?_, ?_, ?_, ?_⟩
  · exact
      Both.all_of_map (fun m m' => Moment.indifferent_of_view)
        (hFirst.trans hSecond.symm)
  · exact
      Both.all_of_map (fun m m' => Moment.restricted_of_view)
        hFirst
  · exact
      Both.all_of_map (fun m m' => Moment.restricted_of_view)
        hSecond
  · intro m hSets
    exact idle_of_sets .debug hSets

namespace Session

/-
  The switch is turned on in one run, and off in another, after
  a handler was attached.  The handler pushes the same, but
  only the first run tells of it.
-/
theorem indifferent_beside_late_switch :
    List.Forall₂ (Both Moment.Indifferent)
        ((listening { debug := false }).leaving .debug
          [.registry (.setDebug true), eventAt (0, "e")])
        ((listening { debug := true }).leaving .debug
          [.registry (.setDebug false), eventAt (0, "e")]) ∧
      ((listening { debug := false }).leaving .debug
          [.registry (.setDebug true), eventAt (0, "e")]).map
          (Except.map Moment.reports) =
        [.ok
          [.log .trace none
              "Dispatching e at node 0 to 1 listeners",
            .log .info (some "S") "pushing -> \"x\"",
            .pushed (.text "x")]] ∧
      ((listening { debug := true }).leaving .debug
          [.registry (.setDebug false), eventAt (0, "e")]).map
          (Except.map Moment.reports) =
        [.ok
          [.log .trace none
              "Dispatching e at node 0 to 1 listeners",
            .pushed (.text "x")]] := by
  have hBeside :=
    @indifferent_beside (listening { debug := false })
      (listening { debug := true })
      (heedless_listening { debug := false }) rfl
      [.registry (.setDebug true), eventAt (0, "e")]
      [.registry (.setDebug false), eventAt (0, "e")]
      (by simp [eventAt, Operation.Heedless]) rfl
  refine ⟨hBeside.1, ?_, ?_⟩
  · rfl
  · rfl

/- A provider that builds handlers while diagnostics are on. -/
def watchingProvider : Provider :=
  { name := "Watching provider"
    shortName := "S"
    methodAttribute := "m"
    methods :=
      MethodTable.ofList
        [("send", fun cx debug _ _ =>
          return if debug then
            some (pushHandler cx (.literal .null))
          else none)] }

/- A session with an element that declares an event. -/
def declaring
    (debug : Bool) : Session :=
  start
    (Document.ofTree
      ⟨#[some (rootNode [1]),
        some
          { id := 1, parent := some 0
            data :=
              .element
                ⟨.html "i",
                  [.plain "data-metric-event" "e",
                    .plain "m" "send"]⟩ }], []⟩)
    { debug }

/-
  If a builder looks at the switch, runs that differ in the
  switch only may differ in what they attach.
-/
theorem not_indifferent_of_watching :
    (declaring false).on .debug = (declaring true).on .debug ∧
      ¬ List.Forall₂ (Both Moment.Indifferent)
        ((declaring false).leaving .debug
          [.registry (.addProvider watchingProvider true)])
        ((declaring true).leaving .debug
          [.registry (.addProvider watchingProvider true)]) := by
  have hOff :
      ((declaring false).step
          (.registry (.addProvider watchingProvider true))).map
          (·.2.1) =
        .ok (.count 0) := by
    cbv
  have hOn :
      ((declaring true).step
          (.registry (.addProvider watchingProvider true))).map
          (·.2.1) =
        .ok (.count 1) := by
    cbv
  refine ⟨rfl, ?_⟩
  intro hAll
  have hSame :
      ∀ m m', Moment.Indifferent m m' → m.answer = m'.answer :=
    fun m m' hBeside => hBeside.answer
  have hAnswers := Both.map_of_all hSame hAll
  rw [answers_of_step rfl, answers_of_step rfl, hOff, hOn]
    at hAnswers
  cases hAnswers

end Session

end MarkupMetrics
