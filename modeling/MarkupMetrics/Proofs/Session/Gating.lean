import MarkupMetrics.Proofs.Session.Moments
import MarkupMetrics.Proofs.Session.Settings

/-
  This file proves that the switch for pushing decides which
  payloads reach transports, and nothing else.

  It is looked at when a payload is pushed, not when a handler
  is attached, and it is as it was set last.

  Key definitions include:
    * `Moment.pushes`
    * `Moment.arrivals`
    * `Moment.Gated`
    * `Operation.gate`

  Key theorems include:
    * `Moment.gated_of_view`
    * `Session.gated_beside`
    * `Session.enabled_of_step`
-/

namespace MarkupMetrics

open Dom

------------------------------------------------------------
-- Arrivals
------------------------------------------------------------

/- What an effect pushes, and on whose behalf. -/
def Effect.push? : Effect → Option (Context × Payload)
  | .push cx payload => some (cx, payload)
  | _ => none

namespace Session

/- What arrives is what is pushed, if it reaches a transport. -/
theorem arrival?_eq
    (s : Session)
    (e : Effect) :
    s.arrival? e =
      (e.push?.filter fun x => s.reaches x.1).map (·.2) := by
  cases e with
  | push cx payload =>
      cases hReaches : s.reaches cx with
      | true =>
          simp [arrival?, Effect.push?, hReaches, Option.filter]
      | false =>
          simp [arrival?, Effect.push?, hReaches, Option.filter]
  | _ => rfl

/- With pushing on all along, it is enabled for everyone. -/
theorem enabled_on
    (s : Session)
    (number : Nat) :
    ((s.on .enabled).configOf number).enabled = true := by
  by_cases hNumber : number = s.registry.number
  · simp [configOf, on, Registry.on, Config.on, hNumber]
  · cases hRetired : s.retired[number]? with
    | none =>
        simp [configOf, on, Registry.on, hNumber, hRetired]
    | some config =>
        simp [configOf, on, Registry.on, Config.on, hNumber,
          hRetired]

/- Then only the transport may be missing for a payload. -/
theorem reaches_on
    (s : Session)
    (cx : Context) :
    (s.on .enabled).reaches cx = s.hasTransport cx.provider := by
  rw [reaches, enabled_on, Bool.true_and]
  rfl

end Session

namespace Moment

/- What is pushed at a moment, on whose behalf, in order. -/
def pushes
    (m : Moment) : List (Context × Payload) :=
  m.effects.filterMap Effect.push?

/- What of it reaches transports. -/
def arrivals
    (m : Moment) : List (Context × Payload) :=
  m.pushes.filter fun x => m.after.reaches x.1

/- The payloads are those that the reports bring. -/
theorem payloads_arrivals
    (m : Moment) :
    m.arrivals.map (·.2) =
      m.reports.filterMap Report.payload? := by
  rw [m.reports_eq, Session.payloads_reports, arrivals, pushes,
    List.filter_filterMap, List.map_filterMap]
  apply List.filterMap_congr
  intro e _
  exact (m.after.arrival?_eq e).symm

------------------------------------------------------------
-- Gates
------------------------------------------------------------

/-
  A moment of a run agrees with one of a run in which pushing
  is enabled all along, so that what is pushed arrives if the
  provider has a transport.  What is pushed for a registry
  arrives as it does there if pushing is enabled for the
  registry at the moment, and else does not.
-/
structure Gated
    (m m' : Moment) : Prop
    extends View.Agrees m.view m'.view where
  throughout :
    ∀ number, (m'.after.configOf number).enabled = true
  pushed :
    m'.arrivals =
      m'.pushes.filter fun x =>
        m'.after.hasTransport x.1.provider
  arrive :
    m.arrivals.map (·.2) = m.reports.filterMap Report.payload?
  arrive' :
    m'.arrivals.map (·.2) =
      m'.reports.filterMap Report.payload?
  inOrder :
    m.arrivals =
      m'.arrivals.filter fun x =>
        (m.after.configOf x.1.registry).enabled
  each :
    ∀ number,
      (m.arrivals.filter fun x => x.1.registry == number) =
        if (m.after.configOf number).enabled then
          m'.arrivals.filter fun x => x.1.registry == number
        else []

/- What passes two tests, of which one is about a key. -/
theorem filter_key
    {α κ : Type}
    [BEq κ]
    [LawfulBEq κ]
    (key : α → κ)
    (p : κ → Bool)
    (k : κ)
    (xs : List α) :
    ((xs.filter fun x => p (key x)).filter fun x =>
        key x == k) =
      if p k then xs.filter fun x => key x == k else [] := by
  rw [List.filter_filter]
  cases hPasses : p k with
  | true =>
      rw [if_pos rfl]
      apply List.filter_congr
      intro x _
      by_cases hKey : key x = k
      · simp [hKey, hPasses]
      · simp [hKey]
  | false =>
      rw [if_neg (by simp), List.filter_eq_nil_iff]
      intro x _
      by_cases hKey : key x = k
      · simp [hKey, hPasses]
      · simp [hKey]

/- A moment that looks as another with pushing on is gated. -/
theorem gated_of_view
    {m m' : Moment}
    (hView : m.view.on .enabled = m'.view) :
    Gated m m' := by
  have hAfter : m'.after = m.after.on .enabled :=
    (congrArg View.after hView).symm
  have hEffects : m'.effects = m.effects :=
    (congrArg View.effects hView).symm
  have hPushes : m'.pushes = m.pushes := by
    rw [pushes, pushes, hEffects]
  have hArrivals :
      m'.arrivals =
        m'.pushes.filter fun x =>
          m'.after.hasTransport x.1.provider := by
    rw [arrivals, hAfter]
    apply List.filter_congr
    intro x _
    exact m.after.reaches_on x.1
  have hOrder :
      m.arrivals =
        m'.arrivals.filter fun x =>
          (m.after.configOf x.1.registry).enabled := by
    rw [hArrivals, hPushes, hAfter, List.filter_filter]
    rfl
  have hAgrees : m.view.Agrees m'.view :=
    hView ▸ m.view.agrees_on .enabled
  constructor
  · exact hAgrees
  · rw [hAfter]
    exact m.after.enabled_on
  · exact hArrivals
  · exact m.payloads_arrivals
  · exact m'.payloads_arrivals
  · exact hOrder
  · intro number
    rw [hOrder]
    exact
      filter_key (fun x : Context × Payload => x.1.registry)
        (fun number => (m.after.configOf number).enabled)
        number m'.arrivals

end Moment

------------------------------------------------------------
-- Runs
------------------------------------------------------------

/-
  Any run is, moment by moment, as the run of the same
  operations with pushing enabled all along, but for what
  reaches transports.  When pushing is enabled or disabled,
  nothing else happens.
-/
theorem Session.gated_beside
    (s : Session)
    (operations : List Operation) :
    List.Forall₂ (Both Moment.Gated)
        (s.leaving .enabled operations)
        ((s.on .enabled).moments
          (alwaysOn .enabled operations)) ∧
      ∀ m : Moment,
        m.operation.sets .enabled = true →
          m.answer = .nothing ∧ m.reports = [] ∧
            m.after.on .enabled = m.before.on .enabled := by
  constructor
  · exact
      Both.all_of_map (fun m m' => Moment.gated_of_view)
        (views_on .enabled s nofun operations nofun)
  · intro m hSets
    exact idle_of_sets .enabled hSets

/-
  A handler that was attached while pushing was not enabled
  pushes as soon as it is.
-/
theorem Session.gated_beside_late_switch :
    List.Forall₂ (Both Moment.Gated)
        ((listening { enabled := false }).leaving .enabled
          [eventAt (0, "e"), .registry (.setEnabled true),
            eventAt (0, "e")])
        ((listening { enabled := true }).moments
          [eventAt (0, "e"), eventAt (0, "e")]) ∧
      ((listening { enabled := false }).leaving .enabled
          [eventAt (0, "e"), .registry (.setEnabled true),
            eventAt (0, "e")]).map
          (Except.map fun m => m.arrivals.map (·.2)) =
        [.ok [], .ok [.text "x"]] := by
  have hBeside :=
    gated_beside (listening { enabled := false })
      [eventAt (0, "e"), .registry (.setEnabled true),
        eventAt (0, "e")]
  refine ⟨hBeside.1, ?_⟩
  rfl

------------------------------------------------------------
-- The switch
------------------------------------------------------------

/-
  Whether pushing is enabled for the registry that is in use
  after an operation.
-/
def Operation.gate
    (s : Session) : Operation → Bool
  | .registry (.setEnabled enabled) => enabled
  | .registry (.replace config) => config.enabled
  | .registry .teardown => s.initial.enabled
  | _ => s.registry.config.enabled

theorem Operation.settings_enabled
    (s : Session)
    (operation : Operation) :
    (operation.settings s).enabled = operation.gate s := by
  cases operation with
  | page operation => rfl
  | language caller question => rfl
  | registry operation => cases operation <;> rfl

namespace Session

/-
  The switch is what it was set to.  A new registry has the
  configured one, and no other operation changes the switch of
  a registry, in use or former.
-/
theorem enabled_of_step
    {s after : Session}
    (hFiled : s.Filed)
    {operation : Operation}
    {answer : Answer}
    {reports : List Report}
    (hStep : s.step operation = .ok (after, answer, reports))
    (number : Nat) :
    (after.configOf number).enabled =
      if number = after.registry.number then operation.gate s
      else (s.configOf number).enabled := by
  rw [configOf_of_step hFiled hStep, apply_ite Config.enabled,
    operation.settings_enabled]

/- This is so in every session of a run. -/
theorem enabled_of_history
    {allowed : Session → Action → Prop}
    {s after : Session}
    {earlier : List Session}
    (hHistory : History allowed (s :: earlier))
    {operation : Operation}
    {answer : Answer}
    {reports : List Report}
    (hStep : s.step operation = .ok (after, answer, reports))
    (number : Nat) :
    (after.configOf number).enabled =
      if number = after.registry.number then operation.gate s
      else (s.configOf number).enabled :=
  enabled_of_step hHistory.filed hStep number

/-
  A registry with pushing on is replaced by one with pushing
  off, which leaves it on for the former one.
-/
theorem enabled_of_replaced :
    ∃ after answer reports,
      (start Document.empty {}).step
          (.registry (.replace { enabled := false })) =
        .ok (after, answer, reports) ∧
      after.registry.number = 1 ∧
        (after.configOf 1).enabled = false ∧
          (after.configOf 0).enabled = true := by
  have hHistory :
      History (fun _ _ => True) [start Document.empty {}] :=
    .start {}
  have hStep :
      (start Document.empty {}).step
          (.registry (.replace { enabled := false })) =
        .ok
          ((start Document.empty {}).retire
            { enabled := false }, .nothing, []) :=
    rfl
  have hEnabled := enabled_of_history hHistory hStep
  exact ⟨_, _, _, hStep, rfl, hEnabled 1, hEnabled 0⟩

end Session

end MarkupMetrics
