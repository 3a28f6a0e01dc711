import MarkupMetrics.Proofs.Session.Switches

/-
  This file sets a run in which a switch is turned on and off
  beside the run of the other operations in which the switch
  is on all along.

  A run is told moment by moment.  Seen without the switch and
  without what effects come to, the moments of both runs are
  the same.

  Key definitions include:
    * `Moment`
    * `Session.moments`
    * `Session.leaving`
    * `View`
    * `Both`
    * `View.rawRuns`
    * `View.Agrees`

  Key theorems include:
    * `Session.step_on`
    * `Session.views_on`
    * `Both.all_of_map`
    * `View.agrees_on`
-/

namespace MarkupMetrics

open Dom

------------------------------------------------------------
-- Moments
------------------------------------------------------------

/-
  An operation of a run, with the sessions before and after
  it, its answer and its reports.
-/
structure Moment where
  before : Session
  operation : Operation
  after : Session
  answer : Answer
  reports : List Report
  stepped :
    before.step operation = .ok (after, answer, reports)

namespace Moment

/- What was done at a moment, whatever it came to. -/
def effects
    (m : Moment) : List Effect :=
  match m.before.perform m.operation with
  | .fault _ => []
  | .done _ effects => effects

/- Counting runs does not change what effects come to. -/
theorem report_counted
    (s : Session)
    (effects : List Effect) :
    Session.report
        { s with
          providers :=
            effects.foldl Session.countRun s.providers } =
      s.report := by
  funext debug
  refine Session.Alike.report ?_ debug
  constructor
  · exact Document.Matches.refl s.page
  · rfl
  · rfl
  · rfl
  · exact Session.transports_countRun effects s.providers

/- Its reports are what that comes to in the session after it. -/
theorem reports_eq
    (m : Moment) :
    m.reports =
      m.effects.flatMap
        (m.after.report (Session.callerDebug m.operation)) := by
  rcases Session.step_cases m.stepped with
    ⟨s, effects, hPerform, hAfter, hReports⟩
  rw [hAfter, report_counted, hReports, Moment.effects, hPerform]

end Moment

namespace Session

/- The moments of a run.  A fault ends it. -/
def moments
    (s : Session) :
    List Operation → List (Except Fault Moment)
  | [] => []
  | operation :: rest =>
      match hStep : s.step operation with
      | .error why => [.error why]
      | .ok (after, answer, reports) =>
          .ok ⟨s, operation, after, answer, reports, hStep⟩ ::
            after.moments rest

variable {s after : Session}
variable {operation : Operation}
variable {answer : Answer}
variable {reports : List Report}

theorem moments_of_error
    {why : Fault}
    (hStep : s.step operation = .error why)
    (rest : List Operation) :
    s.moments (operation :: rest) = [.error why] := by
  rw [moments]
  split
  · rename_i hOther
    rw [hStep] at hOther
    cases hOther
    rfl
  · rename_i hOther
    rw [hStep] at hOther
    cases hOther

theorem moments_of_ok
    (hStep :
      s.step operation = .ok (after, answer, reports))
    (rest : List Operation) :
    s.moments (operation :: rest) =
      .ok ⟨s, operation, after, answer, reports, hStep⟩ ::
        after.moments rest := by
  rw [moments]
  split
  · rename_i hOther
    rw [hStep] at hOther
    cases hOther
  · rename_i hOther
    have hSame := hStep
    rw [hOther] at hSame
    cases hSame
    rfl

/- The moments of a run at which a switch is not set. -/
def leaving
    (s : Session)
    (w : Switch)
    (operations : List Operation) :
    List (Except Fault Moment) :=
  (s.moments operations).filter fun
    | .error _ => true
    | .ok m => !m.operation.sets w

/- The answers of one that is a single step. -/
theorem answers_of_step
    {w : Switch}
    (hOther : operation.sets w = false) :
    (s.leaving w [operation]).map (Except.map Moment.answer) =
      [(s.step operation).map (·.2.1)] := by
  rw [leaving]
  cases hStep : s.step operation with
  | error why =>
      rw [moments_of_error hStep]
      rfl
  | ok result =>
      rcases result with ⟨after, answer, reports⟩
      rw [moments_of_ok hStep]
      simp [moments, hOther, Except.map]

end Session

------------------------------------------------------------
-- Views
------------------------------------------------------------

/- A moment without its reports. -/
structure View where
  before : Session
  operation : Operation
  after : Session
  answer : Answer
  effects : List Effect

/- What is seen of a moment without its reports. -/
def Moment.view
    (m : Moment) : View :=
  ⟨m.before, m.operation, m.after, m.answer, m.effects⟩

/- What is seen of it if a switch is on all along. -/
def View.on
    (v : View)
    (w : Switch) : View :=
  { v with
    before := v.before.on w
    operation := v.operation.on w
    after := v.after.on w }

namespace Session

variable (w : Switch)
variable {s after : Session}
variable {operation : Operation}
variable {answer : Answer}
variable {reports : List Report}

/- What ends in a fault does so with a switch on. -/
theorem step_on_error
    {why : Fault}
    (hHeedless : w = .debug → s.Heedless)
    (hAdded : w = .debug → operation.Heedless)
    (hOther : operation.sets w = false)
    (hStep : s.step operation = .error why) :
    (s.on w).step (operation.on w) = .error why := by
  have hPerform := perform_on w s hHeedless hAdded hOther
  unfold step at hStep ⊢
  rw [hPerform]
  cases hRun : s.perform operation with
  | fault other =>
      rw [hRun] at hStep
      cases hStep
      rfl
  | done result effects =>
      rw [hRun] at hStep
      cases hStep

/- What does not looks the same, but for the switch. -/
theorem step_on
    (hHeedless : w = .debug → s.Heedless)
    (hAdded : w = .debug → operation.Heedless)
    (hOther : operation.sets w = false)
    (hStep : s.step operation = .ok (after, answer, reports)) :
    ∃ reports',
      ∃ hStep' :
        (s.on w).step (operation.on w) =
          .ok (after.on w, answer, reports'),
        (Moment.mk _ _ _ _ _ hStep').view =
          (Moment.mk _ _ _ _ _ hStep).view.on w := by
  rcases step_cases hStep with
    ⟨middle, effects, hPerform, rfl, rfl⟩
  have hOn := perform_on w s hHeedless hAdded hOther
  rw [hPerform, Trace.map_done] at hOn
  have hStep' :
      (s.on w).step (operation.on w) =
        .ok
          (({ middle with
              providers :=
                effects.foldl countRun middle.providers } :
              Session).on w, answer,
            effects.flatMap
              ((middle.on w).report
                (callerDebug (operation.on w)))) := by
    rw [step, hOn]
    rfl
  refine ⟨_, hStep', ?_⟩
  simp only [Moment.view, Moment.effects, View.on, hOn,
    hPerform]

/-
  The moments at which a switch is not set look like those of
  the run with the switch on all along.
-/
theorem views_on
    (s : Session)
    (hHeedless : w = .debug → s.Heedless)
    (operations : List Operation)
    (hAdded : w = .debug → ∀ o ∈ operations, o.Heedless) :
    (s.leaving w operations).map
        (Except.map fun m => m.view.on w) =
      ((s.on w).moments (alwaysOn w operations)).map
        (Except.map Moment.view) := by
  induction operations generalizing s with
  | nil => rfl
  | cons operation rest ih =>
      have hFirst : w = .debug → operation.Heedless :=
        fun hDebug => hAdded hDebug operation (by simp)
      have hLater :
          w = .debug → ∀ o ∈ rest, o.Heedless :=
        fun hDebug o hMember =>
          hAdded hDebug o (by simp [hMember])
      have hNext :
          ∀ {after answer reports},
            s.step operation = .ok (after, answer, reports) →
              w = .debug → after.Heedless :=
        fun hStep hDebug =>
          (hHeedless hDebug).step (hFirst hDebug) hStep
      cases hSets : operation.sets w with
      | true =>
          rcases perform_sets w s hSets with
            ⟨after, hPerform, hAfter⟩
          have hStep :
              s.step operation = .ok (after, .nothing, []) := by
            rw [step, hPerform]
            rfl
          have hRest := ih after (hNext hStep) hLater
          have hNone :
              alwaysOn w (operation :: rest) =
                alwaysOn w rest := by
            simp [alwaysOn, hSets]
          rw [hNone, ← hAfter, ← hRest, leaving,
            moments_of_ok hStep]
          simp [leaving, hSets]
      | false =>
          have hSome :
              alwaysOn w (operation :: rest) =
                operation.on w :: alwaysOn w rest := by
            simp [alwaysOn, hSets]
          rw [hSome]
          cases hStep : s.step operation with
          | error why =>
              rw [leaving, moments_of_error hStep,
                moments_of_error
                  (step_on_error w hHeedless hFirst hSets hStep)]
              rfl
          | ok result =>
              rcases result with ⟨after, answer, reports⟩
              rcases step_on w hHeedless hFirst hSets hStep with
                ⟨reports', hStep', hView⟩
              have hRest := ih after (hNext hStep) hLater
              rw [leaving] at hRest ⊢
              rw [moments_of_ok hStep, moments_of_ok hStep']
              simp [hSets, Except.map, hView, hRest]

/- At a moment at which it is set nothing else happens. -/
theorem idle_of_sets
    {m : Moment}
    (hSets : m.operation.sets w = true) :
    m.answer = .nothing ∧ m.reports = [] ∧
      m.after.on w = m.before.on w := by
  rcases perform_sets w m.before hSets with
    ⟨after, hPerform, hAfter⟩
  have hStep := m.stepped
  rw [step, hPerform] at hStep
  simp only [settle, List.foldl_nil, List.flatMap_nil,
    Except.ok.injEq, Prod.mk.injEq] at hStep
  rcases hStep with ⟨hSession, hAnswer, hReports⟩
  rw [← hSession, ← hAnswer, ← hReports]
  exact ⟨rfl, rfl, hAfter⟩

end Session

------------------------------------------------------------
-- Runs side by side
------------------------------------------------------------

/- Two outcomes are the same fault, or are related results. -/
inductive Both
    {α : Type}
    (R : α → α → Prop) :
    Except Fault α → Except Fault α → Prop
  | faults (why : Fault) : Both R (.error why) (.error why)
  | results {a b : α} (related : R a b) :
      Both R (.ok a) (.ok b)

/- Outcomes that look the same are related by their looks. -/
theorem Both.of_map
    {α β : Type}
    {R : α → α → Prop}
    {f g : α → β}
    (hRelated : ∀ a b, f a = g b → R a b)
    {x y : Except Fault α}
    (hSame : x.map f = y.map g) :
    Both R x y := by
  cases x with
  | error why =>
      cases y with
      | error other =>
          cases hSame
          exact .faults why
      | ok b => cases hSame
  | ok a =>
      cases y with
      | error other => cases hSame
      | ok b =>
          simp only [Except.map, Except.ok.injEq] at hSame
          exact .results (hRelated a b hSame)

/- So are runs, moment by moment. -/
theorem Both.all_of_map
    {α β : Type}
    {R : α → α → Prop}
    {f g : α → β}
    (hRelated : ∀ a b, f a = g b → R a b)
    {xs ys : List (Except Fault α)}
    (hSame : xs.map (Except.map f) = ys.map (Except.map g)) :
    List.Forall₂ (Both R) xs ys := by
  rw [← List.forall₂_eq_eq_eq, List.forall₂_map_left_iff,
    List.forall₂_map_right_iff] at hSame
  exact hSame.imp fun x y => Both.of_map hRelated

/- What related results have in common is the same. -/
theorem Both.map_of_all
    {α β : Type}
    {R : α → α → Prop}
    {f : α → β}
    (hSame : ∀ a b, R a b → f a = f b)
    {xs ys : List (Except Fault α)}
    (hAll : List.Forall₂ (Both R) xs ys) :
    xs.map (Except.map f) = ys.map (Except.map f) := by
  rw [← List.forall₂_eq_eq_eq, List.forall₂_map_left_iff,
    List.forall₂_map_right_iff]
  refine hAll.imp ?_
  rintro x y hBoth
  cases hBoth with
  | faults why => rfl
  | results hRelated =>
      exact congrArg Except.ok (hSame _ _ hRelated)

------------------------------------------------------------
-- Raw handlers
------------------------------------------------------------

/- The raw handler that runs for an event, if one does. -/
def Handler.raw?
    (h : Handler)
    (t : Tree)
    (event : PageEvent) : Option RawHandler :=
  match h with
  | .recorder _ => none
  | .provided cx guard raw =>
      if (guard.passes cx.origin t event.current).result? =
          some true then
        some raw
      else none

/- If one does, the handler does no more than it afterwards. -/
theorem Handler.run_of_raw?
    {h : Handler}
    {t : Tree}
    {event : PageEvent}
    {raw : RawHandler}
    (hRaw : h.raw? t event = some raw)
    (debug : Nat → Bool) :
    ∃ on effects,
      h.run debug t event =
        Trace.after effects (raw on t event) := by
  cases h with
  | recorder label => cases hRaw
  | provided cx guard inner =>
      rw [raw?, Option.ite_none_right_eq_some,
        Trace.result?_eq_some_iff] at hRaw
      rcases hRaw with ⟨⟨effects, hPass⟩, hInner⟩
      cases hInner
      refine ⟨debug cx.registry, effects, ?_⟩
      rw [run, hPass]
      rfl

/- If none does, it makes no difference which one it is. -/
theorem Handler.run_of_held
    {cx : Context}
    {guard : Guard}
    {raw other : RawHandler}
    {t : Tree}
    {event : PageEvent}
    (hHeld : (provided cx guard raw).raw? t event = none)
    (debug : Nat → Bool) :
    (provided cx guard raw).run debug t event =
      (provided cx guard other).run debug t event := by
  rw [raw?, ite_eq_right_iff] at hHeld
  rw [run, run]
  cases hPass : guard.passes cx.origin t event.current with
  | fault why => rfl
  | done pass effects =>
      cases pass with
      | false => rfl
      | true => cases hHeld (by rw [hPass]; rfl)

/-
  The raw handlers that run at a moment, in order, and the
  events that they run with.
-/
def View.rawRuns
    (v : View) : List (RawHandler × PageEvent) :=
  match v.operation with
  | .page (.dispatch target event) =>
      match v.before.page.calls target event with
      | .error _ => []
      | .ok calls =>
          calls.filterMap fun c =>
            (c.listener.handler.raw? v.before.page.tree
                (c.event target event)).map fun raw =>
              (raw, c.event target event)
  | _ => []

/- They do not depend on a switch. -/
theorem View.rawRuns_on
    (v : View)
    (w : Switch) :
    (v.on w).rawRuns = v.rawRuns := by
  rcases v with ⟨before, operation, after, answer, effects⟩
  cases operation with
  | page operation => rfl
  | language caller question => rfl
  | registry operation => cases operation <;> rfl

------------------------------------------------------------
-- Agreement
------------------------------------------------------------

/-
  At two moments the answer is the same, and so are the page
  with its listeners, the providers with their bindings and
  their transports, the raw handlers that run, and all that is
  tried.
-/
structure View.Agrees
    (v v' : View) : Prop where
  answer : v.answer = v'.answer
  page : v.after.page = v'.after.page
  number : v.after.registry.number = v'.after.registry.number
  entries :
    v.after.registry.entries = v'.after.registry.entries
  providers : v.after.providers = v'.after.providers
  rawRuns : v.rawRuns = v'.rawRuns
  effects : v.effects = v'.effects

namespace View.Agrees

variable {v v' v'' : View}

theorem symm
    (hAgrees : v.Agrees v') :
    v'.Agrees v := by
  rcases hAgrees with ⟨h₁, h₂, h₃, h₄, h₅, h₆, h₇⟩
  exact
    ⟨h₁.symm, h₂.symm, h₃.symm, h₄.symm, h₅.symm, h₆.symm,
      h₇.symm⟩

theorem trans
    (hFirst : v.Agrees v')
    (hSecond : v'.Agrees v'') :
    v.Agrees v'' := by
  rcases hFirst with ⟨h₁, h₂, h₃, h₄, h₅, h₆, h₇⟩
  rcases hSecond with ⟨k₁, k₂, k₃, k₄, k₅, k₆, k₇⟩
  exact
    ⟨h₁.trans k₁, h₂.trans k₂, h₃.trans k₃, h₄.trans k₄,
      h₅.trans k₅, h₆.trans k₆, h₇.trans k₇⟩

end View.Agrees

/- A switch makes no difference to any of this. -/
theorem View.agrees_on
    (v : View)
    (w : Switch) :
    v.Agrees (v.on w) :=
  ⟨rfl, rfl, rfl, rfl, rfl, (v.rawRuns_on w).symm, rfl⟩

------------------------------------------------------------
-- A session with a listener
------------------------------------------------------------

/- The listener of a provider that sends the same each time. -/
def sendingListener : Listener Handler :=
  ⟨0, 0, "e", none,
    .provided ⟨0, 0, "S"⟩ .always
      (pushHandler ⟨0, 0, "S"⟩ (.literal (.text "x")))⟩

/- A session in which it is attached to the document node. -/
def Session.listening
    (config : Config) : Session :=
  { Session.start
      { (Document.empty : Page) with
        listeners := [sendingListener]
        nextListener := 1 }
      config with
    providers := [{ hasTransport := true }] }

/- Its handler does not heed diagnostics. -/
theorem Session.heedless_listening
    (config : Config) :
    (listening config).Heedless := by
  constructor
  · intro e hMember
    cases hMember
  · intro l hMember
    obtain rfl := List.mem_singleton.mp hMember
    exact
      RawHandler.heedless_pushHandler ⟨0, 0, "S"⟩
        fun _ _ _ _ => rfl

end MarkupMetrics
