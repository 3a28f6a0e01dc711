import MarkupMetrics.Proofs.Session.Arrivals
import MarkupMetrics.Proofs.Session.Heedless
import MarkupMetrics.Proofs.Session.Likewise
import MarkupMetrics.Proofs.Session.Pushes

/-
  This file proves that what a session does is the same
  whether or not a switch is on.

  An operation on a session with a switch on does what it
  does without, and the session ends up as it would, with the
  switch on.  What is foreign may look at the switch for
  diagnostics, so for that one this takes a session that does
  not heed it.

  Key definitions include:
    * `Session.on`
    * `Operation.sets`
    * `Operation.on`
    * `alwaysOn`

  Key theorems include:
    * `Session.perform_on`
    * `Session.perform_sets`
-/

namespace MarkupMetrics

open Dom

------------------------------------------------------------
-- Operations
------------------------------------------------------------

variable (w : Switch)

/- A caller whose notes show if the switch is the one. -/
def Caller.on
    (caller : Caller) : Switch → Caller
  | .enabled => caller
  | .debug => { caller with debug := true }

namespace Operation

/- Whether an operation turns a switch on or off. -/
def sets
    (w : Switch) : Operation → Bool
  | .registry (.setEnabled _) => w = .enabled
  | .registry (.setDebug _) => w = .debug
  | _ => false

/- An operation that brings in nothing with a switch off. -/
def on
    (w : Switch) : Operation → Operation
  | .registry (.replace config) =>
      .registry (.replace (config.on w))
  | .language caller question =>
      .language (caller.on w) question
  | operation => operation

end Operation

/- The operations that leave a switch, with it on. -/
def alwaysOn
    (operations : List Operation) : List Operation :=
  (operations.filter fun o => !o.sets w).map (·.on w)

------------------------------------------------------------
-- Sessions
------------------------------------------------------------

namespace Session

/- A session with a switch on in all registries. -/
def on
    (s : Session)
    (w : Switch) : Session :=
  { s with
    registry := s.registry.on w
    initial := s.initial.on w
    retired := s.retired.map (·.on w) }

@[simp] theorem on_registry
    (s : Session) :
    (s.on w).registry = s.registry.on w :=
  rfl

/- A result with a switch on in the session. -/
def onFirst
    {α : Type}
    (w : Switch)
    (result : Session × α) : Session × α :=
  (result.1.on w, result.2)

/-
  If a part does the same with a switch on, so does the whole
  that goes on with its result in the same way.
-/
theorem bind_onThird
    {α : Type}
    {part part' : Trace (Page × Registry × α)}
    {rest rest' : Page × Registry × α → Trace (Session × Answer)}
    (hPart : part' = Registry.onThird w <$> part)
    (hRest :
      ∀ result,
        rest' (Registry.onThird w result) =
          onFirst w <$> rest result) :
    part' >>= rest' = onFirst w <$> (part >>= rest) := by
  rw [hPart, bind_map_left, map_bind]
  congr 1
  funext result
  exact hRest result

variable (s : Session)

/- Whether pushing is on does not matter to diagnostics. -/
theorem diagnoses_on_enabled :
    (s.on .enabled).diagnoses = s.diagnoses := by
  funext number
  by_cases hNumber : number = s.registry.number
  · simp [diagnoses, configOf, on, Registry.on, Config.on,
      hNumber]
  · cases hRetired : s.retired[number]? with
    | none =>
        simp [diagnoses, configOf, on, Registry.on, hNumber,
          hRetired]
    | some config =>
        simp [diagnoses, configOf, on, Registry.on, Config.on,
          hNumber, hRetired]

/- Of what is done with a document, only an event meets it. -/
theorem perform_surroundings_on
    (hHeedless : w = .debug → s.Heedless)
    (operation : PageOperation) :
    operation.perform (s.on w).surroundings s.page =
      operation.perform s.surroundings s.page := by
  cases w with
  | enabled =>
      have hSame :
          (s.on .enabled).surroundings = s.surroundings := by
        rw [surroundings, diagnoses_on_enabled]
        rfl
      rw [hSame]
  | debug =>
      cases operation with
      | dispatch node event =>
          have hEvent :=
            (hHeedless rfl).dispatch (s.on .debug).diagnoses
              s.diagnoses node event
          simp only [PageOperation.perform, surroundings, hEvent]
      | _ => rfl

/- What is done with a document leaves the switches alone. -/
theorem perform_page_on
    (hHeedless : w = .debug → s.Heedless)
    (operation : PageOperation) :
    (s.on w).perform (.page operation) =
      onFirst w <$> s.perform (.page operation) := by
  have hSame := perform_surroundings_on w s hHeedless operation
  simp only [perform, map_bind]
  rw [show (s.on w).page = s.page from rfl, hSame]
  rfl

/- So do questions in the small languages. -/
theorem perform_language_on
    (caller : Caller)
    (question : LanguageOperation) :
    (s.on w).perform (.language (caller.on w) question) =
      onFirst w <$> s.perform (.language caller question) := by
  have hScope : (caller.on w).scope = caller.scope := by
    cases w <;> rfl
  simp only [perform, hScope, map_bind]
  rfl

/- A registry that is replaced keeps the switch on. -/
theorem retire_on
    (config : Config) :
    (s.on w).retire (config.on w) = (s.retire config).on w := by
  simp [retire, on, Registry.on]

/- One switch is set in the same way while another is on. -/
theorem setEnabled_on
    (r : Registry)
    (enabled : Bool)
    (hOther : w ≠ .enabled) :
    (r.on w).setEnabled enabled = (r.setEnabled enabled).on w := by
  cases w with
  | enabled => exact absurd rfl hOther
  | debug => rfl

theorem setDebug_on
    (r : Registry)
    (debug : Bool)
    (hOther : w ≠ .debug) :
    (r.on w).setDebug debug = (r.setDebug debug).on w := by
  cases w with
  | enabled => rfl
  | debug => exact absurd rfl hOther

/-
  What is done with the registry does not depend on a switch,
  if it does not set it.
-/
theorem perform_registry_on
    {operation : RegistryOperation}
    (hHeedless : w = .debug → s.Heedless)
    (hAdded :
      w = .debug → (Operation.registry operation).Heedless)
    (hOther : (Operation.registry operation).sets w = false) :
    (s.on w).perform ((Operation.registry operation).on w) =
      onFirst w <$> s.perform (.registry operation) := by
  cases operation with
  | addProvider provider hasTransport =>
      apply bind_onThird w
      · exact
          Registry.add_on w
            (fun hDebug =>
              ⟨(hHeedless hDebug).providers, hAdded hDebug⟩)
            s.page _
      · intro result
        rfl
  | removeProvider name =>
      apply bind_onThird w
      · exact Registry.remove_on w s.registry s.page name
      · intro result
        rfl
  | parse root =>
      apply bind_onThird w
      · exact
          Registry.scan_on w
            (fun hDebug => (hHeedless hDebug).providers)
            s.page root none
      · intro result
        rfl
  | parseFor name root =>
      apply bind_onThird w
      · exact
          Registry.scan_on w
            (fun hDebug => (hHeedless hDebug).providers)
            s.page root (some name)
      · intro result
        rfl
  | teardown =>
      have hRetire :=
        retire_on w
          (s.withPage (s.registry.clear s.page).1
            (s.registry.clear s.page).2) s.initial
      exact congrArg (fun s => Trace.pure (s, Answer.nothing)) hRetire
  | replace config =>
      exact
        congrArg (fun s => Trace.pure (s, Answer.nothing))
          (retire_on w s config)
  | setEnabled enabled =>
      have hSet :=
        setEnabled_on w s.registry enabled (by
          simpa [Operation.sets] using hOther)
      exact
        congrArg
          (fun registry =>
            Trace.pure
              ({ s.on w with registry }, Answer.nothing))
          hSet
  | setDebug debug =>
      have hSet :=
        setDebug_on w s.registry debug (by
          simpa [Operation.sets] using hOther)
      exact
        congrArg
          (fun registry =>
            Trace.pure
              ({ s.on w with registry }, Answer.nothing))
          hSet
  | push name payload =>
      simp only [Operation.on, perform,
        RegistryOperation.perform, on_registry,
        Registry.push_on, map_bind]
      rfl
  | clear => rfl
  | unbind name => rfl
  | setTransport provider hasTransport => rfl

/-
  A session does with a switch on what it does without, unless
  the switch is set.
-/
theorem perform_on
    {operation : Operation}
    (hHeedless : w = .debug → s.Heedless)
    (hAdded : w = .debug → operation.Heedless)
    (hOther : operation.sets w = false) :
    (s.on w).perform (operation.on w) =
      onFirst w <$> s.perform operation := by
  cases operation with
  | page operation =>
      exact perform_page_on w s hHeedless operation
  | registry operation =>
      exact perform_registry_on w s hHeedless hAdded hOther
  | language caller question =>
      exact perform_language_on w s caller question

/- To set a switch does nothing but that. -/
theorem perform_sets
    {operation : Operation}
    (hSets : operation.sets w = true) :
    ∃ after,
      s.perform operation = .done (after, .nothing) [] ∧
        after.on w = s.on w := by
  cases operation with
  | page operation => cases hSets
  | language caller question => cases hSets
  | registry operation =>
      cases operation with
      | setEnabled enabled =>
          obtain rfl : w = .enabled := by
            simpa [Operation.sets] using hSets
          exact ⟨_, rfl, rfl⟩
      | setDebug debug =>
          obtain rfl : w = .debug := by
            simpa [Operation.sets] using hSets
          exact ⟨_, rfl, rfl⟩
      | _ => cases hSets

end Session

end MarkupMetrics
