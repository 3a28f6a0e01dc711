import MarkupMetrics.Proofs.Session.History

/-
  This file proves what operations make of the settings of
  registries.

  Each switch is as it was set last, and a new registry starts
  with the settings that it is given.  Nothing else changes
  the settings of a registry, in use or former.

  Key definitions include:
    * `Operation.renews`
    * `Operation.settings`
    * `Session.Refits`
    * `Session.Filed`

  Key theorems include:
    * `Session.refits_of_perform`
    * `Session.History.filed`
    * `Session.configOf_of_step`
-/

namespace MarkupMetrics

open Dom

------------------------------------------------------------
-- Operations
------------------------------------------------------------

namespace Operation

/- Whether an operation puts a new registry in place. -/
def renews : Operation → Bool
  | .registry .teardown => true
  | .registry (.replace _) => true
  | _ => false

/- The settings of the registry that is in use afterwards. -/
def settings
    (s : Session) : Operation → Config
  | .registry .teardown => s.initial
  | .registry (.replace config) => config
  | .registry (.setEnabled enabled) =>
      { s.registry.config with enabled }
  | .registry (.setDebug debug) =>
      { s.registry.config with debug }
  | _ => s.registry.config

end Operation

namespace Session

/- What an operation makes of all settings of a session. -/
structure Refits
    (s s' : Session)
    (operation : Operation) : Prop where
  config : s'.registry.config = operation.settings s
  number :
    s'.registry.number =
      s.registry.number + operation.renews.toNat
  retired :
    s'.retired =
      if operation.renews then
        s.retired ++ [s.registry.config]
      else s.retired

variable {s s' : Session}
variable {operation : Operation}
variable {answer : Answer}

/- Whatever a scan does, the settings stay. -/
theorem same_of_scanned
    {only : Option String}
    {scanned : Trace (Page × Registry × Nat)}
    (hScan :
      Registry.Bindings only (s.page, s.registry)
        (s'.page, s'.registry))
    (hRun :
      (scanned >>= fun x =>
        pure
          ({ s with page := x.1, registry := x.2.1 },
            Answer.count x.2.2)).Gives (s', answer)) :
    s'.registry.config = s.registry.config ∧
      s'.registry.number = s.registry.number ∧
        s'.retired = s.retired := by
  rcases hScan.same with ⟨_, hNumber, hConfig⟩
  rcases Trace.gives_bind_iff.mp hRun with ⟨x, _, hDone⟩
  rw [Trace.gives_pure_iff, Prod.mk.injEq] at hDone
  rcases hDone with ⟨rfl, _⟩
  exact ⟨hConfig, hNumber, rfl⟩

theorem refits_of_perform
    (hRun : (s.perform operation).Gives (s', answer)) :
    s.Refits s' operation := by
  have hBecomes := (perform_becomes hRun).1
  cases operation with
  | page operation =>
      rw [perform, Trace.gives_bind_iff] at hRun
      rcases hRun with ⟨⟨page, answer₁⟩, _, hDone⟩
      rw [Trace.gives_pure_iff, Prod.mk.injEq] at hDone
      rcases hDone with ⟨rfl, _⟩
      exact ⟨rfl, rfl, rfl⟩
  | language caller operation =>
      rw [perform, Trace.gives_bind_iff] at hRun
      rcases hRun with ⟨answer₁, _, hDone⟩
      rw [Trace.gives_pure_iff, Prod.mk.injEq] at hDone
      rcases hDone with ⟨rfl, _⟩
      exact ⟨rfl, rfl, rfl⟩
  | registry operation =>
  cases operation with
  | addProvider provider hasTransport =>
      rw [perform, RegistryOperation.perform,
        Trace.gives_bind_iff] at hRun
      rcases hRun with ⟨⟨page, r, n⟩, _, hDone⟩
      simp only [Trace.gives_pure_iff, Prod.mk.injEq] at hDone
      rcases hBecomes.1.same with ⟨_, hNumber, hConfig⟩
      exact ⟨hConfig, hNumber, hDone.1 ▸ rfl⟩
  | parse root =>
      rcases same_of_scanned hBecomes hRun with
        ⟨hConfig, hNumber, hRetired⟩
      exact ⟨hConfig, hNumber, hRetired⟩
  | parseFor name root =>
      rcases same_of_scanned hBecomes hRun with
        ⟨hConfig, hNumber, hRetired⟩
      exact ⟨hConfig, hNumber, hRetired⟩
  | removeProvider name =>
      have hRegistry : s'.registry = s.registry.drop name :=
        congrArg Prod.snd hBecomes
      rw [perform, RegistryOperation.perform,
        Trace.gives_bind_iff] at hRun
      rcases hRun with ⟨⟨page, r, found⟩, _, hDone⟩
      simp only [Trace.gives_pure_iff, Prod.mk.injEq] at hDone
      exact
        ⟨by rw [hRegistry]; rfl, by rw [hRegistry]; rfl,
          hDone.1 ▸ rfl⟩
  | push name payload =>
      rw [perform, RegistryOperation.perform,
        Trace.gives_bind_iff] at hRun
      rcases hRun with ⟨_, _, hDone⟩
      rw [Trace.gives_pure_iff, Prod.mk.injEq] at hDone
      exact hDone.1 ▸ ⟨rfl, rfl, rfl⟩
  | _ =>
      simp only [perform, RegistryOperation.perform,
        Trace.gives_pure_iff, Prod.mk.injEq] at hRun
      exact hRun.1 ▸ ⟨rfl, rfl, rfl⟩

/- Settling what was done leaves the settings alone. -/
theorem refits_of_step
    {reports : List Report}
    (hStep : s.step operation = .ok (s', answer, reports)) :
    s.Refits s' operation := by
  rcases step_cases hStep with ⟨s₁, effects, hRun, rfl, _⟩
  rcases refits_of_perform ⟨effects, hRun⟩ with
    ⟨hConfig, hNumber, hRetired⟩
  exact ⟨hConfig, hNumber, hRetired⟩

------------------------------------------------------------
-- Former registries
------------------------------------------------------------

/- The former registries are kept under their numbers. -/
def Filed
    (s : Session) : Prop :=
  s.retired.length = s.registry.number

theorem Refits.filed
    (hRefits : s.Refits s' operation)
    (hFiled : s.Filed) :
    s'.Filed := by
  rw [Filed, hRefits.retired, hRefits.number, ← hFiled]
  cases operation.renews <;> simp

theorem History.filed
    {allowed : Session → Action → Prop}
    {s : Session}
    {earlier : List Session}
    (hHistory : History allowed (s :: earlier)) :
    s.Filed := by
  generalize hStates : s :: earlier = states at hHistory
  induction hHistory generalizing s earlier with
  | start config =>
      cases hStates
      rfl
  | step action s' hBefore hAllowed hAct ih =>
      cases hStates
      have hFiled := ih rfl
      cases action with
      | operation operation =>
          rcases step_of_act hAct with ⟨answer, reports, hStep⟩
          exact (refits_of_step hStep).filed hFiled
      | build call =>
          rcases run_of_act hAct with ⟨tree, made, _, rfl⟩
          exact hFiled

/-
  After an operation the registry in use has the settings that
  the operation gives it, and any other has those it had.
-/
theorem configOf_of_step
    (hFiled : s.Filed)
    {reports : List Report}
    (hStep : s.step operation = .ok (s', answer, reports))
    (number : Nat) :
    s'.configOf number =
      if number = s'.registry.number then operation.settings s
      else s.configOf number := by
  rcases refits_of_step hStep with ⟨hConfig, hNumber, hRetired⟩
  unfold configOf
  rw [hConfig]
  by_cases hNow : number = s'.registry.number
  · rw [if_pos hNow, if_pos hNow]
  · rw [if_neg hNow, if_neg hNow, hRetired]
    cases hRenews : operation.renews with
    | false =>
        have hOther : number ≠ s.registry.number := by
          simpa [hNumber, hRenews] using hNow
        rw [if_neg hOther]
        rfl
    | true =>
        by_cases hLast : number = s.registry.number
        · rw [if_pos hLast, if_pos rfl, hLast, ← hFiled]
          simp
        · have hEither :
              number < s.retired.length ∨
                s.retired.length + 1 ≤ number := by
            rw [hFiled]
            omega
          rw [if_neg hLast, if_pos rfl]
          rcases hEither with hBelow | hAbove
          · rw [List.getElem?_append_left hBelow]
          · rw [List.getElem?_eq_none (by simpa using hAbove),
              List.getElem?_eq_none (by omega)]

end Session

end MarkupMetrics
