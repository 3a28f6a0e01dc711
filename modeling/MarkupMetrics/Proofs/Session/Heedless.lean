import MarkupMetrics.Proofs.Document.Dispatch
import MarkupMetrics.Proofs.Registry.Switches
import MarkupMetrics.Proofs.Session.Custody
import MarkupMetrics.Proofs.Session.Provenance

/-
  This file says what it is for a session not to heed whether
  diagnostics are on, and proves that a session keeps to it
  while heedless providers are brought in.

  Of all that runs, only what is foreign could look at the
  switch: the builders of providers, and the raw handlers that
  they have built.

  Key definitions include:
    * `Operation.Heedless`
    * `Session.Heedless`

  Key theorems include:
    * `Session.Heedless.step`
    * `Session.Heedless.dispatch`
-/

namespace MarkupMetrics

open Dom

/- An operation brings in no provider that heeds diagnostics. -/
def Operation.Heedless : Operation → Prop
  | .registry (.addProvider provider _) => provider.Heedless
  | _ => True

namespace Session

/-
  Neither the providers in use heed diagnostics, nor the
  handlers that are attached.
-/
structure Heedless
    (s : Session) : Prop where
  providers : s.registry.Heedless
  handlers : ∀ l ∈ s.page.listeners, l.handler.Heedless

variable {s s' : Session}

/- The providers are those that were in use, or are brought in. -/
theorem Becomes.heedless
    {operation : Operation}
    (hBecomes : s.Becomes s' (.operation operation))
    (hProviders : s.registry.Heedless)
    (hOperation : operation.Heedless) :
    s'.registry.Heedless := by
  have hOld :
      ∀ m ∈ s.registry.members, m.1.Heedless := by
    intro m hMember
    rcases List.mem_map.mp hMember with ⟨e, hEntry, rfl⟩
    exact hProviders e hEntry
  have hNew :
      ∀ m ∈ s'.registry.members, m.1.Heedless := by
    rcases hBecomes.members with
      hFewer |
        ⟨provider, _, kept, hAction, hKept, _, hMembers, _⟩
    · intro m hMember
      exact hOld m (hFewer.subset hMember)
    · cases hAction
      intro m hMember
      rw [hMembers, List.mem_append, List.mem_singleton]
        at hMember
      rcases hMember with hThere | rfl
      · exact hOld m (hKept.subset hThere)
      · exact hOperation
  intro e hEntry
  exact hNew (e.provider, e.number) (List.mem_map_of_mem hEntry)

/- What was attached was built by one of them. -/
theorem Becomes.heedless_handlers
    {operation : Operation}
    (hBecomes : s.Becomes s' (.operation operation))
    (hHeedless : s.Heedless)
    (hProviders : s'.registry.Heedless) :
    ∀ l ∈ s'.page.listeners, l.handler.Heedless := by
  intro l hMember
  cases hHandler : l.handler with
  | recorder label => trivial
  | provided cx guard raw =>
      rcases hBecomes.attached hMember hHandler with
        hOld | ⟨_, hAttached⟩
      · rw [← hHandler]
        exact hHeedless.handlers l hOld
      · rcases hAttached.recorded with
          ⟨e, hEntry, _, _, hBuilds⟩
        exact (hProviders e hEntry).raw hBuilds

namespace Heedless

/- A step keeps a session heedless. -/
theorem step
    (hHeedless : s.Heedless)
    {operation : Operation}
    (hOperation : operation.Heedless)
    {answer : Answer}
    {reports : List Report}
    (hStep : s.step operation = .ok (s', answer, reports)) :
    s'.Heedless := by
  have hAct : s.act (.operation operation) = .ok s' := by
    rw [act, hStep]
    rfl
  have hBecomes := (becomes_of_act hAct).1
  have hProviders :=
    hBecomes.heedless hHeedless.providers hOperation
  exact
    ⟨hProviders,
      hBecomes.heedless_handlers hHeedless hProviders⟩

/- An event does the same whatever is switched on. -/
theorem dispatch
    (hHeedless : s.Heedless)
    (debug debug' : Nat → Bool)
    (target : NodeId)
    (event : String) :
    s.page.dispatch (Handler.run debug) target event =
      s.page.dispatch (Handler.run debug') target event := by
  unfold Document.dispatch
  cases hCalls : s.page.calls target event with
  | error why => rfl
  | ok calls =>
      have hSame :
          ∀ c ∈ calls,
            c.listener.handler.run debug s.page.tree
                ⟨event, target, c.current⟩ =
              c.listener.handler.run debug' s.page.tree
                ⟨event, target, c.current⟩ := by
        intro c hMember
        exact
          (hHeedless.handlers c.listener
            (Document.listener_of_calls hCalls hMember)).run
              debug debug' _ _
      simp only [Trace.lift_ok, pure_bind,
        Trace.forM_congr hSame]

end Heedless

end Session

end MarkupMetrics
