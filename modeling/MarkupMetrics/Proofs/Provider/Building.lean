import MarkupMetrics.Proofs.Outcome
import MarkupMetrics.Provider.Handler

/-
  This file proves how the handler of a provider for an
  element comes about: its builder makes the raw handler, and
  the condition of the element makes the guard.

  Key definitions include:
    * `Provider.Builds`

  Key theorems include:
    * `Provider.buildHandler_gives`
-/

namespace MarkupMetrics

open Dom

namespace Provider

/-
  The builder for the method that an element declares gives
  the raw handler, with the page and the diagnostics as they
  are then.
-/
def Builds
    (p : Provider)
    (cx : Context)
    (debug : Bool)
    (t : Tree)
    (element : NodeId)
    (raw : RawHandler) : Prop :=
  ∃ method builder,
    p.declaredMethod? t element = some method ∧
      p.methods.get? method = some builder ∧
        (builder cx debug t element).Gives (some raw)

/- A handler is a raw handler behind a guard. -/
theorem buildHandler_gives
    {p : Provider}
    {cx : Context}
    {debug : Bool}
    {t : Tree}
    {element : NodeId}
    {condition : Option String}
    {h : Handler}
    (hRun :
      (p.buildHandler cx debug t element condition).Gives
        (some h)) :
    ∃ guard raw,
      h = .provided cx guard raw ∧
        p.Builds cx debug t element raw ∧
          (Guard.ofText cx.origin condition).Gives guard := by
  unfold buildHandler at hRun
  cases hMethod : p.declaredMethod? t element with
  | none => simp [hMethod] at hRun
  | some method =>
      cases hBuilder : p.methods.get? method with
      | none =>
          simp only [hMethod, hBuilder, Context.note,
            Trace.gives_note_bind_iff, Trace.gives_pure_iff]
            at hRun
          cases hRun
      | some builder =>
          simp only [hMethod, hBuilder] at hRun
          rcases Trace.gives_bind_iff.mp hRun with
            ⟨built, hBuilt, hRest⟩
          cases built with
          | none => simp at hRest
          | some raw =>
              rcases Trace.gives_bind_iff.mp hRest with
                ⟨guard, hGuard, hDone⟩
              rw [Trace.gives_pure_iff, Option.some.injEq]
                at hDone
              exact
                ⟨guard, raw, hDone.symm,
                  ⟨method, builder, hMethod, hBuilder, hBuilt⟩,
                  hGuard⟩

end Provider

end MarkupMetrics
