import MarkupMetrics.Proofs.Registry.Provenance
import MarkupMetrics.Proofs.Session.History
import Mathlib.Data.List.Basic

/-
  This file proves that a listener with the handler of a
  provider goes back to one action of a run, in which the
  provider was asked to build the handler.

  Key definitions include:
    * `Session.Bound`

  Key theorems include:
    * `Session.Becomes.attached`
    * `Session.History.bound`
-/

namespace MarkupMetrics

open Dom

------------------------------------------------------------
-- Operations
------------------------------------------------------------

/- The calls of a page attach recorders only. -/
theorem PageOperation.Outcome.recorder
    {page page' : Page}
    {operation : PageOperation}
    (hOutcome : operation.Outcome page page')
    {l : Listener Handler}
    (hMember : l ∈ page'.listeners) :
    l ∈ page.listeners ∨
      ∃ label, l.handler = .recorder label := by
  have hAttached :
      ∀ node event delegation label,
        l ∈ (page.attached node event delegation
            (.recorder label)).listeners →
          l ∈ page.listeners ∨
            ∃ label, l.handler = .recorder label := by
    intro node event delegation label hThere
    rw [Document.mem_attached_iff] at hThere
    rcases hThere with hOld | ⟨_, rfl⟩
    · exact Or.inl hOld
    · exact Or.inr ⟨label, rfl⟩
  cases operation with
  | remove node =>
      rcases hOutcome with ⟨tree, _, rfl⟩
      exact Or.inl (List.mem_of_mem_filter hMember)
  | bind node event label =>
      have hPage : page' = _ := hOutcome
      rw [hPage] at hMember
      exact hAttached _ _ _ _ hMember
  | delegate node selector event label =>
      have hPage : page' = _ := hOutcome
      rw [hPage] at hMember
      exact hAttached _ _ _ _ hMember
  | unbind node event listener =>
      have hPage : page' = _ := hOutcome
      rw [hPage] at hMember
      exact Or.inl (List.mem_of_mem_filter hMember)
  | undelegate node selector event listener =>
      have hPage : page' = _ := hOutcome
      rw [hPage] at hMember
      exact Or.inl (List.mem_of_mem_filter hMember)
  | _ =>
      rcases hOutcome with ⟨tree, rfl, _⟩
      exact Or.inl hMember

/- A registry attaches what its providers have built. -/
theorem RegistryOperation.Outcome.attached
    {s s' : Session}
    {operation : RegistryOperation}
    (hOutcome : operation.Outcome s s')
    {l : Listener Handler}
    (hMember : l ∈ s'.page.listeners) :
    l ∈ s.page.listeners ∨
      ∃ cx guard raw,
        s'.registry.Attached s'.page.tree l cx guard raw := by
  rcases hOutcome.scanned with ⟨only, page, r, hPage, hScan⟩
  rcases hPage with ⟨p, rfl⟩
  rcases Registry.attached_of_bindings hScan hMember with
    hOld | hNew
  · exact Or.inl (List.mem_of_mem_filter hOld)
  · exact Or.inr hNew

------------------------------------------------------------
-- Sessions
------------------------------------------------------------

namespace Session

/-
  Between two sessions a listener of a provider was attached,
  while the tree stayed the same.
-/
structure Bound
    (before after : Session)
    (l : Listener Handler)
    (cx : Context)
    (guard : Guard)
    (raw : RawHandler) : Prop where
  fresh : before.page.nextListener ≤ l.id
  given : l.id < after.page.nextListener
  still : after.page.tree = before.page.tree
  attached :
    after.registry.Attached after.page.tree l cx guard raw

/- A handler of a provider is an old one, or is attached. -/
theorem Becomes.attached
    {s s' : Session}
    {action : Action}
    (hBecomes : s.Becomes s' action)
    {l : Listener Handler}
    {cx : Context}
    {guard : Guard}
    {raw : RawHandler}
    (hMember : l ∈ s'.page.listeners)
    (hHandler : l.handler = .provided cx guard raw) :
    l ∈ s.page.listeners ∨
      s'.page.tree = s.page.tree ∧
        s'.registry.Attached s'.page.tree l cx guard raw := by
  cases action with
  | build call =>
      rcases hBecomes.2 with ⟨tree, hPage, _⟩
      rw [hPage] at hMember
      exact Or.inl hMember
  | operation operation =>
  cases operation with
  | language caller operation =>
      exact Or.inl (hBecomes.2 ▸ hMember)
  | page operation =>
      rcases hBecomes.2.recorder hMember with
        hOld | ⟨label, hRecorder⟩
      · exact Or.inl hOld
      · rw [hHandler] at hRecorder
        cases hRecorder
  | registry operation =>
      rcases RegistryOperation.Outcome.attached hBecomes
          hMember with hOld | ⟨cx', guard', raw', hAttached⟩
      · exact Or.inl hOld
      · have hSame := hHandler.symm.trans hAttached.handler
        cases hSame
        exact
          Or.inr
            ⟨(RegistryOperation.Outcome.page hBecomes).1,
              hAttached⟩

/-
  Every listener of a provider was attached by one of the
  actions of the run.
-/
theorem History.bound
    {allowed : Session → Action → Prop}
    {s : Session}
    {earlier : List Session}
    (hHistory : History allowed (s :: earlier))
    {l : Listener Handler}
    {cx : Context}
    {guard : Guard}
    {raw : RawHandler}
    (hMember : l ∈ s.page.listeners)
    (hHandler : l.handler = .provided cx guard raw) :
    ∃ before after older,
      (after :: before :: older) <:+ (s :: earlier) ∧
        Bound before after l cx guard raw := by
  generalize hStates : s :: earlier = states at hHistory
  induction hHistory generalizing s earlier with
  | start config =>
      cases hStates
      cases hMember
  | step action s' hBefore hAllowed hAct ih =>
      rename_i r older
      cases hStates
      have hBecomes := (becomes_of_act hAct).1
      have hNumbered := hBefore.numbered r (by simp)
      have hOld :
          l ∈ r.page.listeners →
            ∃ before after earliest,
              (after :: before :: earliest) <:+
                  (s' :: r :: older) ∧
                Bound before after l cx guard raw := by
        intro hThere
        rcases ih hThere rfl with
          ⟨before, after, earliest, hSuffix, hBound⟩
        exact
          ⟨before, after, earliest,
            hSuffix.trans (List.suffix_cons _ _), hBound⟩
      by_cases hThere : l ∈ r.page.listeners
      · exact hOld hThere
      · rcases hBecomes.attached hMember hHandler with
          hStill | ⟨hTree, hAttached⟩
        · exact hOld hStill
        · have hFresh : ¬ l.id < r.page.nextListener := by
            intro hBelow
            exact
              hThere
                ((hBecomes.succeeds.mem_old_iff hNumbered
                  hMember).mp hBelow)
          have hLater := hNumbered.succeeds hBecomes.succeeds
          exact
            ⟨r, s', older, List.suffix_rfl,
              Nat.le_of_not_lt hFresh,
              hLater.below l hMember, hTree, hAttached⟩

end Session

end MarkupMetrics
