import MarkupMetrics.Proofs.Condition.Evaluation
import MarkupMetrics.Provider.Handler

/-
  This file proves when the handler of a provider runs.

  A guard that was made from the text of a condition decides
  as this text says, on whatever tree and for whatever node it
  is asked.  The raw handler behind it runs if the guard lets
  it, and nothing but notes is written otherwise.

  Key theorems include:
    * `Guard.ofText_gives`
    * `Guard.passes_iff_admits`
    * `Handler.run_admitted`
    * `Handler.run_denied`
-/

namespace MarkupMetrics

open Dom Text

------------------------------------------------------------
-- Guards
------------------------------------------------------------

namespace Guard

/-
  A blank text makes no demand, a condition is kept as it was
  read, and what is no condition lets nothing through.
-/
theorem ofText_gives
    {log : Origin}
    {text : String}
    {guard : Guard}
    (hRun : (ofText log (some text)).Gives guard) :
    ((∀ c ∈ text.toList, isBlank c = true) ∧
        guard = .always) ∨
      (¬ ∀ c ∈ text.toList, isBlank c = true) ∧
        ((∃ c, Condition.parse text = .ok c ∧
            guard = .when c) ∨
          (∃ e, Condition.parse text = .error e ∧
            guard = .never)) := by
  unfold ofText at hRun
  rw [Option.getD_some] at hRun
  by_cases hBlank : trim text.toList = []
  · refine Or.inl ⟨trim_eq_nil_iff.mp hBlank, ?_⟩
    simp only [hBlank, String.ofList_nil, if_true,
      Trace.gives_pure_iff] at hRun
    exact hRun.symm
  · have hSome :
        String.ofList (trim text.toList) ≠ "" := by
      intro hNone
      apply hBlank
      simpa using congrArg String.toList hNone
    refine
      Or.inr ⟨fun hAll => hBlank (trim_eq_nil_iff.mpr hAll), ?_⟩
    simp only [hSome, if_false, Condition.read?,
      Condition.parse_trim] at hRun
    cases hParse : Condition.parse text with
    | ok c =>
        simp only [hParse, pure_bind, Trace.gives_pure_iff]
          at hRun
        exact Or.inl ⟨c, rfl, hRun.symm⟩
    | error e =>
        simp only [hParse, bind_assoc, pure_bind,
          Trace.gives_note_bind_iff, Trace.gives_pure_iff]
          at hRun
        exact Or.inr ⟨e, rfl, hRun.symm⟩

theorem eq_always_of_ofText_none
    {log : Origin}
    {guard : Guard}
    (hRun : (ofText log none).Gives guard) :
    guard = .always := by
  have hBlank : trim ((none : Option String).getD "").toList =
      [] := rfl
  simp only [ofText, hBlank, String.ofList_nil, if_true,
    Trace.gives_pure_iff] at hRun
  exact hRun.symm

/-
  A guard passes where the text that it was made from admits,
  and asking it only writes notes.
-/
theorem passes_iff_admits
    {t : Tree}
    {log : Origin}
    {text : Option String}
    {guard : Guard}
    (hLinked : t.Linked)
    (hRun : (ofText log text).Gives guard)
    (node : NodeId) :
    ∃ pass,
      (guard.passes log t node).Tells pass ∧
        (pass = true ↔ Condition.Admits text log t node) := by
  cases text with
  | none =>
      rw [eq_always_of_ofText_none hRun]
      exact
        ⟨true, Trace.tells_pure _, iff_of_true rfl trivial⟩
  | some text =>
      rcases ofText_gives hRun with
        ⟨hBlank, rfl⟩ | ⟨hSigns, ⟨c, hParse, rfl⟩ |
          ⟨e, hParse, rfl⟩⟩
      · exact
          ⟨true, Trace.tells_pure _,
            iff_of_true rfl (Or.inl hBlank)⟩
      · rcases c.exists_evaluate hLinked log node with
          ⟨holds, hHolds⟩
        refine ⟨holds, hHolds, ?_⟩
        constructor
        · rintro rfl
          exact Or.inr ⟨c, hParse, hHolds.gives⟩
        · rintro (hBlank | ⟨c', hParse', hTrue⟩)
          · exact (hSigns hBlank).elim
          · rw [hParse, Except.ok.injEq] at hParse'
            subst hParse'
            exact hHolds.gives.unique hTrue
      · refine ⟨false, Trace.tells_pure _, ?_⟩
        refine iff_of_false Bool.false_ne_true ?_
        rintro (hBlank | ⟨c', hParse', _⟩)
        · exact hSigns hBlank
        · rw [hParse] at hParse'
          cases hParse'

end Guard

------------------------------------------------------------
-- Handlers
------------------------------------------------------------

namespace Handler

/- A guard that passes lets the raw handler run. -/
theorem run_admitted
    (debug : Nat → Bool)
    {t : Tree}
    {event : PageEvent}
    {cx : Context}
    {guard : Guard}
    {raw : RawHandler}
    (hPass :
      (guard.passes cx.origin t event.current).Tells true) :
    ∃ notes,
      (∀ e ∈ notes, e.isNote = true) ∧
        (provided cx guard raw).run debug t event =
          Trace.after notes
            (raw (debug cx.registry) t event) := by
  rcases hPass with ⟨notes, hDone, hNotes⟩
  refine ⟨notes, hNotes, ?_⟩
  rw [run, hDone]
  rfl

/- A guard that does not pass keeps it from running. -/
theorem run_denied
    (debug : Nat → Bool)
    {t : Tree}
    {event : PageEvent}
    {cx : Context}
    {guard : Guard}
    {raw : RawHandler}
    (hPass :
      (guard.passes cx.origin t event.current).Tells false) :
    ((provided cx guard raw).run debug t event).Tells () :=
  hPass.bind (Trace.tells_note _ _ _)

end Handler

end MarkupMetrics
