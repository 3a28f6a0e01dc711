import MarkupMetrics.Condition.Evaluation
import MarkupMetrics.Proofs.Dom.Climb
import MarkupMetrics.Proofs.Dom.Sweep
import MarkupMetrics.Proofs.Text.Blank

/-
  This file proves that every condition can be decided: on a
  tree whose links agree its evaluation comes to an answer,
  and does no more than write notes.

  Key definitions include:
    * `Condition.Admits`

  Key theorems include:
    * `Tree.exists_notes_of_find`
    * `Condition.exists_evaluate`
    * `Condition.parse_trim`
-/

namespace MarkupMetrics

open Dom Text

------------------------------------------------------------
-- Looking at a page
------------------------------------------------------------

/- Reading a selector only writes notes. -/
theorem Selector.exists_read?
    (source : String) :
    ∃ list, (read? source).Tells list := by
  unfold read?
  cases hParse : parse source with
  | ok list => exact ⟨some list, Trace.tells_pure _⟩
  | error e =>
      exact
        ⟨none,
          (Trace.tells_note _ _ _).bind (Trace.tells_pure _)⟩

/-
  A search comes to an end, and the notes that it writes are
  the same for every scope.
-/
theorem Dom.Tree.exists_notes_of_find
    {t : Tree}
    (hLinked : t.Linked)
    (source : String) :
    ∃ notes : List Effect,
      (∀ e ∈ notes, e.isNote = true) ∧
        ∀ scope, ∃ found,
          t.find scope source = .done found notes := by
  rcases Selector.exists_read? source with
    ⟨read, notes, hRead, hNotes⟩
  refine ⟨notes, hNotes, fun scope => ?_⟩
  cases read with
  | none =>
      exact
        ⟨[],
          Trace.bind_eq_done_iff.mpr
            ⟨none, notes, [], hRead, rfl, by simp⟩⟩
  | some list =>
      rcases exists_descendants hLinked scope with
        ⟨below, hBelow⟩
      have hFound :
          Selector.findAll t scope list =
            .ok (below.filter (Selector.matchesList t list)) := by
        simp [Selector.findAll, hBelow]
      exact
        ⟨below.filter (Selector.matchesList t list),
          Trace.bind_eq_done_iff.mpr
            ⟨some list, notes, [], hRead,
              congrArg Trace.ofExcept hFound, by simp⟩⟩

/- Something is found below every id. -/
theorem Dom.Tree.exists_find
    {t : Tree}
    (hLinked : t.Linked)
    (scope : NodeId)
    (source : String) :
    ∃ found, (t.find scope source).Tells found := by
  rcases exists_notes_of_find hLinked source with
    ⟨notes, hNotes, hFind⟩
  rcases hFind scope with ⟨found, hDone⟩
  exact ⟨found, notes, hDone, hNotes⟩

/- A probe finds a value, or finds that there is none. -/
theorem Probe.exists_run
    {t : Tree}
    (hLinked : t.Linked)
    (p : Probe)
    (nodes : List NodeId)
    (argument : String) :
    ∃ value, p.run t nodes argument = .ok value := by
  cases p with
  | «attribute» => exact ⟨_, rfl⟩
  | data => exact ⟨_, rfl⟩
  | text =>
      rcases Tree.exists_textOfAll hLinked nodes with
        ⟨text, hText⟩
      cases hNone : nodes.isEmpty with
      | true => exact ⟨none, by simp [run, hNone]⟩
      | false => exact ⟨some text, by simp [run, hNone, hText]⟩

namespace Condition

/- The nodes that a condition looks at are found. -/
theorem exists_scope
    {t : Tree}
    (hLinked : t.Linked)
    (c : Condition)
    (target : NodeId) :
    ∃ nodes, (c.scope t target).Tells nodes := by
  unfold scope
  cases c.selector with
  | none => exact ⟨[target], Trace.tells_pure _⟩
  | some selector =>
      cases c.global with
      | true => exact Tree.exists_find hLinked 0 selector
      | false => exact Tree.exists_find hLinked target selector

/- Every condition holds or does not hold for a target. -/
theorem exists_evaluate
    {t : Tree}
    (hLinked : t.Linked)
    (c : Condition)
    (log : Origin)
    (target : NodeId) :
    ∃ holds, (c.evaluate log t target).Tells holds := by
  have hNoted :
      ∀ level message,
        (do
          Trace.note log level message
          return false : Trace Bool).Tells false :=
    fun level message =>
      (Trace.tells_note log level message).bind
        (Trace.tells_pure _)
  unfold evaluate
  cases Probe.ofMethod? c.method with
  | none => exact ⟨false, hNoted _ _⟩
  | some probe =>
      rcases c.exists_scope hLinked target with
        ⟨nodes, hScope⟩
      rcases probe.exists_run hLinked nodes c.left with
        ⟨found, hFound⟩
      have hProbe := Trace.tells_lift hFound
      cases hValue : found.filter (· != "") with
      | none =>
          refine ⟨false, hScope.bind (hProbe.bind ?_)⟩
          rw [hValue]
          exact hNoted _ _
      | some value =>
          cases hOperator : Operator.parse? c.operator with
          | none =>
              refine ⟨false, hScope.bind (hProbe.bind ?_)⟩
              rw [hValue]
              exact hNoted _ _
          | some op =>
              refine
                ⟨op.compare value c.right,
                  hScope.bind (hProbe.bind ?_)⟩
              rw [hValue]
              exact Trace.tells_pure _

------------------------------------------------------------
-- Texts of conditions
------------------------------------------------------------

/- Blanks around a condition do not count. -/
theorem parse_trim
    (text : String) :
    parse (String.ofList (trim text.toList)) =
      parse text := by
  unfold parse
  rw [String.toList_ofList, trim_trim]

/-
  Whether the text of a condition lets something happen for a
  node of a tree: there is no text, it is blank, or it stands
  for a condition that holds.
-/
def Admits
    (text : Option String)
    (log : Origin)
    (t : Tree)
    (node : NodeId) : Prop :=
  match text with
  | none => True
  | some text =>
      (∀ c ∈ text.toList, isBlank c = true) ∨
        ∃ c, parse text = .ok c ∧
          (c.evaluate log t node).Gives true

end Condition

end MarkupMetrics
