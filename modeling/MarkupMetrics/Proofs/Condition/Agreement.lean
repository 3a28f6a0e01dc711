import MarkupMetrics.Extractor.Value
import MarkupMetrics.Proofs.Condition.Evaluation
import MarkupMetrics.Proofs.Condition.Grammar
import MarkupMetrics.Proofs.Extractor.Grammar
import Mathlib

/-
  This file proves that conditions and extractors agree: a
  condition holds for a node exactly if the extractor with the
  same selector and the same argument reads a value that is
  not empty and compares as the condition asks.

  Key definitions include:
    * `Probe.reading`
    * `Condition.textFor`
    * `Extractor.textFor`
    * `Operator.accepts`

  Key theorems include:
    * `Condition.parse_textFor`
    * `Extractor.written_textFor`
    * `Condition.holds_iff_extracted`
-/

namespace MarkupMetrics

open Dom Text

------------------------------------------------------------
-- Texts
------------------------------------------------------------

namespace Probe

/- The method that stands for a probe. -/
def method : Probe → String
  | .attribute => "attr"
  | .data => "data"
  | .text => "text"

/- What an extractor reads where a probe looks. -/
def reading
    (argument : String) : Probe → Reading
  | .attribute => .attribute argument
  | .data => .attribute ("data-" ++ argument)
  | .text => .text

theorem ofMethod?_method
    (p : Probe) :
    ofMethod? p.method = some p := by
  cases p <;> rfl

end Probe

/-
  An operand of a condition is one word without an opening
  parenthesis.
-/
structure IsOperand
    (s : String) : Prop where
  nonempty : s ≠ ""
  solid : NoBlank s.toList
  closed : '(' ∉ s.toList

/- A condition behind the text of a selector. -/
def Condition.textFor
    (selector : String)
    (p : Probe)
    (argument : String)
    (op : Operator)
    (expected : String) : String :=
  selector ++ " " ++ p.method ++ "(" ++ argument ++ " " ++
    op.render ++ " " ++ expected ++ ")"

/- The extractor that looks where such a condition looks. -/
def Extractor.textFor
    (selector : String)
    (p : Probe)
    (argument : String) : String :=
  selector ++ " " ++ (p.reading argument).render

/-
  Whether a value is there, is not empty, and compares with
  the expected one as an operator asks.
-/
def Operator.accepts
    (op : Operator)
    (expected : String)
    (found : Option String) : Bool :=
  found.any fun value => value != "" && op.compare value expected

/- An empty value is dropped before any comparison. -/
theorem Operator.accepts_eq
    (op : Operator)
    (expected : String)
    (found : Option String) :
    op.accepts expected found =
      match found.filter (· != "") with
      | none => false
      | some value => op.compare value expected := by
  cases found with
  | none => rfl
  | some value =>
      cases hSome : value != "" with
      | false => simp [accepts, Option.filter, hSome]
      | true => simp [accepts, Option.filter, hSome]

------------------------------------------------------------
-- Parsing the two texts
------------------------------------------------------------

/- Every operator is written with a word of its own. -/
theorem Operator.isOperand_render
    (op : Operator) :
    IsOperand op.render ∧ parse? op.render = some op := by
  cases op <;>
    exact ⟨⟨by decide, List.all_iff_forall_prop.mp (by decide),
      by decide⟩, rfl⟩

theorem IsOperand.toList_ne_nil
    {s : String}
    (hOperand : IsOperand s) :
    s.toList ≠ [] := by
  simpa using hOperand.nonempty

/-
  A method behind the text of a selector makes the head of a
  clause, whether or not there is a marker.
-/
theorem Condition.exists_head
    {front selector gap method : List Char}
    {global : Bool}
    (hVisible : front ≠ [])
    (hMarked : Marked front global selector)
    (hTrimmed : Trimmed selector)
    (hApart : gap ≠ [])
    (hBlank : AllBlank gap)
    (hSome : method ≠ [])
    (hSolid : NoBlank method)
    (tail : List Char) :
    ∃ head,
      Marked (front ++ gap ++ (method ++ tail)) global
        (head ++ tail) ∧
        Head head (selectorText? selector)
          (String.ofList method) := by
  rcases Decidable.em (selector = []) with rfl | hSelector
  · refine ⟨method, ?_, .alone hSome hSolid⟩
    cases hMarked with
    | plain => exact absurd rfl hVisible
    | @marked inner _ blank _ =>
        have hGap : AllBlank (inner ++ gap) := fun c hMember =>
          (List.mem_append.mp hMember).elim (blank c) (hBlank c)
        have hText :
            '!' :: (inner ++ []) ++ gap ++ (method ++ tail) =
              '!' :: ((inner ++ gap) ++ (method ++ tail)) := by
          simp
        rw [hText]
        refine .marked hGap fun c hC => hSolid c ?_
        rcases List.exists_cons_of_ne_nil hSome with
          ⟨d, rest, rfl⟩
        cases hC
        simp
  · refine
      ⟨selector ++ gap ++ method, ?_, ?_⟩
    · rcases List.exists_cons_of_ne_nil hSelector with
        ⟨d, rest, rfl⟩
      cases hMarked with
      | plain unmarked =>
          rw [List.append_assoc _ method tail]
          exact .plain (by simpa using unmarked)
      | @marked inner _ blank start =>
          have hText :
              '!' :: (inner ++ d :: rest) ++ gap ++
                  (method ++ tail) =
                '!' :: (inner ++ (d :: rest ++ gap ++ method ++
                  tail)) := by
            simp
          rw [hText]
          refine .marked blank fun c hC => start c ?_
          simpa using hC
    · rw [selectorText?, if_neg hSelector]
      exact
        .behind hSelector hTrimmed hApart hBlank hSome hSolid

theorem Probe.solid_method
    (p : Probe) :
    p.method.toList ≠ [] ∧ NoBlank p.method.toList ∧
      p.method.toList.head? ≠ some '!' := by
  cases p <;>
    exact ⟨by decide, List.all_iff_forall_prop.mp (by decide),
      by decide⟩

/- A clause behind a method has no blanks around it. -/
theorem Condition.trimmed_clause
    {method inner : List Char}
    (hSome : method ≠ [])
    (hSolid : NoBlank method)
    (hInner : '(' ∉ inner) :
    Trimmed (method ++ '(' :: (inner ++ [')'])) := by
  rcases List.exists_cons_of_ne_nil hSome with ⟨c, rest, rfl⟩
  constructor
  · intro d hD
    cases hD
    exact hSolid c List.mem_cons_self
  · have hClause : Clause _ (c :: rest) inner := ⟨rfl, hInner⟩
    exact hClause.noBlankLast []

theorem Condition.parse_textFor
    {argument expected : String}
    (hArgument : IsOperand argument)
    (hExpected : IsOperand expected)
    (selector : String)
    (p : Probe)
    (op : Operator) :
    Condition.parse
        (Condition.textFor selector p argument op expected) =
      .ok
        { method := p.method
          left := argument
          right := expected
          operator := op.render
          selector :=
            selectorText? (splitMarker (trim selector.toList)).2
          global := (splitMarker (trim selector.toList)).1 } := by
  rcases op.isOperand_render with ⟨hOperator, _⟩
  let inner : List Char :=
    argument.toList ++ ' ' ::
      (op.render.toList ++ ' ' :: expected.toList)
  let clause : List Char :=
    p.method.toList ++ '(' :: (inner ++ [')'])
  have hInner : '(' ∉ inner := by
    simp [inner, hArgument.closed, hOperator.closed,
      hExpected.closed]
  have hWords :
      Words inner
        [argument.toList, op.render.toList, expected.toList] :=
    .cons_space hArgument.toList_ne_nil hArgument.solid
      (.cons_space hOperator.toList_ne_nil hOperator.solid
        (.single hExpected.toList_ne_nil hExpected.solid))
  rcases p.solid_method with ⟨hSome, hSolid, hUnmarked⟩
  have hClause : Trimmed clause :=
    trimmed_clause hSome hSolid hInner
  have hText :
      (Condition.textFor selector p argument op
          expected).toList =
        selector.toList ++ ' ' :: clause := by
    simp [Condition.textFor, clause, inner]
  rcases exists_trim_append selector.toList
      (by simp [clause]) hClause with
    ⟨gap, hApart, hBlank, hTrim⟩
  apply parse_of_written
  rw [hText, hTrim]
  split
  · rename_i hNone
    have hMarked : Marked clause false clause := by
      refine .plain ?_
      rcases List.exists_cons_of_ne_nil hSome with ⟨c, rest, hCons⟩
      rw [hCons] at hUnmarked
      simpa [clause, hCons] using hUnmarked
    have hWritten : Written _ _ :=
      .clause hMarked ⟨rfl, hInner⟩ (.alone hSome hSolid) hWords
    rw [hNone]
    simpa [String.ofList_toList, splitMarker, selectorText?]
      using hWritten
  · rename_i hVisible
    rcases marked_splitMarker (trimmed_trim selector.toList) with
      ⟨hMarked, hTrimmed⟩
    rcases exists_head hVisible hMarked hTrimmed hApart hBlank
        hSome hSolid ('(' :: (inner ++ [')'])) with
      ⟨head, hBehind, hHead⟩
    have hWritten : Written _ _ :=
      .clause hBehind ⟨rfl, hInner⟩ hHead hWords
    simpa [String.ofList_toList] using hWritten

theorem Probe.written_reading
    {argument : String}
    (hArgument : IsOperand argument)
    (p : Probe) :
    (p.reading argument).Written
        (p.reading argument).render.toList ∧
      NoBlank (p.reading argument).render.toList := by
  have hSolid (front : String)
      (hFront : NoBlank front.toList) :
      NoBlank (front.toList ++ argument.toList ++ [')']) := by
    intro c hMember
    simp only [List.mem_append, List.mem_singleton] at hMember
    rcases hMember with (hOld | hNew) | rfl
    · exact hFront c hOld
    · exact hArgument.solid c hNew
    · decide
  cases p with
  | «attribute» =>
      refine
        ⟨⟨hArgument.nonempty, by simp [reading, Reading.render]⟩,
          ?_⟩
      simpa [reading, Reading.render] using
        hSolid "attr(" (List.all_iff_forall_prop.mp (by decide))
  | data =>
      refine
        ⟨⟨by simp [hArgument.nonempty],
          by simp [reading, Reading.render]⟩, ?_⟩
      simpa [reading, Reading.render] using
        hSolid "attr(data-" (List.all_iff_forall_prop.mp (by decide))
  | text =>
      refine ⟨rfl, ?_⟩
      change NoBlank "text".toList
      simpa [NoBlank] using (by decide)

/- The extractor is written with the same selector and marker. -/
theorem Extractor.written_textFor
    {argument : String}
    (hArgument : IsOperand argument)
    (selector : String)
    (p : Probe) :
    Extractor.Written
      (trim (Extractor.textFor selector p argument).toList)
      ⟨String.ofList (splitMarker (trim selector.toList)).2,
        p.reading argument,
        (splitMarker (trim selector.toList)).1⟩ := by
  rcases p.written_reading hArgument with ⟨hReads, hSolid⟩
  have hText :
      (Extractor.textFor selector p argument).toList =
        selector.toList ++ ' ' ::
          (p.reading argument).render.toList := by
    simp [Extractor.textFor]
  rcases exists_trim_append selector.toList hReads.ne_nil
      hSolid.trimmed with
    ⟨gap, hApart, hBlank, hTrim⟩
  rw [hText, hTrim]
  split
  · rename_i hNone
    rw [hNone]
    exact .alone hSolid hReads
  · rename_i hVisible
    have hTrimmed := trimmed_trim selector.toList
    rcases marked_splitMarker hTrimmed with
      ⟨hMarked, hSelector⟩
    exact
      .behind (not_allBlank_of_noBlankFirst hTrimmed.1 hVisible)
        hMarked hSelector hApart hBlank hSolid hReads

------------------------------------------------------------
-- Looking at a page
------------------------------------------------------------

/- Both look at the same nodes. -/
theorem Condition.scope_eq_select
    {c : Condition}
    {x : Extractor}
    {selector : List Char}
    (hCondition : c.selector = selectorText? selector)
    (hExtractor : x.selector = String.ofList selector)
    (hGlobal : c.global = x.global)
    (t : Tree)
    (target : NodeId) :
    c.scope t target = x.select t (some target) := by
  unfold Condition.scope Extractor.select
  rw [hCondition, hExtractor, hGlobal]
  cases selector with
  | nil => rfl
  | cons d rest => simp [selectorText?]

/-
  What a reading gives for the nodes that an extractor has
  selected.
-/
def Reading.fetch
    (t : Tree)
    (nodes : List NodeId) :
    Reading → Except Fault (Option String)
  | .text => some <$> t.textOfAll nodes
  | .attribute name => .ok (nodes.head?.bind (t.attr? · name))

theorem Extractor.extract_gives_iff
    {x : Extractor}
    {t : Tree}
    {scope : Option NodeId}
    {found : Option String} :
    (x.extract t scope).Gives found ↔
      ∃ nodes, (x.select t scope).Gives nodes ∧
        x.reading.fetch t nodes = .ok found := by
  rcases x with ⟨selector, reading, global⟩
  unfold Extractor.extract
  simp only [Trace.gives_bind_iff]
  cases reading with
  | «attribute» name =>
      simp only [Trace.gives_pure_iff, Reading.fetch,
        Except.ok.injEq]
  | text =>
      simp only [Trace.gives_bind_iff, Trace.gives_lift_iff,
        Trace.gives_pure_iff, Reading.fetch]
      refine exists_congr fun nodes => and_congr_right' ?_
      cases t.textOfAll nodes <;> simp

/-
  A probe finds what its extractor reads, except that without
  nodes there is no text where the extractor reads an empty
  one.  Neither is accepted.
-/
theorem Probe.accepts_run_iff
    {t : Tree}
    {nodes : List NodeId}
    {argument expected : String}
    {op : Operator}
    {holds : Bool}
    (p : Probe) :
    (∃ value, p.run t nodes argument = .ok value ∧
      holds = op.accepts expected value) ↔
      ∃ found, (p.reading argument).fetch t nodes = .ok found ∧
        holds = op.accepts expected found := by
  cases p with
  | «attribute» => exact Iff.rfl
  | data => exact Iff.rfl
  | text =>
      cases nodes with
      | cons node nodes => exact Iff.rfl
      | nil =>
          have hRead :
              (reading argument .text).fetch t [] =
                .ok (some "") :=
            rfl
          have hRun : run .text t [] argument = .ok none := rfl
          simp [hRead, hRun, Operator.accepts]

theorem Condition.evaluate_gives_iff
    {c : Condition}
    {p : Probe}
    {op : Operator}
    (hMethod : Probe.ofMethod? c.method = some p)
    (hOperator : Operator.parse? c.operator = some op)
    {log : Origin}
    {t : Tree}
    {target : NodeId}
    {holds : Bool} :
    (c.evaluate log t target).Gives holds ↔
      ∃ nodes, (c.scope t target).Gives nodes ∧
        ∃ value, p.run t nodes c.left = .ok value ∧
          holds = op.accepts c.right value := by
  unfold Condition.evaluate
  simp only [hMethod, hOperator, Trace.gives_bind_iff,
    Trace.gives_lift_iff]
  refine exists_congr fun nodes => and_congr_right' ?_
  refine exists_congr fun value => and_congr_right' ?_
  rw [op.accepts_eq]
  cases value.filter (· != "") with
  | none =>
      simp only [Trace.gives_note_bind_iff,
        Trace.gives_pure_iff, eq_comm]
  | some w => simp only [Trace.gives_pure_iff, eq_comm]

theorem extractValue_gives_iff
    {value : String}
    {x : Extractor}
    (hWritten : Extractor.Written (trim value.toList) x)
    {log : Origin}
    {t : Tree}
    {scope : Option NodeId}
    {found : Option String} :
    (extractValue log t scope value).Gives found ↔
      (x.extract t scope).Gives found := by
  have hParse := Extractor.parse_of_written hWritten
  unfold extractValue Extractor.read?
  simp only [Extractor.literal?_of_written hWritten, hParse,
    pure_bind]

/- Both come to the same answer, if they come to one. -/
theorem Condition.gives_iff_accepts
    {argument expected : String}
    (hArgument : IsOperand argument)
    (hExpected : IsOperand expected)
    (selector : String)
    (p : Probe)
    (op : Operator)
    {c : Condition}
    (hParse :
      Condition.parse
          (Condition.textFor selector p argument op expected) =
        .ok c)
    (log other : Origin)
    (t : Tree)
    (target : NodeId)
    (holds : Bool) :
    (c.evaluate log t target).Gives holds ↔
      ∃ found,
        (extractValue other t (some target)
            (Extractor.textFor selector p argument)).Gives found ∧
          holds = op.accepts expected found := by
  rw [parse_textFor hArgument hExpected] at hParse
  cases hParse
  rw [evaluate_gives_iff p.ofMethod?_method
    op.isOperand_render.2]
  have hWritten :=
    Extractor.written_textFor hArgument selector p
  have hScope :=
    scope_eq_select
      (c :=
        { method := p.method, left := argument
          right := expected, operator := op.render
          selector :=
            selectorText? (splitMarker (trim selector.toList)).2
          global := (splitMarker (trim selector.toList)).1 })
      (x :=
        ⟨String.ofList (splitMarker (trim selector.toList)).2,
          p.reading argument,
          (splitMarker (trim selector.toList)).1⟩)
      rfl rfl rfl t target
  simp only [extractValue_gives_iff hWritten,
    Extractor.extract_gives_iff, hScope, p.accepts_run_iff]
  constructor
  · rintro ⟨nodes, hNodes, found, hFound, hHolds⟩
    exact ⟨found, ⟨nodes, hNodes, hFound⟩, hHolds⟩
  · rintro ⟨found, ⟨nodes, hNodes, hFound⟩, hHolds⟩
    exact ⟨nodes, hNodes, found, hFound, hHolds⟩

------------------------------------------------------------
-- Agreement
------------------------------------------------------------

/-
  Behind any text of a selector, a condition is one, and holds
  exactly if the extractor reads a value that is there, is not
  empty, and compares as the condition asks.  It does not hold
  exactly if there is no such value, also under an operator
  that negates.  On a tree whose links agree one of the two is
  the case.
-/
theorem Condition.holds_iff_extracted
    {argument expected : String}
    (hArgument : IsOperand argument)
    (hExpected : IsOperand expected)
    (selector : String)
    (p : Probe)
    (op : Operator)
    (log other : Origin)
    (t : Tree)
    (target : NodeId) :
    ∃ c,
      Condition.parse
          (Condition.textFor selector p argument op expected) =
        .ok c ∧
      ((c.evaluate log t target).Gives true ↔
        ∃ value,
          (extractValue other t (some target)
              (Extractor.textFor selector p argument)).Gives
            (some value) ∧
          value ≠ "" ∧ op.compare value expected = true) ∧
      ((c.evaluate log t target).Gives false ↔
        ∃ found,
          (extractValue other t (some target)
              (Extractor.textFor selector p argument)).Gives
            found ∧
          ∀ value, found = some value → value ≠ "" →
            op.compare value expected = false) ∧
      (t.Linked →
        ∃ holds, (c.evaluate log t target).Gives holds) := by
  have hParse := parse_textFor hArgument hExpected selector p op
  refine ⟨_, hParse, ?_, ?_, ?_⟩
  · rw [gives_iff_accepts hArgument hExpected selector p op
      hParse log other]
    constructor
    · rintro ⟨found, hFound, hHolds⟩
      cases found with
      | none => simp [Operator.accepts] at hHolds
      | some value =>
          simp only [Operator.accepts, Option.any_some,
            Bool.true_eq, Bool.and_eq_true, bne_iff_ne] at hHolds
          exact ⟨value, hFound, hHolds⟩
    · rintro ⟨value, hFound, hSome, hCompare⟩
      exact
        ⟨some value, hFound, by
          simp [Operator.accepts, hSome, hCompare]⟩
  · rw [gives_iff_accepts hArgument hExpected selector p op
      hParse log other]
    refine exists_congr fun found => and_congr_right' ?_
    cases found with
    | none => simp [Operator.accepts]
    | some value =>
        have hAccepts :
            op.accepts expected (some value) =
              (value != "" && op.compare value expected) := rfl
        rw [hAccepts]
        constructor
        · rintro hHolds _ ⟨⟩ hSome
          simpa [hSome] using hHolds.symm
        · intro hFails
          rw [eq_comm, Bool.and_eq_false_imp]
          intro hSome
          exact hFails value rfl (by simpa using hSome)
  · intro hLinked
    rcases exists_evaluate hLinked _ log target with
      ⟨holds, hTells⟩
    exact ⟨holds, hTells.gives⟩

/-
  A marker alone selects nothing: the condition and the
  extractor look at the target.
-/
theorem Condition.holds_of_marker_alone :
    let t : Tree :=
      ⟨#[some { id := 0, children := [1], data := .document },
        some
          { id := 1, parent := some 0
            data :=
              .element
                ⟨.html "p", [⟨⟨none, .none, "data-state"⟩, "on"⟩]⟩ }],
        []⟩
    ∃ c,
      Condition.parse "! data(state !equals off)" = .ok c ∧
        (c.evaluate .page t 1).Gives true := by
  intro t
  have hArgument : IsOperand "state" :=
    ⟨by decide, List.all_iff_forall_prop.mp (by decide), by decide⟩
  have hExpected : IsOperand "off" :=
    ⟨by decide, List.all_iff_forall_prop.mp (by decide), by decide⟩
  rcases
    holds_iff_extracted hArgument hExpected "!" .data .notEquals
      .page .page t 1 with
    ⟨c, hParse, hHolds, _⟩
  have hRead :
      extractValue .page t (some 1)
          (Extractor.textFor "!" .data "state") =
        .done (some "on") [] := by
    cbv
  exact
    ⟨c, hParse,
      hHolds.mpr ⟨"on", ⟨[], hRead⟩, by decide, by decide⟩⟩

end MarkupMetrics
