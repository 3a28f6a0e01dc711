import MarkupMetrics.Proofs.Condition.Evaluation
import MarkupMetrics.Proofs.Provider.Building
import MarkupMetrics.Proofs.Provider.Methods
import MarkupMetrics.Provider.Samples

/-
  This file proves that what surrounds the builders and the
  raw handlers of a provider comes to an end.

  Builders and raw handlers are foreign, and may fail.  If
  they do not fail on certain trees, with agreeing links, then
  neither does making a handler there, nor running one.

  Key definitions include:
    * `RawHandler.EndsOn`
    * `HandlerBuilder.EndsOn`
    * `Provider.EndsOn`
    * `Handler.EndsOn`

  Key theorems include:
    * `Provider.EndsOn.buildHandler`
    * `Handler.EndsOn.run`
    * `Provider.endsOn_custom`
-/

namespace MarkupMetrics

open Dom

------------------------------------------------------------
-- Reading values
------------------------------------------------------------

/- Every extractor reads something, or finds nothing. -/
theorem Extractor.exists_extract
    {t : Tree}
    (hLinked : t.Linked)
    (x : Extractor)
    (scope : Option NodeId) :
    ∃ value, (x.extract t scope).Gives value := by
  have hSelect : ∃ nodes, (x.select t scope).Gives nodes := by
    unfold select
    by_cases hEmpty : x.selector = ""
    · rw [if_pos hEmpty]
      exact ⟨_, Trace.gives_pure_iff.mpr rfl⟩
    · rw [if_neg hEmpty]
      cases x.global with
      | true =>
          rcases Tree.exists_find hLinked 0 x.selector with
            ⟨found, hFound⟩
          exact ⟨found, hFound.gives⟩
      | false =>
          cases scope with
          | none => exact ⟨[], Trace.gives_pure_iff.mpr rfl⟩
          | some id =>
              rcases Tree.exists_find hLinked id x.selector
                with ⟨found, hFound⟩
              exact ⟨found, hFound.gives⟩
  rcases hSelect with ⟨nodes, hNodes⟩
  simp only [extract, Trace.gives_bind_iff]
  cases x.reading with
  | text =>
      rcases Tree.exists_textOfAll hLinked nodes with
        ⟨text, hText⟩
      exact
        ⟨some text, nodes, hNodes,
          Trace.gives_bind_iff.mpr
            ⟨text, Trace.gives_lift_iff.mpr hText,
              Trace.gives_pure_iff.mpr rfl⟩⟩
  | «attribute» name =>
      exact ⟨_, nodes, hNodes, Trace.gives_pure_iff.mpr rfl⟩

/- Every text is read, as an extractor or as none. -/
theorem Extractor.exists_read?
    (log : Origin)
    (text : String) :
    ∃ read, (Extractor.read? log text).Gives read := by
  unfold read?
  cases Extractor.parse text with
  | ok x => exact ⟨some x, Trace.gives_pure_iff.mpr rfl⟩
  | error e =>
      exact
        ⟨none, Trace.gives_note_bind_iff.mpr
          (Trace.gives_pure_iff.mpr rfl)⟩

/- The same holds for conditions. -/
theorem Condition.exists_read?
    (log : Origin)
    (text : String) :
    ∃ read, (Condition.read? log text).Gives read := by
  unfold read?
  cases Condition.parse text with
  | ok c => exact ⟨some c, Trace.gives_pure_iff.mpr rfl⟩
  | error e =>
      exact
        ⟨none, Trace.gives_note_bind_iff.mpr
          (Trace.gives_pure_iff.mpr rfl)⟩

/- Every text has a value, or none. -/
theorem exists_extractValue
    {t : Tree}
    (hLinked : t.Linked)
    (log : Origin)
    (scope : Option NodeId)
    (text : String) :
    ∃ value, (extractValue log t scope text).Gives value := by
  unfold extractValue
  cases literal? text with
  | some s => exact ⟨some s, Trace.gives_pure_iff.mpr rfl⟩
  | none =>
      rcases Extractor.exists_read? log text with ⟨read, hRead⟩
      simp only [Trace.gives_bind_iff]
      cases read with
      | none =>
          exact ⟨none, none, hRead, Trace.gives_pure_iff.mpr rfl⟩
      | some x =>
          rcases x.exists_extract hLinked scope with
            ⟨value, hValue⟩
          exact ⟨value, some x, hRead, hValue⟩

------------------------------------------------------------
-- Builders and handlers
------------------------------------------------------------

/- A raw handler does not fail on certain trees. -/
def RawHandler.EndsOn
    (trees : Tree → Prop)
    (raw : RawHandler) : Prop :=
  ∀ debug t, trees t → ∀ event, (raw debug t event).Gives ()

/-
  A builder does not fail on certain trees, and neither do the
  raw handlers that it builds there.
-/
def HandlerBuilder.EndsOn
    (trees : Tree → Prop)
    (build : HandlerBuilder) : Prop :=
  ∀ cx debug t element, trees t →
    ∃ built, (build cx debug t element).Gives built ∧
      ∀ raw ∈ built, RawHandler.EndsOn trees raw

/- None of the builders of a provider fails. -/
def Provider.EndsOn
    (trees : Tree → Prop)
    (p : Provider) : Prop :=
  ∀ method ∈ p.methods.entries,
    HandlerBuilder.EndsOn trees method.2

/- The raw handler of a handler, if it has one, does not fail. -/
def Handler.EndsOn
    (trees : Tree → Prop) : Handler → Prop
  | .recorder _ => True
  | .provided _ _ raw => RawHandler.EndsOn trees raw

/- A guard can be made from every text. -/
theorem Guard.exists_ofText
    (log : Origin)
    (text : Option String) :
    ∃ guard, (ofText log text).Gives guard := by
  unfold ofText
  simp only
  split
  · exact ⟨.always, Trace.gives_pure_iff.mpr rfl⟩
  · rcases Condition.exists_read? log
        (String.ofList (Text.trim (text.getD "").toList)) with
      ⟨read, hRead⟩
    simp only [Trace.gives_bind_iff]
    cases read with
    | none =>
        exact ⟨.never, none, hRead, Trace.gives_pure_iff.mpr rfl⟩
    | some c =>
        exact
          ⟨.when c, some c, hRead, Trace.gives_pure_iff.mpr rfl⟩

/- Every guard can be asked for every node. -/
theorem Guard.exists_passes
    {t : Tree}
    (hLinked : t.Linked)
    (guard : Guard)
    (log : Origin)
    (node : NodeId) :
    ∃ pass, (guard.passes log t node).Gives pass := by
  cases guard with
  | always => exact ⟨true, Trace.gives_pure_iff.mpr rfl⟩
  | never => exact ⟨false, Trace.gives_pure_iff.mpr rfl⟩
  | when c =>
      rcases c.exists_evaluate hLinked log node with
        ⟨holds, hHolds⟩
      exact ⟨holds, hHolds.gives⟩

variable {trees : Tree → Prop}

/- A provider builds a handler, or declines. -/
theorem Provider.EndsOn.buildHandler
    {p : Provider}
    (hEnds : p.EndsOn trees)
    {t : Tree}
    (hTree : trees t)
    (cx : Context)
    (debug : Bool)
    (element : NodeId)
    (condition : Option String) :
    ∃ built,
      (p.buildHandler cx debug t element condition).Gives
        built := by
  unfold Provider.buildHandler
  cases p.declaredMethod? t element with
  | none => exact ⟨none, Trace.gives_pure_iff.mpr rfl⟩
  | some method =>
      cases hBuilder : p.methods.get? method with
      | none =>
          simp only [hBuilder, Context.note,
            Trace.gives_note_bind_iff]
          exact ⟨none, Trace.gives_pure_iff.mpr rfl⟩
      | some builder =>
          simp only [hBuilder, Trace.gives_bind_iff]
          rcases MethodTable.mem_of_get? hBuilder with
            ⟨entry, hEntry, rfl⟩
          rcases hEnds entry hEntry cx debug t element hTree
            with ⟨built, hBuilt, _⟩
          cases built with
          | none =>
              exact
                ⟨none, none, hBuilt,
                  Trace.gives_pure_iff.mpr rfl⟩
          | some raw =>
              rcases Guard.exists_ofText cx.origin condition
                with ⟨guard, hGuard⟩
              exact
                ⟨_, some raw, hBuilt,
                  Trace.gives_bind_iff.mpr
                    ⟨guard, hGuard,
                      Trace.gives_pure_iff.mpr rfl⟩⟩

/- What is built does not fail either. -/
theorem Provider.EndsOn.raw
    {p : Provider}
    (hEnds : p.EndsOn trees)
    {t : Tree}
    (hTree : trees t)
    {cx : Context}
    {debug : Bool}
    {element : NodeId}
    {raw : RawHandler}
    (hBuilds : p.Builds cx debug t element raw) :
    RawHandler.EndsOn trees raw := by
  rcases hBuilds with ⟨method, builder, _, hBuilder, hGives⟩
  rcases MethodTable.mem_of_get? hBuilder with
    ⟨entry, hEntry, rfl⟩
  rcases hEnds entry hEntry cx debug t element hTree with
    ⟨built, hBuilt, hRaw⟩
  exact hRaw raw (hBuilt.unique hGives)

/- A handler runs to its end, whatever its guard says. -/
theorem Handler.EndsOn.run
    {h : Handler}
    (hEnds : h.EndsOn trees)
    {t : Tree}
    (hTree : trees t)
    (hLinked : t.Linked)
    (debug : Nat → Bool)
    (event : PageEvent) :
    (h.run debug t event).Gives () := by
  cases h with
  | recorder label =>
      rcases Tree.exists_textContent hLinked event.current with
        ⟨text, hText⟩
      exact
        Trace.gives_bind_iff.mpr
          ⟨text, Trace.gives_lift_iff.mpr hText, _, rfl⟩
  | provided cx guard raw =>
      rcases guard.exists_passes hLinked cx.origin
          event.current with ⟨pass, hPass⟩
      refine Trace.gives_bind_iff.mpr ⟨pass, hPass, ?_⟩
      cases pass with
      | true => exact hEnds _ t hTree event
      | false => exact Trace.gives_note _ _ _ _

------------------------------------------------------------
-- Recipes
------------------------------------------------------------

/- What is sent is sent if it is found. -/
theorem RawHandler.endsOn_pushHandler
    (cx : Context)
    {data : PushData}
    (hFinds :
      ∀ debug t, trees t → ∀ event,
        ∃ payload, (data.resolve debug t event).Gives payload) :
    RawHandler.EndsOn trees (pushHandler cx data) := by
  intro debug t hTree event
  rcases hFinds debug t hTree event with ⟨payload, hPayload⟩
  exact Trace.gives_bind_iff.mpr ⟨payload, hPayload, _, rfl⟩

/- A row of traces comes to an end if each of them does. -/
theorem Trace.exists_mapM
    {α β : Type}
    {f : α → Trace β}
    (hEach : ∀ a, ∃ b, (f a).Gives b)
    (items : List α) :
    ∃ results, (items.mapM f).Gives results := by
  induction items with
  | nil => exact ⟨[], Trace.gives_pure_iff.mpr rfl⟩
  | cons a rest ih =>
      rcases hEach a with ⟨b, hFirst⟩
      rcases ih with ⟨results, hRest⟩
      refine ⟨b :: results, ?_⟩
      rw [List.mapM_cons]
      exact
        Trace.gives_bind_iff.mpr
          ⟨b, hFirst,
            Trace.gives_bind_iff.mpr
              ⟨results, hRest, Trace.gives_pure_iff.mpr rfl⟩⟩

/- No recipe fails on a tree whose links agree. -/
theorem Recipe.endsOn_builder
    (hLinked : ∀ t, trees t → t.Linked)
    (method : String)
    (r : Recipe) :
    HandlerBuilder.EndsOn trees (r.builder method) := by
  intro cx debug t element hTree
  cases r with
  | literal payload =>
      refine ⟨_, Trace.gives_pure_iff.mpr rfl, ?_⟩
      rintro raw ⟨⟩
      apply RawHandler.endsOn_pushHandler
      intro _ t' _ event
      exact ⟨payload, Trace.gives_pure_iff.mpr rfl⟩
  | deferred values =>
      refine ⟨_, Trace.gives_pure_iff.mpr rfl, ?_⟩
      rintro raw ⟨⟩
      apply RawHandler.endsOn_pushHandler
      intro _ t' hTree' event
      rcases
        Trace.exists_mapM
          (fun value =>
            exists_extractValue (hLinked t' hTree') cx.origin
              (some event.current) value)
          values with ⟨found, hFound⟩
      exact
        ⟨_, Trace.gives_bind_iff.mpr
          ⟨found, hFound, Trace.gives_pure_iff.mpr rfl⟩⟩
  | require name =>
      refine ⟨_, Trace.gives_pure_iff.mpr rfl, ?_⟩
      intro raw hRaw
      rcases Option.map_eq_some_iff.mp hRaw with
        ⟨value, _, rfl⟩
      apply RawHandler.endsOn_pushHandler
      intro _ t' _ event
      exact ⟨_, Trace.gives_pure_iff.mpr rfl⟩
  | log message =>
      refine
        ⟨_, Trace.gives_note_bind_iff.mpr
          (Trace.gives_pure_iff.mpr rfl), ?_⟩
      rintro raw ⟨⟩
      intro _ t' _ event
      exact Trace.gives_note _ _ _ _
  | decline =>
      exact
        ⟨none, Trace.gives_pure_iff.mpr rfl, by simp⟩

/- So no provider that is made of recipes fails. -/
theorem Provider.endsOn_custom
    (hLinked : ∀ t, trees t → t.Linked)
    (name shortName methodAttribute : String)
    (methods : List (String × Recipe)) :
    (Provider.custom name shortName methodAttribute
      methods).EndsOn trees := by
  intro method hMember
  rcases MethodTable.mem_ofList hMember with
    ⟨m, hListed, hSame⟩
  rcases List.mem_map.mp hListed with ⟨recipe, _, rfl⟩
  rw [← hSame]
  exact recipe.2.endsOn_builder hLinked recipe.1

end MarkupMetrics
