import MarkupMetrics.Proofs.Provider.Building
import MarkupMetrics.Proofs.Provider.Methods
import MarkupMetrics.Provider.Samples

/-
  This file says what it is for a provider not to heed
  whether diagnostics are on, and proves that its handlers
  are then made and run in the same way in either case.

  Builders and raw handlers are foreign, and may look at the
  switch.  Those that are made of recipes do not.

  Key definitions include:
    * `RawHandler.Heedless`
    * `HandlerBuilder.Heedless`
    * `Provider.Heedless`
    * `Handler.Heedless`

  Key theorems include:
    * `Provider.Heedless.buildHandler`
    * `Provider.Heedless.raw`
    * `Handler.Heedless.run`
    * `Provider.heedless_ofList`
    * `Provider.heedless_custom`
-/

namespace MarkupMetrics

open Dom

------------------------------------------------------------
-- Builders and handlers
------------------------------------------------------------

/- A raw handler does the same with diagnostics on and off. -/
def RawHandler.Heedless
    (raw : RawHandler) : Prop :=
  ∀ debug debug' t event, raw debug t event = raw debug' t event

/-
  A builder does the same with diagnostics on and off, and so
  do the raw handlers that it builds.
-/
structure HandlerBuilder.Heedless
    (build : HandlerBuilder) : Prop where
  same :
    ∀ cx debug debug' t element,
      build cx debug t element = build cx debug' t element
  raw :
    ∀ cx debug t element raw,
      (build cx debug t element).Gives (some raw) →
        RawHandler.Heedless raw

/- None of the builders of a provider heeds diagnostics. -/
def Provider.Heedless
    (p : Provider) : Prop :=
  ∀ method ∈ p.methods.entries,
    HandlerBuilder.Heedless method.2

/- Nor does the raw handler of a handler, if it has one. -/
def Handler.Heedless : Handler → Prop
  | .recorder _ => True
  | .provided _ _ raw => RawHandler.Heedless raw

/- The handler that is built does not depend on the switch. -/
theorem Provider.Heedless.buildHandler
    {p : Provider}
    (hHeedless : p.Heedless)
    (cx : Context)
    (debug debug' : Bool)
    (t : Tree)
    (element : NodeId)
    (condition : Option String) :
    p.buildHandler cx debug t element condition =
      p.buildHandler cx debug' t element condition := by
  unfold Provider.buildHandler
  cases p.declaredMethod? t element with
  | none => rfl
  | some method =>
      cases hBuilder : p.methods.get? method with
      | none => simp only [hBuilder]
      | some builder =>
          rcases MethodTable.mem_of_get? hBuilder with
            ⟨entry, hEntry, rfl⟩
          have hSame :=
            (hHeedless entry hEntry).same cx debug debug' t
              element
          simp only [hBuilder, hSame]

/- Nor does what it does. -/
theorem Provider.Heedless.raw
    {p : Provider}
    (hHeedless : p.Heedless)
    {cx : Context}
    {debug : Bool}
    {t : Tree}
    {element : NodeId}
    {raw : RawHandler}
    (hBuilds : p.Builds cx debug t element raw) :
    RawHandler.Heedless raw := by
  rcases hBuilds with ⟨method, builder, _, hBuilder, hGives⟩
  rcases MethodTable.mem_of_get? hBuilder with
    ⟨entry, hEntry, rfl⟩
  exact (hHeedless entry hEntry).raw cx debug t element raw hGives

/- A handler runs in the same way whatever is switched on. -/
theorem Handler.Heedless.run
    {h : Handler}
    (hHeedless : h.Heedless)
    (debug debug' : Nat → Bool)
    (t : Tree)
    (event : PageEvent) :
    h.run debug t event = h.run debug' t event := by
  cases h with
  | recorder label => rfl
  | provided cx guard raw =>
      have hSame :
          raw (debug cx.registry) t event =
            raw (debug' cx.registry) t event :=
        hHeedless _ _ t event
      rw [Handler.run, Handler.run, hSame]

------------------------------------------------------------
-- Recipes
------------------------------------------------------------

/- Sending is heedless if finding what is sent is. -/
theorem RawHandler.heedless_pushHandler
    (cx : Context)
    {data : PushData}
    (hFinds :
      ∀ debug debug' t event,
        data.resolve debug t event =
          data.resolve debug' t event) :
    RawHandler.Heedless (pushHandler cx data) := by
  intro debug debug' t event
  simp only [pushHandler, hFinds debug debug']

/- No recipe heeds diagnostics. -/
theorem Recipe.heedless_builder
    (method : String)
    (r : Recipe) :
    HandlerBuilder.Heedless (r.builder method) := by
  constructor
  · intro cx debug debug' t element
    rfl
  · intro cx debug t element raw hGives
    cases r with
    | literal payload =>
        cases Trace.gives_pure_iff.mp hGives
        exact
          RawHandler.heedless_pushHandler cx
            fun _ _ _ _ => rfl
    | deferred values =>
        cases Trace.gives_pure_iff.mp hGives
        exact
          RawHandler.heedless_pushHandler cx
            fun _ _ _ _ => rfl
    | require name =>
        rcases
          Option.map_eq_some_iff.mp
            (Trace.gives_pure_iff.mp hGives) with
          ⟨value, _, rfl⟩
        exact
          RawHandler.heedless_pushHandler cx
            fun _ _ _ _ => rfl
    | log message =>
        rw [builder, Context.note, Trace.gives_note_bind_iff,
          Trace.gives_pure_iff] at hGives
        cases hGives
        exact fun _ _ _ _ => rfl
    | decline => cases Trace.gives_pure_iff.mp hGives

------------------------------------------------------------
-- Providers
------------------------------------------------------------

namespace Provider

/- A provider is heedless if all that it is given is. -/
theorem heedless_ofList
    {p : Provider}
    {methods : List (String × HandlerBuilder)}
    (hMethods : p.methods = MethodTable.ofList methods)
    (hEach : ∀ m ∈ methods, HandlerBuilder.Heedless m.2) :
    p.Heedless := by
  intro method hMember
  rw [hMethods] at hMember
  rcases MethodTable.mem_ofList hMember with
    ⟨m, hListed, hSame⟩
  rw [← hSame]
  exact hEach m hListed

/- So no provider that is made of recipes heeds diagnostics. -/
theorem heedless_custom
    (name shortName methodAttribute : String)
    (methods : List (String × Recipe)) :
    (custom name shortName methodAttribute
      methods).Heedless := by
  apply heedless_ofList rfl
  intro m hMember
  rcases List.mem_map.mp hMember with ⟨recipe, _, rfl⟩
  exact recipe.2.heedless_builder recipe.1

theorem heedless_counting
    (shortName : String) :
    (counting shortName).Heedless := by
  apply heedless_ofList rfl
  intro m hMember
  obtain rfl := List.mem_singleton.mp hMember
  constructor
  · intro cx debug debug' t element
    rfl
  · intro cx debug t element raw hGives
    cases Trace.gives_pure_iff.mp hGives
    exact fun _ _ _ _ => rfl

theorem heedless_trackEvent :
    HandlerBuilder.Heedless trackEvent := by
  constructor
  · intro cx debug debug' t element
    rfl
  · intro cx debug t element raw hGives
    unfold trackEvent at hGives
    split at hGives
    · rw [Context.note, Trace.gives_note_bind_iff,
        Trace.gives_pure_iff] at hGives
      cases hGives
    · split at hGives
      · cases Trace.gives_pure_iff.mp hGives
      · cases Trace.gives_pure_iff.mp hGives
        exact
          RawHandler.heedless_pushHandler cx fun _ _ _ _ => rfl

theorem heedless_trackSocial :
    HandlerBuilder.Heedless trackSocial := by
  constructor
  · intro cx debug debug' t element
    rfl
  · intro cx debug t element raw hGives
    unfold trackSocial at hGives
    split at hGives
    · cases Trace.gives_pure_iff.mp hGives
      exact
        RawHandler.heedless_pushHandler cx fun _ _ _ _ => rfl
    · cases Trace.gives_pure_iff.mp hGives

theorem heedless_recordName :
    HandlerBuilder.Heedless recordName := by
  constructor
  · intro cx debug debug' t element
    rfl
  · intro cx debug t element raw hGives
    unfold recordName at hGives
    split at hGives
    · cases Trace.gives_pure_iff.mp hGives
    · cases Trace.gives_pure_iff.mp hGives
      exact
        RawHandler.heedless_pushHandler cx fun _ _ _ _ => rfl

/- Nor do the providers that come with the library. -/
theorem heedless_trackers : trackers.Heedless := by
  apply heedless_ofList rfl
  intro m hMember
  rcases List.mem_pair.mp hMember with rfl | rfl
  · exact heedless_trackEvent
  · exact heedless_trackSocial

theorem heedless_properties : properties.Heedless := by
  apply heedless_ofList rfl
  intro m hMember
  obtain rfl := List.mem_singleton.mp hMember
  exact heedless_recordName

end Provider

end MarkupMetrics
