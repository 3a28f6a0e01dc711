import MarkupMetrics.Trace
import Mathlib.Tactic.Common

/-
  This file takes computations apart that may come to a
  fault: from the result of a sequence it gives the results
  of its parts.

  Key definitions include:
    * `Outcome.Meets`
    * `Trace.Gives`
    * `Trace.Tells`

  Key theorems include:
    * `Outcome.bind_eq_ok_iff`
    * `Outcome.Meets.bind`
    * `Trace.bind_eq_done_iff`
    * `Trace.gives_bind_iff`
-/

namespace MarkupMetrics

open Dom

------------------------------------------------------------
-- Results or faults
------------------------------------------------------------

namespace Outcome

variable {ε α β : Type}

/- A sequence has a result if both of its parts have one. -/
theorem bind_eq_ok_iff
    {x : Except ε α}
    {f : α → Except ε β}
    {b : β} :
    x >>= f = .ok b ↔ ∃ a, x = .ok a ∧ f a = .ok b := by
  cases x with
  | error e => simp [bind, Except.bind]
  | ok a => simp [bind, Except.bind]

@[simp] theorem pure_eq_ok_iff
    {a b : α} :
    (pure a : Except ε α) = .ok b ↔ a = b := by
  simp [pure, Except.pure]

@[simp] theorem ok_bind
    (a : α)
    (f : α → Except ε β) :
    (.ok a : Except ε α) >>= f = f a :=
  rfl

/-
  A property that every step of a loop keeps holds of its
  result.
-/
theorem foldlM_keeps
    {P : β → Prop}
    {f : β → α → Except ε β}
    (hStep : ∀ b a b', P b → f b a = .ok b' → P b')
    (items : List α)
    {b b' : β}
    (hStart : P b)
    (hRun : items.foldlM f b = .ok b') :
    P b' := by
  induction items generalizing b with
  | nil =>
      simp only [List.foldlM_nil, pure_eq_ok_iff] at hRun
      exact hRun ▸ hStart
  | cons item items ih =>
      rw [List.foldlM_cons, bind_eq_ok_iff] at hRun
      rcases hRun with ⟨middle, hItem, hRest⟩
      exact ih (hStep b item middle hStart hItem) hRest

/- A loop has a result if each of its steps has one. -/
theorem foldlM_exists
    {f : β → α → Except ε β}
    {items : List α}
    (hStep : ∀ b, ∀ a ∈ items, ∃ b', f b a = .ok b')
    (b : β) :
    ∃ b', items.foldlM f b = .ok b' := by
  induction items generalizing b with
  | nil => exact ⟨b, rfl⟩
  | cons item items ih =>
      rcases hStep b item (by simp) with ⟨middle, hItem⟩
      rcases
        ih (fun b a hMember => hStep b a (by simp [hMember]))
          middle with ⟨b', hRest⟩
      refine ⟨b', ?_⟩
      rw [List.foldlM_cons, hItem]
      exact hRest

/-
  A computation has a result exactly under a condition, and
  the result has a property.
-/
structure Meets
    (x : Except ε α)
    (condition : Prop)
    (property : α → Prop) : Prop where
  ends : (∃ a, x = .ok a) ↔ condition
  gives : ∀ a, x = .ok a → property a

/- In a sequence the conditions add up. -/
theorem Meets.bind
    {x : Except ε α}
    {f : α → Except ε β}
    {P P' : Prop}
    {Q : α → Prop}
    {Q' : β → Prop}
    (hFirst : Meets x P Q)
    (hNext : ∀ a, Q a → Meets (f a) P' Q') :
    Meets (x >>= f) (P ∧ P') Q' := by
  constructor
  · constructor
    · rintro ⟨b, hRun⟩
      rcases bind_eq_ok_iff.mp hRun with ⟨a, hA, hB⟩
      have hNext := hNext a (hFirst.gives a hA)
      exact ⟨hFirst.ends.mp ⟨a, hA⟩, hNext.ends.mp ⟨b, hB⟩⟩
    · rintro ⟨hP, hP'⟩
      rcases hFirst.ends.mpr hP with ⟨a, hA⟩
      have hNext := hNext a (hFirst.gives a hA)
      rcases hNext.ends.mpr hP' with ⟨b, hB⟩
      exact ⟨b, bind_eq_ok_iff.mpr ⟨a, hA, hB⟩⟩
  · intro b hRun
    rcases bind_eq_ok_iff.mp hRun with ⟨a, hA, hB⟩
    exact (hNext a (hFirst.gives a hA)).gives b hB

end Outcome

------------------------------------------------------------
-- Traces
------------------------------------------------------------

namespace Trace

variable {α β : Type}

/- A trace comes to a result, whatever it does on the way. -/
def Gives
    (x : Trace α)
    (a : α) : Prop :=
  ∃ effects, x = .done a effects

/-
  A sequence has the effects of its parts, one after the
  other.
-/
theorem bind_eq_done_iff
    {x : Trace α}
    {f : α → Trace β}
    {b : β}
    {effects : List Effect} :
    x >>= f = .done b effects ↔
      ∃ a first second,
        x = .done a first ∧ f a = .done b second ∧
          effects = first ++ second := by
  change Trace.bind x f = .done b effects ↔ _
  cases x with
  | fault why => simp [Trace.bind]
  | done a first =>
      cases hSecond : f a with
      | fault why => simp [Trace.bind, after, hSecond]
      | done c second =>
          simp only [Trace.bind, after, hSecond, done.injEq]
          constructor
          · rintro ⟨rfl, rfl⟩
            exact ⟨a, first, second, ⟨rfl, rfl⟩, by
              simp [hSecond], rfl⟩
          · rintro ⟨a', first', second', ⟨rfl, rfl⟩,
              hSame, rfl⟩
            simp only [hSecond, done.injEq] at hSame
            simp [hSame]

theorem pure_eq_done_iff
    {a b : α}
    {effects : List Effect} :
    (Pure.pure a : Trace α) = .done b effects ↔
      a = b ∧ effects = [] := by
  change Trace.done a [] = .done b effects ↔ _
  simp [eq_comm]

@[simp] theorem gives_pure_iff
    {a b : α} :
    (Pure.pure a : Trace α).Gives b ↔ a = b := by
  simp [Gives, pure_eq_done_iff]

@[simp] theorem gives_done_iff
    {a b : α}
    {effects : List Effect} :
    (Trace.done a effects).Gives b ↔ a = b := by
  simp [Gives]

@[simp] theorem not_gives_fault
    {why : Fault}
    {a : α} :
    ¬ (Trace.fault why : Trace α).Gives a := by
  simp [Gives]

/- A sequence has a result if both of its parts have one. -/
theorem gives_bind_iff
    {x : Trace α}
    {f : α → Trace β}
    {b : β} :
    (x >>= f).Gives b ↔ ∃ a, x.Gives a ∧ (f a).Gives b := by
  constructor
  · rintro ⟨effects, hRun⟩
    rw [bind_eq_done_iff] at hRun
    rcases hRun with ⟨a, first, second, hFirst, hSecond, _⟩
    exact ⟨a, ⟨first, hFirst⟩, ⟨second, hSecond⟩⟩
  · rintro ⟨a, ⟨first, hFirst⟩, ⟨second, hSecond⟩⟩
    exact
      ⟨first ++ second,
        bind_eq_done_iff.mpr
          ⟨a, first, second, hFirst, hSecond, rfl⟩⟩

/- What goes on in the same way with each result is the same. -/
theorem bind_congr
    {x : Trace α}
    {f g : α → Trace β}
    (hSame : ∀ a, x.Gives a → f a = g a) :
    x >>= f = x >>= g := by
  cases x with
  | fault why => rfl
  | done a effects =>
      exact
        congrArg (Trace.after effects) (hSame a ⟨effects, rfl⟩)

/- So is what runs in the same way for each item. -/
theorem forM_congr
    {items : List α}
    {f g : α → Trace Unit}
    (hSame : ∀ item ∈ items, f item = g item) :
    items.forM f = items.forM g := by
  induction items with
  | nil => rfl
  | cons item items ih =>
      have hRest := ih fun x hMember => hSame x (by simp [hMember])
      simp only [List.forM_eq_forM] at hRest ⊢
      rw [List.forM_cons, List.forM_cons, hSame item (by simp),
        hRest]

/- A trace with another result has the same effects. -/
theorem map_done
    (f : α → β)
    (a : α)
    (effects : List Effect) :
    f <$> Trace.done a effects = .done (f a) effects := by
  rw [map_eq_pure_bind]
  change Trace.done (f a) (effects ++ []) = .done (f a) effects
  rw [List.append_nil]

/- What is made of a result exists if the result does. -/
theorem exists_map
    {x : Trace α}
    (f : α → β)
    (hSome : ∃ a, x.Gives a) :
    ∃ b, (do return f (← x)).Gives b := by
  rcases hSome with ⟨a, hA⟩
  exact
    ⟨f a, gives_bind_iff.mpr ⟨a, hA, gives_pure_iff.mpr rfl⟩⟩

@[simp] theorem gives_note
    (origin : Origin)
    (level : Level)
    (message : String)
    (u : Unit) :
    (note origin level message).Gives u :=
  ⟨_, rfl⟩

/- Writing a note first makes no difference to a result. -/
theorem gives_note_bind_iff
    {origin : Origin}
    {level : Level}
    {message : String}
    {f : Unit → Trace α}
    {a : α} :
    (note origin level message >>= f).Gives a ↔
      (f ()).Gives a := by
  rw [gives_bind_iff]
  constructor
  · rintro ⟨_, _, hRest⟩
    exact hRest
  · intro hRest
    exact ⟨(), gives_note origin level message (), hRest⟩

@[simp] theorem gives_ofExcept_iff
    {x : Except Fault α}
    {a : α} :
    (ofExcept x).Gives a ↔ x = .ok a := by
  cases x with
  | error why => simp [ofExcept]
  | ok b => simp [ofExcept]

@[simp] theorem gives_lift_iff
    {x : Except Fault α}
    {a : α} :
    (liftM x : Trace α).Gives a ↔ x = .ok a :=
  gives_ofExcept_iff

/- What is no fault is a result without effects. -/
theorem lift_ok
    (a : α) :
    (liftM (.ok a : Except Fault α) : Trace α) = Pure.pure a :=
  rfl

------------------------------------------------------------
-- Traces of notes
------------------------------------------------------------

end Trace

/- Whether an effect is no more than a note. -/
def Effect.isNote : Effect → Bool
  | .note _ _ _ => true
  | _ => false

namespace Trace

variable {α β : Type}

/- A trace comes to a result, and only writes notes. -/
def Tells
    (x : Trace α)
    (a : α) : Prop :=
  ∃ notes,
    x = .done a notes ∧ ∀ e ∈ notes, e.isNote = true

theorem Tells.gives
    {x : Trace α}
    {a : α}
    (hTells : x.Tells a) :
    x.Gives a := by
  rcases hTells with ⟨notes, hDone, _⟩
  exact ⟨notes, hDone⟩

theorem tells_pure
    (a : α) :
    (Pure.pure a : Trace α).Tells a :=
  ⟨[], rfl, by simp⟩

theorem tells_note
    (origin : Origin)
    (level : Level)
    (message : String) :
    (note origin level message).Tells () :=
  ⟨_, rfl, by simp [Effect.isNote]⟩

theorem tells_lift
    {x : Except Fault α}
    {a : α}
    (hDone : x = .ok a) :
    (liftM x : Trace α).Tells a := by
  subst hDone
  exact ⟨[], rfl, by simp⟩

/- Notes followed by notes are notes. -/
theorem Tells.bind
    {x : Trace α}
    {f : α → Trace β}
    {a : α}
    {b : β}
    (hFirst : x.Tells a)
    (hSecond : (f a).Tells b) :
    (x >>= f).Tells b := by
  rcases hFirst with ⟨first, hDone, hNotes⟩
  rcases hSecond with ⟨second, hDone', hNotes'⟩
  refine
    ⟨first ++ second,
      bind_eq_done_iff.mpr
        ⟨a, first, second, hDone, hDone', rfl⟩, ?_⟩
  intro e hMember
  rcases List.mem_append.mp hMember with hEarly | hLate
  · exact hNotes e hEarly
  · exact hNotes' e hLate

/- A trace has one result. -/
theorem Gives.unique
    {x : Trace α}
    {a b : α}
    (hFirst : x.Gives a)
    (hSecond : x.Gives b) :
    a = b := by
  rcases hFirst with ⟨effects, hDone⟩
  rw [hDone, gives_done_iff] at hSecond
  exact hSecond

end Trace

end MarkupMetrics
