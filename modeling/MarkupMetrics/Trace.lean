import MarkupMetrics.Effect

/-
  This file defines traces: results together with the effects
  on the way to them, in order.

  A fault ends a trace, and nothing of it is kept.

  Key definitions include:
    * `Trace`
    * `Trace.bind`
    * `Trace.ofExcept`
    * `Trace.emit`
    * `Trace.note`
-/

namespace MarkupMetrics

open Dom

/- A result with the effects on the way to it, or a fault. -/
inductive Trace (α : Type) where
  | fault (why : Fault)
  | done (result : α) (effects : List Effect)

namespace Trace

variable {α β γ : Type}

/- A result without effects. -/
def pure
    (a : α) : Trace α :=
  .done a []

/- Put effects before those of a trace. -/
def after
    (before : List Effect) : Trace α → Trace α
  | .fault e => .fault e
  | .done a effects => .done a (before ++ effects)

/- One trace after another. -/
def bind
    (x : Trace α)
    (f : α → Trace β) : Trace β :=
  match x with
  | .fault e => .fault e
  | .done a effects => after effects (f a)

/- A trace followed by nothing is the same. -/
theorem bind_pure
    (x : Trace α) :
    bind x pure = x := by
  cases x <;> simp [bind, pure, after]

/- Nothing followed by a trace is the trace. -/
theorem pure_bind
    (a : α)
    (f : α → Trace β) :
    bind (pure a) f = f a := by
  cases h : f a <;> simp [bind, pure, after, h]

/- How traces in a row are grouped makes no difference. -/
theorem bind_assoc
    (x : Trace α)
    (f : α → Trace β)
    (g : β → Trace γ) :
    bind (bind x f) g = bind x fun a => bind (f a) g := by
  cases x with
  | fault e => rfl
  | done a l =>
      cases hf : f a with
      | fault e => simp [bind, after, hf]
      | done b m =>
          cases hg : g b <;> simp [bind, after, hf, hg]

instance : Monad Trace where
  pure := pure
  bind := bind

instance : LawfulMonad Trace :=
  LawfulMonad.mk' Trace bind_pure pure_bind bind_assoc

/- A result that may be a fault, without effects. -/
def ofExcept : Except Fault α → Trace α
  | .error e => .fault e
  | .ok a => .done a []

instance : MonadLift (Except Fault) Trace where
  monadLift := ofExcept

/- Do one thing. -/
def emit
    (e : Effect) : Trace Unit :=
  .done () [e]

/- Write a note. -/
def note
    (origin : Origin)
    (level : Level)
    (message : String) : Trace Unit :=
  emit (.note origin level message)

end Trace

end MarkupMetrics
