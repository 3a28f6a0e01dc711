import MarkupMetrics.Condition.Evaluation
import MarkupMetrics.Provider.Basic

/-
  This file defines the handlers that listeners carry, and
  how a provider's handler for an element is made.

  The condition of an element is read when its handler is
  made, and is evaluated each time the handler runs, for the
  node that it runs for.  A text that is not a condition
  keeps the handler from ever running.

  Key definitions include:
    * `Guard`
    * `Guard.ofText`
    * `Guard.passes`
    * `Handler`
    * `Handler.run`
    * `Provider.buildHandler`
-/

namespace MarkupMetrics

open Dom Text

------------------------------------------------------------
-- Guards
------------------------------------------------------------

/- When a handler may run. -/
inductive Guard where
  | always
  | when (condition : Condition)
  | never
deriving DecidableEq, Repr

namespace Guard

/- The guard that the condition of an element asks for. -/
def ofText
    (log : Origin)
    (condition : Option String) : Trace Guard := do
  let source := String.ofList (trim (condition.getD "").toList)
  if source = "" then
    return .always
  else
    match ← Condition.read? log source with
    | some c => return .when c
    | none => return .never

/- Whether a guard lets a handler run for a node. -/
def passes
    (g : Guard)
    (log : Origin)
    (t : Tree)
    (current : NodeId) : Trace Bool :=
  match g with
  | .always => return true
  | .when c => c.evaluate log t current
  | .never => return false

end Guard

------------------------------------------------------------
-- Handlers
------------------------------------------------------------

/-
  What a listener does: record the event under a label, or
  run the guarded handler of a provider.
-/
inductive Handler where
  | recorder (label : String)
  | provided (cx : Context) (guard : Guard) (raw : RawHandler)

namespace Handler

/-
  Run a handler, given whether diagnostics are on for the
  registry with a number.
-/
def run
    (debug : Nat → Bool)
    (h : Handler)
    (t : Tree)
    (event : PageEvent) : Trace Unit :=
  match h with
  | .recorder label => do
      let text ← t.textContent event.current
      Trace.emit (.heard ⟨label, event, text⟩)
  | .provided cx guard raw => do
      if ← guard.passes cx.origin t event.current then
        raw (debug cx.registry) t event
      else
        cx.note .info
          (event.name ++ " event on node " ++
            decimalText event.current ++
            " will not be pushed due to its condition")

end Handler

------------------------------------------------------------
-- Building
------------------------------------------------------------

namespace Provider

/- The method that an element declares for a provider. -/
def declaredMethod?
    (p : Provider)
    (t : Tree)
    (element : NodeId) : Option String :=
  (t.attr? element p.methodAttribute).filter (· != "")

/-
  Make the handler of a provider for an element with a
  condition, given whether diagnostics are on.  There is none
  if the element declares no method, if the method is not
  supported, or if its builder declines.
-/
def buildHandler
    (p : Provider)
    (cx : Context)
    (debug : Bool)
    (t : Tree)
    (element : NodeId)
    (condition : Option String) : Trace (Option Handler) := do
  match p.declaredMethod? t element with
  | none => return none
  | some method =>
      match p.methods.get? method with
      | none =>
          cx.note .warn
            ("No handler can be built for node " ++
              decimalText element ++ ": method " ++
              titleCase method ++ " is not supported")
          return none
      | some builder =>
          match ← builder cx debug t element with
          | none => return none
          | some raw =>
              let guard ← Guard.ofText cx.origin condition
              return some (.provided cx guard raw)

end Provider

end MarkupMetrics
