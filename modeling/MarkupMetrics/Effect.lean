import MarkupMetrics.Dom.Tree
import MarkupMetrics.Payload

/-
  This file defines what a computation on a page can do
  besides giving a result.

  Effects say what is attempted.  Whether a note is shown and
  whether a payload reaches a transport depends on settings
  that are not looked at here.

  Key definitions include:
    * `Level`
    * `Origin`
    * `Context`
    * `PageEvent`
    * `Hearing`
    * `Effect`
-/

namespace MarkupMetrics

open Dom

------------------------------------------------------------
-- Notes
------------------------------------------------------------

/- How grave a note is. -/
inductive Level where
  | trace
  | debug
  | info
  | warn
  | error
deriving DecidableEq, Repr

/-
  Who writes a note: the page itself, a caller outside of any
  registry, or a part of the registry with a number.  The
  scope is the name that the note is shown under.
-/
inductive Origin where
  | page
  | caller (scope : String)
  | registry (number : Nat) (scope : String)
deriving DecidableEq, Repr

------------------------------------------------------------
-- Providers and events
------------------------------------------------------------

/-
  On whose behalf something is pushed: the registry and the
  provider by their numbers, and the provider's short name.
-/
structure Context where
  registry : Nat
  provider : Nat
  shortName : String
deriving DecidableEq, Repr

/- Who writes the notes of a provider. -/
def Context.origin
    (cx : Context) : Origin :=
  .registry cx.registry cx.shortName

/-
  An event as a handler sees it.  `current` is the node that
  the handler runs for.
-/
structure PageEvent where
  name : String
  target : NodeId
  current : NodeId
deriving DecidableEq, Repr

/- What a recorder saw of an event. -/
structure Hearing where
  label : String
  event : PageEvent
  text : String
deriving DecidableEq, Repr

------------------------------------------------------------
-- Effects
------------------------------------------------------------

/- What a computation does besides giving a result. -/
inductive Effect where
  | note (origin : Origin) (level : Level) (message : String)
  | heard (hearing : Hearing)
  | ran (provider : Nat)
  | push (context : Context) (payload : Payload)

end MarkupMetrics
