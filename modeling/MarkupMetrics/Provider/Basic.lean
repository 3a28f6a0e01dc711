import MarkupMetrics.Extractor.Value
import MarkupMetrics.Provider.Methods

/-
  This file defines providers, the adapters to analytics
  services.

  A provider names the attribute that declares a method on an
  element, and holds a builder of handlers for each method.
  A builder may decline an element.

  A provider can ask whether its diagnostics are on, when it
  builds a handler and each time the handler runs.

  Key definitions include:
    * `RawHandler`
    * `HandlerBuilder`
    * `Provider`
    * `Context.push`
    * `PushData`
    * `pushHandler`
    * `Context.extract`
-/

namespace MarkupMetrics

open Dom

------------------------------------------------------------
-- Providers
------------------------------------------------------------

/-
  What is done when an event reaches a handler.  It is given
  whether diagnostics are on then.
-/
abbrev RawHandler :=
  Bool → Tree → PageEvent → Trace Unit

/-
  Builds the handler for an element, or declines.  It is given
  whether diagnostics are on then.
-/
abbrev HandlerBuilder :=
  Context → Bool → Tree → NodeId → Trace (Option RawHandler)

/- An adapter to an analytics service. -/
structure Provider where
  name : String
  shortName : String
  methodAttribute : String
  methods : MethodTable HandlerBuilder

------------------------------------------------------------
-- Pushing
------------------------------------------------------------

/- Send a payload to the service. -/
def Context.push
    (cx : Context)
    (payload : Payload) : Trace Unit :=
  Trace.emit (.push cx payload)

/- Write a note on behalf of the provider. -/
def Context.note
    (cx : Context)
    (level : Level)
    (message : String) : Trace Unit :=
  Trace.note cx.origin level message

/- Read a value below a node on behalf of the provider. -/
def Context.extract
    (cx : Context)
    (t : Tree)
    (scope : NodeId)
    (value : String) : Trace (Option String) :=
  extractValue cx.origin t (some scope) value

/-
  What a handler sends: a payload that is known, or one that
  is found when the event comes.
-/
inductive PushData where
  | literal (payload : Payload)
  | deferred (find : Bool → Tree → PageEvent → Trace Payload)

/- The payload that is sent for an event. -/
def PushData.resolve
    (data : PushData)
    (debug : Bool)
    (t : Tree)
    (event : PageEvent) : Trace Payload :=
  match data with
  | .literal payload => return payload
  | .deferred find => find debug t event

/- The handler that sends some data each time it runs. -/
def pushHandler
    (cx : Context)
    (data : PushData) : RawHandler :=
  fun debug t event => do
    cx.push (← data.resolve debug t event)

end MarkupMetrics
