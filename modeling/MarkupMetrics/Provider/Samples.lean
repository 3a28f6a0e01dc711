import MarkupMetrics.Provider.Basic
import MarkupMetrics.Text.Digits

/-
  This file defines sample providers.

  Key definitions include:
    * `Recipe`
    * `Recipe.builder`
    * `Provider.custom`
    * `Provider.counting`
    * `Provider.trackers`
    * `Provider.properties`
-/

namespace MarkupMetrics

open Dom Text

------------------------------------------------------------
-- Recipes
------------------------------------------------------------

/-
  A way to build handlers: send a payload, send values of the
  page, send an attribute that the element must have, write a
  note, or decline.
-/
inductive Recipe where
  | literal (payload : Payload)
  | deferred (values : List String)
  | require (name : String)
  | log (message : String)
  | decline

namespace Recipe

/- The values that a deferred recipe sends. -/
def deferredPayload
    (method : String)
    (values : List String)
    (cx : Context)
    (_ : Bool)
    (t : Tree)
    (event : PageEvent) : Trace Payload := do
  let found ← values.mapM (cx.extract t event.current)
  return .list
    ([.text method, .text cx.shortName, .text event.name,
        .nat event.target, .nat event.current] ++
      found.map Payload.optText)

/- The builder of a recipe for a method. -/
def builder
    (method : String)
    (r : Recipe) : HandlerBuilder :=
  fun cx _ t element =>
    match r with
    | .literal payload =>
        return some (pushHandler cx (.literal payload))
    | .deferred values =>
        return some
          (pushHandler cx
            (.deferred (deferredPayload method values cx)))
    | .require name =>
        return (t.attr? element name).map fun value =>
          pushHandler cx
            (.literal (.list [.text name, .text value]))
    | .log message => do
        cx.note .info ("building " ++ decimalText element)
        return some fun _ _ event =>
          cx.note .error
            (message ++ " " ++ decimalText event.current)
    | .decline => return none

end Recipe

------------------------------------------------------------
-- Providers
------------------------------------------------------------

namespace Provider

/- A provider with methods by recipe, inserted in order. -/
def custom
    (name shortName methodAttribute : String)
    (methods : List (String × Recipe)) : Provider :=
  { name
    shortName
    methodAttribute
    methods :=
      MethodTable.ofList
        (methods.map fun m => (m.1, m.2.builder m.1)) }

/- The handler that notes each run and sends the short name. -/
def countingHandler
    (cx : Context) : RawHandler :=
  fun debug t event => do
    Trace.emit (.ran cx.provider)
    pushHandler cx
      (.literal (.list [.text "test", .text cx.shortName]))
      debug t event

/- A provider whose only method notes each run. -/
def counting
    (shortName : String) : Provider :=
  { name := "Test provider"
    shortName
    methodAttribute := "data-" ++ shortName ++ "-method"
    methods :=
      MethodTable.ofList
        [("test", fun cx _ _ _ =>
          return some (countingHandler cx))] }

/- The value that an optional source stands for. -/
def extractOptional
    (cx : Context)
    (t : Tree)
    (event : PageEvent)
    (source : Option String) : Trace Payload :=
  match source with
  | none => return .null
  | some source => do
      return .optText (← cx.extract t event.current source)

/- Tracks an event with a category and an action. -/
def trackEvent : HandlerBuilder :=
  fun cx _ t element => do
    match t.attr? element "data-gaq-category" with
    | none =>
        cx.note .warn "Attribute data-gaq-category is required"
        return none
    | some category =>
        match t.attr? element "data-gaq-action" with
        | none => return none
        | some action =>
            let label := t.attr? element "data-gaq-label"
            let value := t.attr? element "data-gaq-value"
            return some <| pushHandler cx <| .deferred
              fun _ t event => do
                let label ← extractOptional cx t event label
                let value ← extractOptional cx t event value
                return .list
                  [.text "_trackEvent", .text category,
                    .text action, label, value]

/- Tracks an action on a social network. -/
def trackSocial : HandlerBuilder :=
  fun cx _ t element => do
    match t.attr? element "data-gaq-network",
        t.attr? element "data-gaq-action" with
    | some network, some action =>
        let target := t.attr? element "data-gaq-target"
        return some <| pushHandler cx <| .literal <| .list
          [.text "_trackSocial", .text network, .text action,
            .optText target]
    | _, _ => return none

/- A provider that tracks events and social actions. -/
def trackers : Provider :=
  { name := "Google Analytics"
    shortName := "GA"
    methodAttribute := "data-gaq-method"
    methods :=
      MethodTable.ofList
        [("event", trackEvent), ("social", trackSocial)] }

/-
  The name and the source of a property `name => source`, if
  it is one.
-/
def splitProperty?
    (s : List Char) : Option (String × String) :=
  (cutText? ['=', '>'] s).map fun cut =>
    (String.ofList (trim cut.1), String.ofList (trim cut.2))

/- The values of the properties, as they are now. -/
def recordProperties
    (cx : Context)
    (t : Tree)
    (event : PageEvent)
    (properties : String) : Trace Payload := do
  let pairs :=
    (pieces (· == ',') properties.toList).filterMap
      splitProperty?
  let fields ← pairs.mapM fun p => do
    return (p.1, Payload.optText
      (← cx.extract t event.current p.2))
  return Payload.record fields

/- Records a name with properties. -/
def recordName : HandlerBuilder :=
  fun cx _ t element =>
    match t.attr? element "data-kmq-name" with
    | none => return none
    | some name =>
        let properties :=
          (t.attr? element "data-kmq-properties").getD ""
        return some <| pushHandler cx <| .deferred
          fun _ t event => do
            let fields ← recordProperties cx t event properties
            return .list [.text "record", .text name, fields]

/- A provider that records names with properties. -/
def properties : Provider :=
  { name := "KissMetrics"
    shortName := "KM"
    methodAttribute := "data-kmq-method"
    methods := MethodTable.ofList [("record", recordName)] }

end Provider

end MarkupMetrics
