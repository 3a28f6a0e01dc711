import MarkupMetrics.Payload

/-
  This file defines the configuration of a registry and how
  it is read from a structured value.

  Fields may be given by name, each at most once, or as a
  list in declaration order.  What is not given keeps its
  default, and names that are not fields are skipped.

  Key definitions include:
    * `Config`
    * `FieldValue`
    * `Config.ofFields?`
    * `Config.ofItems?`
    * `Config.ofPayload?`
-/

namespace MarkupMetrics

------------------------------------------------------------
-- Configuration
------------------------------------------------------------

/-
  The configuration of a registry.  `debug` emits diagnostics,
  `enabled` lets payloads reach transports, `eventAttribute`
  declares events and `conditionAttribute` guards them.
-/
structure Config where
  debug : Bool := false
  enabled : Bool := true
  eventAttribute : String := "data-metric-event"
  conditionAttribute : String := "data-metric-condition"
deriving DecidableEq, Repr

------------------------------------------------------------
-- Reading fields
------------------------------------------------------------

/- A value as far as a configuration can use it. -/
inductive FieldValue where
  | flag (value : Bool)
  | text (value : String)
  | other
deriving DecidableEq, Repr

/- What a field value is to a configuration. -/
def FieldValue.ofPayload : Payload → FieldValue
  | .bool b => .flag b
  | .text s => .text s
  | _ => .other

/- A flag that may be missing. -/
def flagOr
    (default : Bool) : List FieldValue → Option Bool
  | [] => some default
  | [.flag b] => some b
  | _ => none

/- A text that may be missing. -/
def textOr
    (default : String) : List FieldValue → Option String
  | [] => some default
  | [.text s] => some s
  | _ => none

namespace Config

/- The values given under a name. -/
def valuesOf
    (name : String)
    (fields : List (String × FieldValue)) : List FieldValue :=
  (fields.filter fun f => f.1 == name).map Prod.snd

/-
  Read a configuration from named fields.  A field given
  twice is refused.
-/
def ofFields?
    (fields : List (String × FieldValue)) : Option Config := do
  let base : Config := {}
  let debug ← flagOr base.debug (valuesOf "debug" fields)
  let enabled ← flagOr base.enabled (valuesOf "enabled" fields)
  let event ←
    textOr base.eventAttribute
      (valuesOf "event_attribute" fields)
  let condition ←
    textOr base.conditionAttribute
      (valuesOf "condition_attribute" fields)
  return ⟨debug, enabled, event, condition⟩

/- Read a configuration from a list of field values. -/
def ofItems?
    (items : List FieldValue) : Option Config := do
  let base : Config := {}
  let debug ← flagOr base.debug (items.take 1)
  let enabled ← flagOr base.enabled ((items.drop 1).take 1)
  let event ←
    textOr base.eventAttribute ((items.drop 2).take 1)
  let condition ←
    textOr base.conditionAttribute ((items.drop 3).take 1)
  if items.length ≤ 4 then
    return ⟨debug, enabled, event, condition⟩
  else
    none

/- Read a configuration from a structured value. -/
def ofPayload? : Payload → Option Config
  | .object fields =>
      ofFields? (fields.map fun f => (f.1, .ofPayload f.2))
  | .list items => ofItems? (items.map .ofPayload)
  | _ => none

end Config

end MarkupMetrics
