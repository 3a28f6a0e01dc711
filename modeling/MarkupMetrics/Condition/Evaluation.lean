import MarkupMetrics.Condition.Basic
import MarkupMetrics.Dom.Walk
import MarkupMetrics.Selector.Query

/-
  This file defines when a condition holds on a page.

  A condition looks at the target itself, or at what its
  selector finds.  A missing or empty value makes it false
  under every operator, and leaves a note like every other
  reason why it cannot be evaluated.

  Key definitions include:
    * `Probe`
    * `Probe.run`
    * `Condition.scope`
    * `Condition.evaluate`
    * `Condition.read?`
-/

namespace MarkupMetrics

open Dom Text

------------------------------------------------------------
-- Probes
------------------------------------------------------------

/- What a condition can ask of its nodes. -/
inductive Probe where
  | attribute
  | data
  | text
deriving DecidableEq, Repr

namespace Probe

/- The probe that a method stands for. -/
def ofMethod? : String → Option Probe
  | "attr" => some .attribute
  | "data" => some .data
  | "text" => some .text
  | _ => none

/-
  The value that a probe finds: an attribute of the first
  node, or the texts of all nodes in a row.
-/
def run
    (p : Probe)
    (t : Tree)
    (nodes : List NodeId)
    (argument : String) : Except Fault (Option String) :=
  match p with
  | .attribute => .ok (nodes.head?.bind (t.attr? · argument))
  | .data =>
      .ok (nodes.head?.bind (t.attr? · ("data-" ++ argument)))
  | .text =>
      if nodes.isEmpty then .ok none
      else some <$> t.textOfAll nodes

end Probe

------------------------------------------------------------
-- Evaluation
------------------------------------------------------------

namespace Condition

/- The nodes that a condition looks at. -/
def scope
    (c : Condition)
    (t : Tree)
    (target : NodeId) : Trace (List NodeId) :=
  match c.selector with
  | none => return [target]
  | some selector =>
      if c.global then t.queryAll selector
      else t.find target selector

/- The wording for a value that is missing or empty. -/
def missingValue
    (c : Condition)
    (target : NodeId) : String :=
  "Null value for " ++ c.method ++ "(" ++ c.left ++
    ") on node " ++ decimalText target

/- Whether a condition holds for a target. -/
def evaluate
    (c : Condition)
    (log : Origin)
    (t : Tree)
    (target : NodeId) : Trace Bool := do
  match Probe.ofMethod? c.method with
  | none =>
      Trace.note log .error
        ("Method " ++ c.method ++
          " is not supported in conditions")
      return false
  | some probe =>
      let nodes ← c.scope t target
      match (← probe.run t nodes c.left).filter (· != "") with
      | none =>
          Trace.note log .error (c.missingValue target)
          return false
      | some value =>
          match Operator.parse? c.operator with
          | some op => return op.compare value c.right
          | none =>
              Trace.note log .error
                (Operator.unsupportedMessage c.operator)
              return false

/- The condition that a text stands for, if it is one. -/
def read?
    (log : Origin)
    (value : String) : Trace (Option Condition) :=
  match Condition.parse value with
  | .ok c => return some c
  | .error e => do
      Trace.note log .warn
        ("Cannot parse condition " ++ quote value ++ ": " ++
          e.message)
      return none

end Condition

end MarkupMetrics
