import MarkupMetrics.Dom.Walk
import MarkupMetrics.Extractor.Basic
import MarkupMetrics.Selector.Query

/-
  This file defines what an extractor reads from a page.

  A selector that is not global is resolved below the node in
  scope.  Without a node in scope it selects nothing.

  Key definitions include:
    * `Extractor.select`
    * `Extractor.extract`
    * `Extractor.read?`
    * `extractValue`
-/

namespace MarkupMetrics

open Dom Text

namespace Extractor

/- The nodes that an extractor reads from. -/
def select
    (x : Extractor)
    (t : Tree)
    (scope : Option NodeId) : Trace (List NodeId) :=
  if x.selector = "" then
    return scope.toList
  else if x.global then
    t.queryAll x.selector
  else
    match scope with
    | some id => t.find id x.selector
    | none => return []

/-
  The value that an extractor reads: the texts of all nodes
  in a row, or the attribute of the first node.
-/
def extract
    (x : Extractor)
    (t : Tree)
    (scope : Option NodeId) : Trace (Option String) := do
  let nodes ← x.select t scope
  match x.reading with
  | .text => return some (← t.textOfAll nodes)
  | .attribute name =>
      return nodes.head?.bind (t.attr? · name)

/- The extractor that a text stands for, if it is one. -/
def read?
    (log : Origin)
    (value : String) : Trace (Option Extractor) :=
  match Extractor.parse value with
  | .ok x => return some x
  | .error e => do
      Trace.note log .warn
        ("Cannot parse extractor " ++ quote value ++ ": " ++
          e.message)
      return none

end Extractor

/- The value of a literal, or of an extractor on a page. -/
def extractValue
    (log : Origin)
    (t : Tree)
    (scope : Option NodeId)
    (value : String) : Trace (Option String) := do
  match literal? value with
  | some s => return some s
  | none =>
      match ← Extractor.read? log value with
      | some x => x.extract t scope
      | none => return none

end MarkupMetrics
