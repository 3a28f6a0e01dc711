import MarkupMetrics.Selector.Error
import MarkupMetrics.Selector.Matching
import MarkupMetrics.Selector.Parser
import MarkupMetrics.Trace

/-
  This file defines queries by the text of a selector.  A
  text that is not a selector matches nothing and leaves a
  note.

  Key definitions include:
    * `Selector.read?`
    * `Tree.matches`
    * `Tree.find`
    * `Tree.queryAll`
    * `Tree.query?`
-/

namespace MarkupMetrics

namespace Selector

open Text

/- The selector that a text stands for, if it is one. -/
def read?
    (source : String) : Trace (Option SelectorList) :=
  match Selector.parse source with
  | .ok list => return some list
  | .error e => do
      Trace.note .page .warn
        ("Invalid selector " ++ quote source ++ ": " ++ e.message)
      return none

end Selector

namespace Dom

namespace Tree

open Selector

/- Whether a node matches a selector. -/
def «matches»
    (t : Tree)
    (id : NodeId)
    (source : String) : Trace Bool := do
  match ← Selector.read? source with
  | some list => return matchesList t list id
  | none => return false

/- The nodes below a scope that match, in document order. -/
def find
    (t : Tree)
    (scope : NodeId)
    (source : String) : Trace (List NodeId) := do
  match ← Selector.read? source with
  | some list => Trace.ofExcept (findAll t scope list)
  | none => return []

/- The nodes of the document that match. -/
def queryAll
    (t : Tree)
    (source : String) : Trace (List NodeId) :=
  t.find 0 source

/- The first node of the document that matches. -/
def query?
    (t : Tree)
    (source : String) : Trace (Option NodeId) := do
  return (← t.queryAll source).head?

end Tree

end Dom

end MarkupMetrics
