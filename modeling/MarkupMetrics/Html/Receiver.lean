import MarkupMetrics.Html.Doctype
import MarkupMetrics.Html.TreeCall

/-
  This file defines the receiving end of tree construction:
  a tree that grows by calls, the complaints about the page,
  and the rendering mode.

  Key definitions include:
    * `Receiver`
    * `Request`
    * `Answer`
    * `Receiver.answer`
-/

namespace MarkupMetrics

namespace Html

open Dom

/- A tree under construction. -/
structure Receiver where
  tree : Tree
  complaints : List String := []
  mode : RenderingMode := .standard
deriving DecidableEq, Repr

/- What can be asked of a receiver. -/
inductive Request where
  | build (call : TreeCall NodeId)
  | root
  | contents (node : NodeId)
  | name (node : NodeId)
  | same (one other : NodeId)
  | declare
  | complain (message : String)
  | setMode (mode : RenderingMode)
deriving DecidableEq, Repr

/- What a receiver answers. -/
inductive Answer where
  | nothing
  | node (id : NodeId)
  | name (text : String)
  | truth (value : Bool)
deriving DecidableEq, Repr

namespace Receiver

/- A receiver for an existing tree. -/
def ofTree
    (t : Tree) : Receiver :=
  { tree := t }

/-
  Answer one request.  The document node has id 0, and the
  contents of a template are the template itself.
-/
def answer
    (r : Receiver) :
    Request → Except Fault (Receiver × Answer)
  | .build call => do
      let (tree, made) ← call.run r.tree
      let answer :=
        match made with
        | some id => Answer.node id
        | none => .nothing
      return ({ r with tree }, answer)
  | .root => .ok (r, .node 0)
  | .contents node => .ok (r, .node node)
  | .name node => do
      let name ← r.tree.elementName node
      return (r, .name name.local_)
  | .same one other => .ok (r, .truth (one == other))
  | .declare => .ok (r, .nothing)
  | .complain message =>
      .ok ({ r with complaints := r.complaints ++ [message] },
        .nothing)
  | .setMode mode => .ok ({ r with mode }, .nothing)

end Receiver

end Html

end MarkupMetrics
