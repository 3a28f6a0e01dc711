import MarkupMetrics.Dom.Graft
import MarkupMetrics.Dom.Walk
import MarkupMetrics.Html.Lexer
import MarkupMetrics.Html.Rules
import MarkupMetrics.Html.Source
import MarkupMetrics.Selector.Matching

/-
  This file reads pages: the text of a page becomes the calls
  that build its tree, and these are carried out on a tree.

  A call that names a missing node is a fault, and so is one
  that would put a node below itself.

  Key definitions include:
    * `Progress`
    * `feed`
    * `readPage`
    * `pageCalls`
    * `Tree.admits`
    * `Assembly`
    * `Assembly.take`
    * `Tree.addPage`
    * `Tree.ofPage`
    * `Tree.appendPage`
-/

namespace MarkupMetrics

namespace Html

open Dom

------------------------------------------------------------
-- From text to calls
------------------------------------------------------------

/-
  How the text after a token is read, and whether reading
  starts anew there.
-/
structure Progress where
  around : Surroundings := {}
  anew : Bool := false
deriving DecidableEq, Repr

/-
  Take a token, and give how the text after it is read.  An
  end tag ends every special kind of text.
-/
def feed
    (progress : Progress)
    (token : Token) : Build Progress := do
  let outcome ← Rules.takeToken token
  let around := progress.around
  let around : Surroundings :=
    match token, outcome with
    | .startTag t, .readAs kind =>
        { around with kind, element := t.name }
    | .endTag _, _ => { around with kind := .data }
    | _, _ => around
  return { around, anew := outcome = .readAnew }

/-
  Read the rest of a source to its end.  The fuel bounds the
  number of steps; one more than the length of the rest is
  enough.
-/
def readPage
    (source : Source) :
    Nat → Surroundings → List Char → Build Unit
  | 0, _, _ => return
  | _ + 1, _, [] => do
      let _ ← Rules.takeToken .eof
  | fuel + 1, around, s => do
      let foreign :=
        (← get).currentIs fun n => n.space != .html
      let (tokens, rest) :=
        readToken { around with sections := foreign } s
      let progress ← tokens.foldlM feed { around }
      let rest :=
        if progress.anew then source.resume rest else rest
      readPage source fuel progress.around rest

/- The calls that build the tree of a page, in order. -/
def pageCalls
    (html : String) :
    Except Fault (List (TreeCall Handle)) := do
  let source := Source.ofText html
  let s := source.text
  let (_, b) ← (readPage source (s.length + 1) {} s).run {}
  return b.calls.reverse

------------------------------------------------------------
-- From calls to a tree
------------------------------------------------------------

end Html

namespace Dom

namespace Tree

open Html

/-
  Whether a node is another one or below it.  Where the way
  up has no end it counts as below.
-/
def isWithin
    (t : Tree)
    (id top : NodeId) : Bool :=
  match t.chain id with
  | .ok above => above.contains top
  | .error _ => true

/- The node that would become the parent of new content. -/
def newParent?
    (t : Tree) : TreeCall NodeId → Option NodeId
  | .append parent _ => some parent
  | .appendBefore sibling _ => (t.get? sibling).bind (·.parent)
  | .appendBased element previous _ =>
      match (t.get? element).bind (·.parent) with
      | some parent => some parent
      | none => some previous
  | _ => none

/- Whether a call keeps every node from standing below itself. -/
def admits
    (t : Tree)
    (call : TreeCall NodeId) : Bool :=
  match call with
  | .append _ (.node id)
  | .appendBefore _ (.node id)
  | .appendBased _ _ (.node id) =>
      match t.newParent? call with
      | some parent => !t.isWithin parent id
      | none => true
  | .moveChildren source target =>
      source == target || !t.isWithin target source
  | _ => true

end Tree

end Dom

namespace Html

open Dom

/- A tree, and the nodes that calls have made in it. -/
structure Assembly where
  tree : Tree
  made : Array NodeId := #[]
deriving DecidableEq, Repr

namespace Assembly

/- The node that a handle stands for. -/
def resolve
    (a : Assembly) : Handle → Except Fault NodeId
  | 0 => .ok 0
  | n + 1 =>
      match a.made[n]? with
      | some id => .ok id
      | none => .error (.missingNode (n + 1))

/- Carry out a call. -/
def take
    (a : Assembly)
    (call : TreeCall Handle) : Except Fault Assembly := do
  let call ← call.mapM a.resolve
  if !a.tree.admits call then
    throw .endless
  match ← call.run a.tree with
  | (tree, none) => return { a with tree }
  | (tree, some id) => return ⟨tree, a.made.push id⟩

end Assembly

end Html

namespace Dom

namespace Tree

open Html

/- Read a page into a tree that may hold other nodes. -/
def addPage
    (t : Tree)
    (html : String) : Except Fault Tree := do
  let calls ← pageCalls html
  let a ← calls.foldlM Assembly.take { tree := t }
  return a.tree

/- The tree of a page. -/
def ofPage
    (html : String) : Except Fault Tree :=
  empty.addPage html

/- The selector of the body of a page. -/
def bodySelector : Selector.SelectorList :=
  [.compound [.localName "body"]]

/-
  Add copies of what the body of a page holds at the end of
  a node, and give their ids.  A page without body adds
  nothing.
-/
def appendPage
    (t : Tree)
    (parent : NodeId)
    (html : String) : Except Fault (Tree × List NodeId) := do
  let page ← ofPage html
  match (← Selector.findAll page 0 bodySelector).head? with
  | none => return (t, [])
  | some body =>
      let n ← page.node body
      let shapes ← n.children.mapM page.shape
      t.graft parent shapes

end Tree

end Dom

end MarkupMetrics
