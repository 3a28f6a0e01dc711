import MarkupMetrics.Dom.Edit

/-
  This file defines the calls by which a tree is built from
  a page.

  Text that is put behind other text joins it, so how a page
  is cut into runs of text leaves no trace in the tree.

  A call names its nodes by references of any type; a tree
  answers calls that name them by id.

  Key definitions include:
    * `Content`
    * `TreeCall`
    * `TreeCall.mapM`
    * `Tree.unlink`
    * `Tree.appendContent`
    * `Tree.insertContentBefore`
    * `TreeCall.run`
-/

namespace MarkupMetrics

namespace Html

open Dom

------------------------------------------------------------
-- Calls
------------------------------------------------------------

/- What is put into a child list: a node, or a run of text. -/
inductive Content (ν : Type) where
  | node (id : ν)
  | text (content : String)
deriving DecidableEq, Repr

/-
  A step in building a tree.  `appendBased` stands for a
  place before an element if that has a parent, else at the
  end of another element.
-/
inductive TreeCall (ν : Type) where
  | createElement (name : QualName) (attrs : List Attribute)
  | createComment
  | append (parent : ν) (content : Content ν)
  | appendBefore (sibling : ν) (content : Content ν)
  | appendBased (element previous : ν) (content : Content ν)
  | addAttributes (element : ν) (attrs : List Attribute)
  | unlink (node : ν)
  | moveChildren (source target : ν)
deriving DecidableEq, Repr

/- Replace the reference in some content. -/
def Content.mapM
    {ν μ : Type}
    {m : Type → Type}
    [Monad m]
    (f : ν → m μ) : Content ν → m (Content μ)
  | .node id => do return .node (← f id)
  | .text content => pure (.text content)

/- Replace the references in a call. -/
def TreeCall.mapM
    {ν μ : Type}
    {m : Type → Type}
    [Monad m]
    (f : ν → m μ) : TreeCall ν → m (TreeCall μ)
  | .createElement name attrs => pure (.createElement name attrs)
  | .createComment => pure .createComment
  | .append parent content => do
      return .append (← f parent) (← content.mapM f)
  | .appendBefore sibling content => do
      return .appendBefore (← f sibling) (← content.mapM f)
  | .appendBased element previous content => do
      return .appendBased (← f element) (← f previous)
        (← content.mapM f)
  | .addAttributes element attrs => do
      return .addAttributes (← f element) attrs
  | .unlink node => do return .unlink (← f node)
  | .moveChildren source target => do
      return .moveChildren (← f source) (← f target)

end Html

------------------------------------------------------------
-- Edits
------------------------------------------------------------

namespace Dom

namespace Tree

open Html

/- Take a node out of its place; a missing node has none. -/
def unlink
    (t : Tree)
    (id : NodeId) : Tree :=
  match t.get? id with
  | none => t
  | some n =>
      match n.parent with
      | none => t
      | some p => (t.dropChild p id).setParent id none

/-
  Add text at the end of a node that may stand just before
  it.  There is no result if there is no text node to join.
-/
def joinText?
    (t : Tree)
    (before : Option NodeId)
    (content : String) : Except Fault (Option Tree) :=
  match before with
  | some id => t.appendText? id content
  | none => .ok none

/- Put content at the end of a child list. -/
def appendContent
    (t : Tree)
    (parent : NodeId) : Content NodeId → Except Fault Tree
  | .node id => t.append parent [id]
  | .text content => do
      let last ← t.lastChild? parent
      match ← t.joinText? last content with
      | some t => return t
      | none =>
          let (t, id) := t.create (.text content)
          t.append parent [id]

/- Put content before a node. -/
def insertContentBefore
    (t : Tree)
    (sibling : NodeId) : Content NodeId → Except Fault Tree
  | .node id => t.insertBefore sibling [id]
  | .text content => do
      let previous ← t.previousSibling? sibling
      match ← t.joinText? previous content with
      | some t => return t
      | none =>
          let (t, id) := t.create (.text content)
          t.insertBefore sibling [id]

end Tree

end Dom

------------------------------------------------------------
-- Running
------------------------------------------------------------

namespace Html

open Dom

/-
  Carry out a call.  A call that makes a node also gives its
  id.
-/
def TreeCall.run
    (t : Tree) :
    TreeCall NodeId → Except Fault (Tree × Option NodeId)
  | .createElement name attrs =>
      let (t, id) := t.create (.element ⟨name, attrs⟩)
      .ok (t, some id)
  | .createComment =>
      let (t, id) := t.create .comment
      .ok (t, some id)
  | .append parent content => do
      return (← t.appendContent parent content, none)
  | .appendBefore sibling content => do
      return (← t.insertContentBefore sibling content, none)
  | .appendBased element previous content => do
      if ← t.hasParent element then
        return (← t.insertContentBefore element content, none)
      else
        return (← t.appendContent previous content, none)
  | .addAttributes element attrs => do
      return (← t.addAttributes element attrs, none)
  | .unlink node => .ok (t.unlink node, none)
  | .moveChildren source target => do
      return (← t.reparent source target, none)

end Html

end MarkupMetrics
