import MarkupMetrics.Dom.Tree
import MarkupMetrics.Text.Blank

/-
  This file defines how elements stand to each other: the
  parent element, the element siblings on both sides, and the
  element children.  Text and comment nodes are passed over.

  Key definitions include:
    * `Tree.elementAt?`
    * `Tree.parentElement?`
    * `Tree.precedingElements`
    * `Tree.followingElements`
    * `Tree.previousElement?`
    * `Tree.nextElement?`
    * `Tree.firstElementChild?`
    * `Tree.ancestorElements`
    * `Tree.hasNoContent`
    * `Tree.isRoot`
    * `Element.hasClass`
-/

namespace MarkupMetrics

namespace Dom

namespace Element

/- The words of the `class` attribute. -/
def classes
    (e : Element) : List String :=
  match e.attr? "class" with
  | some value =>
      (Text.wordsBy Text.isAsciiBlank value.toList).map
        String.ofList
  | none => []

/- Whether the `class` attribute has a word. -/
def hasClass
    (e : Element)
    (name : String) : Bool :=
  e.classes.contains name

end Element

namespace Tree

------------------------------------------------------------
-- Elements
------------------------------------------------------------

/- The element data of a node, if it is an element. -/
def elementAt?
    (t : Tree)
    (id : NodeId) : Option Element :=
  (t.get? id).bind Node.element?

/- Whether a node is an element. -/
def isElement
    (t : Tree)
    (id : NodeId) : Bool :=
  (t.elementAt? id).isSome

/- The parent link of a node. -/
def parent?
    (t : Tree)
    (id : NodeId) : Option NodeId :=
  (t.get? id).bind (·.parent)

/- The child list of a node. -/
def childrenOf
    (t : Tree)
    (id : NodeId) : List NodeId :=
  match t.get? id with
  | some n => n.children
  | none => []

/- The parent of a node, if that is an element. -/
def parentElement?
    (t : Tree)
    (id : NodeId) : Option NodeId :=
  (t.parent? id).filter t.isElement

/- Parent elements, nearest first, at most `fuel` of them. -/
def climbElements
    (t : Tree) : Nat → NodeId → List NodeId
  | 0, _ => []
  | fuel + 1, id =>
      match t.parentElement? id with
      | some p => p :: climbElements t fuel p
      | none => []

/- The elements above an element, nearest first. -/
def ancestorElements
    (t : Tree)
    (id : NodeId) : List NodeId :=
  t.climbElements t.slots.size id

------------------------------------------------------------
-- Siblings
------------------------------------------------------------

/- The child list a node stands in. -/
def siblings
    (t : Tree)
    (id : NodeId) : List NodeId :=
  match t.parent? id with
  | some p => t.childrenOf p
  | none => []

/- The elements before a node in its child list, nearest first. -/
def precedingElements
    (t : Tree)
    (id : NodeId) : List NodeId :=
  let all := t.siblings id
  match all.findIdx? (· == id) with
  | some i => (all.take i).reverse.filter t.isElement
  | none => []

/- The elements after a node in its child list, nearest first. -/
def followingElements
    (t : Tree)
    (id : NodeId) : List NodeId :=
  let all := t.siblings id
  match all.findIdx? (· == id) with
  | some i => (all.drop (i + 1)).filter t.isElement
  | none => []

/- The nearest element before a node. -/
def previousElement?
    (t : Tree)
    (id : NodeId) : Option NodeId :=
  (t.precedingElements id).head?

/- The nearest element after a node. -/
def nextElement?
    (t : Tree)
    (id : NodeId) : Option NodeId :=
  (t.followingElements id).head?

/- The first child that is an element. -/
def firstElementChild?
    (t : Tree)
    (id : NodeId) : Option NodeId :=
  (t.childrenOf id).find? t.isElement

------------------------------------------------------------
-- Standing
------------------------------------------------------------

/- Whether a node adds nothing to its parent's content. -/
def isVoid
    (t : Tree)
    (id : NodeId) : Bool :=
  match t.get? id with
  | none => true
  | some n =>
      match n.data with
      | .element _ => false
      | .text content => content == ""
      | .document => true
      | .comment => true

/- Whether a node has neither element children nor text. -/
def hasNoContent
    (t : Tree)
    (id : NodeId) : Bool :=
  (t.childrenOf id).all t.isVoid

/- Whether a node is a child of the document. -/
def isRoot
    (t : Tree)
    (id : NodeId) : Bool :=
  match (t.parent? id).bind t.get? with
  | some p => p.data == .document
  | none => false

/- Whether two elements have the same name and namespace. -/
def isSameType
    (t : Tree)
    (x y : NodeId) : Bool :=
  match t.elementAt? x, t.elementAt? y with
  | some e, some f =>
      e.name.local_ == f.name.local_ &&
        e.name.space == f.name.space
  | _, _ => false

end Tree

end Dom

end MarkupMetrics
