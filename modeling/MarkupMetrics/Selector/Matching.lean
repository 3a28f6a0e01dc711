import MarkupMetrics.Dom.Kin
import MarkupMetrics.Dom.Walk
import MarkupMetrics.Html.Doctype
import MarkupMetrics.Selector.Parser

/-
  This file defines when an element of a tree matches a
  selector, and the search for the elements that do.

  A complex selector is matched from the right: the element
  has to match the last compound, and some element that
  stands to it as the combinator says has to match the rest.

  Whether letter case counts for classes and ids depends on a
  rendering mode.  Pages are matched as if rendered by the
  standard, whatever mode they ask for.

  Key definitions include:
    * `AttrCompare.holds`
    * `AttrTest.holds`
    * `CaseSensitivity`
    * `carriesId`
    * `carriesClass`
    * `Nth.holds`
    * `related`
    * `Simple.holds`
    * `Complex.holds`
    * `listHolds`
    * `matchesList`
    * `findAll`
-/

namespace MarkupMetrics

namespace Selector

open Dom Text

------------------------------------------------------------
-- Texts
------------------------------------------------------------

/- Characters as a comparison sees them. -/
def fold
    (caseless : Bool)
    (s : String) : List Char :=
  if caseless then s.toList.map Char.toLower else s.toList

/-
  Compare a value with the given one.  The words of a value
  are the pieces between its blanks, so an empty value has
  an empty word.
-/
def AttrOperator.holds
    (op : AttrOperator)
    (value given : List Char) : Bool :=
  match op with
  | .equal => value == given
  | .word => (pieces isAsciiBlank value).contains given
  | .dash => value == given || (given ++ ['-']).isPrefixOf value
  | .starts => given.isPrefixOf value
  | .ends => given.isSuffixOf value
  | .within => occursIn given value

/- Whether a comparison holds of a value. -/
def AttrCompare.holds
    (c : AttrCompare)
    (onHtml : Bool)
    (value : String) : Bool :=
  let caseless :=
    c.caseRule == .insensitive ||
      (c.caseRule == .byElement && onHtml)
  c.operator.holds (fold caseless value) (fold caseless c.value)

------------------------------------------------------------
-- Elements
------------------------------------------------------------

/- Whether an element is an HTML element. -/
def onHtml
    (e : Element) : Bool :=
  e.name.space == .html

/- A written name as it is compared on an element. -/
def nameFor
    (e : Element)
    (name : String) : String :=
  if onHtml e then lower name else name

/-
  Whether some attribute of an element passes a test.  A name
  with a comparison and no lower-case form of its own is
  taken as written.
-/
def AttrTest.holds
    (t : AttrTest)
    (e : Element) : Bool :=
  e.attrs.any fun a =>
    (t.anySpace || a.name.space == .none) &&
      a.name.local_ == nameFor e t.name &&
      match t.compare with
      | none => true
      | some c => c.holds (onHtml e) a.value

------------------------------------------------------------
-- Classes and ids
------------------------------------------------------------

/- How classes and ids are compared. -/
inductive CaseSensitivity where
  | sensitive
  | asciiInsensitive
deriving DecidableEq, Repr

namespace CaseSensitivity

/- Letter case does not count if a page is rendered loosely. -/
def ofMode : Html.RenderingMode → CaseSensitivity
  | .loose => .asciiInsensitive
  | .limited => .sensitive
  | .standard => .sensitive

/- Whether a name and a value are the same. -/
def same
    (c : CaseSensitivity)
    (name value : String) : Bool :=
  match c with
  | .sensitive => name.toList == value.toList
  | .asciiInsensitive => fold true name == fold true value

end CaseSensitivity

/- The rendering mode that pages are matched in. -/
def matchingMode : Html.RenderingMode :=
  .standard

/- Whether the `id` attribute is a name. -/
def carriesId
    (e : Element)
    (name : String)
    (c : CaseSensitivity) : Bool :=
  match e.id? with
  | some value => c.same name value
  | none => false

/- Whether a name is one of the words of the `class` attribute. -/
def carriesClass
    (e : Element)
    (name : String)
    (c : CaseSensitivity) : Bool :=
  match e.attr? "class" with
  | some value =>
      (wordsBy isAsciiBlank value.toList).any fun word =>
        c.same name (String.ofList word)
  | none => false

------------------------------------------------------------
-- Positions
------------------------------------------------------------

/-
  Whether some `n` of at least zero gives `a * n + b` as the
  position.  A distance beyond 32 bits is out of reach.
-/
def inProgression
    (a b position : Int) : Bool :=
  let distance := position - b
  if 2147483647 < distance then false
  else if a = 0 then distance == 0
  else distance % a == 0 && 0 ≤ distance / a

/- The position of an element among those before or after it. -/
def position
    (t : Tree)
    (x : NodeId)
    (sameType fromEnd : Bool) : Nat :=
  let others :=
    if fromEnd then t.followingElements x
    else t.precedingElements x
  (if sameType then others.filter (t.isSameType x)
    else others).length + 1

/- Whether an element has one of the positions. -/
def Nth.holds
    (n : Nth)
    (t : Tree)
    (x : NodeId) : Bool :=
  let at_ (sameType fromEnd : Bool) : Bool :=
    inProgression n.a n.b (position t x sameType fromEnd)
  match n.kind with
  | .child => at_ false false
  | .lastChild => at_ false true
  | .ofType => at_ true false
  | .lastOfType => at_ true true
  | .onlyChild => at_ false false && at_ false true
  | .onlyOfType => at_ true false && at_ true true

------------------------------------------------------------
-- Selectors
------------------------------------------------------------

/- The elements that stand to an element as a combinator says. -/
def related
    (t : Tree)
    (k : Combinator)
    (x : NodeId) : List NodeId :=
  match k with
  | .descendant => t.ancestorElements x
  | .child => (t.parentElement? x).toList
  | .nextSibling => (t.previousElement? x).toList
  | .laterSibling => t.precedingElements x

mutual

/- Whether an element matches a simple selector. -/
def Simple.holds
    (t : Tree)
    (x : NodeId)
    (e : Element) : Simple → Bool
  | .anyName => true
  | .noSpace => e.name.space == .none
  | .localName name => e.name.local_ == nameFor e name
  | .id name => carriesId e name (.ofMode matchingMode)
  | .className name =>
      carriesClass e name (.ofMode matchingMode)
  | .attribute test => test.holds e
  | .nth test => test.holds t x
  | .root => t.isRoot x
  | .empty => t.hasNoContent x
  | .scope => t.isRoot x
  | .negation list => !listHolds t x list
  | .host _ => false

/- Whether an element matches simple selectors together. -/
def compoundHolds
    (t : Tree)
    (x : NodeId)
    (e : Element) : List Simple → Bool
  | [] => true
  | s :: rest => s.holds t x e && compoundHolds t x e rest

/- Whether an element matches a complex selector. -/
def Complex.holds
    (t : Tree)
    (x : NodeId) : Complex → Bool
  | .compound parts =>
      match t.elementAt? x with
      | some e => compoundHolds t x e parts
      | none => false
  | .join left k parts =>
      match t.elementAt? x with
      | some e =>
          compoundHolds t x e parts &&
            (related t k x).any fun y => left.holds t y
      | none => false

/- Whether an element matches one of several selectors. -/
def listHolds
    (t : Tree)
    (x : NodeId) : List Complex → Bool
  | [] => false
  | c :: rest => c.holds t x || listHolds t x rest

end

------------------------------------------------------------
-- Search
------------------------------------------------------------

/- Whether a node is an element that matches a list. -/
def matchesList
    (t : Tree)
    (list : SelectorList)
    (id : NodeId) : Bool :=
  listHolds t id list

/- The nodes below a scope that match, in document order. -/
def findAll
    (t : Tree)
    (scope : NodeId)
    (list : SelectorList) : Except Fault (List NodeId) := do
  let below ← t.descendants scope
  return below.filter (matchesList t list)

end Selector

end MarkupMetrics
