import MarkupMetrics.Proofs.Dom.Filling
import MarkupMetrics.Proofs.Selector.Chains
import MarkupMetrics.Selector.Query

/-
  This file proves that matching passes over texts and
  comments.

  What a selector reads of a tree is the elements and their
  relatives, and for `:empty` whether a node has content.  In
  a tree that is filled up with texts and comments the same
  elements match a list that does not ask for `:empty`; if
  only blanks were added, the same elements match any list.

  Key definitions include:
    * `Selector.SameKin`
    * `Selector.listAsksEmpty`

  Key theorems include:
    * `Selector.SameKin.listHolds`
    * `Dom.Tree.Filled.sameKin`
    * `Dom.Tree.Filled.findAll_eq`
-/

namespace MarkupMetrics

open Dom Text

namespace Selector

------------------------------------------------------------
-- Asking for emptiness
------------------------------------------------------------

mutual

/- Whether `:empty` occurs in a simple selector. -/
def Simple.asksEmpty : Simple → Bool
  | .empty => true
  | .negation list => listAsksEmpty list
  | .host inner => inner.asksEmpty
  | _ => false

/- Whether it occurs in a compound. -/
def partsAskEmpty : List Simple → Bool
  | [] => false
  | s :: rest => s.asksEmpty || partsAskEmpty rest

/- Whether it occurs in a complex selector. -/
def Complex.asksEmpty : Complex → Bool
  | .compound parts => partsAskEmpty parts
  | .join left _ parts => left.asksEmpty || partsAskEmpty parts

/- Whether it occurs in one of several selectors. -/
def listAsksEmpty : List Complex → Bool
  | [] => false
  | c :: rest => c.asksEmpty || listAsksEmpty rest

end

------------------------------------------------------------
-- What matching reads
------------------------------------------------------------

/-
  Two trees have the same elements, and these have the same
  relatives.
-/
structure SameKin
    (t t' : Tree) : Prop where
  element : ∀ x, t'.elementAt? x = t.elementAt? x
  parent :
    ∀ x, t.isElement x = true →
      t'.parentElement? x = t.parentElement? x
  ancestors :
    ∀ x, t.isElement x = true →
      t'.ancestorElements x = t.ancestorElements x
  preceding :
    ∀ x, t.isElement x = true →
      t'.precedingElements x = t.precedingElements x
  following :
    ∀ x, t.isElement x = true →
      t'.followingElements x = t.followingElements x
  root :
    ∀ x, t.isElement x = true → t'.isRoot x = t.isRoot x

/- The same elements have no content. -/
def SameEmpty
    (t t' : Tree) : Prop :=
  ∀ x, t.isElement x = true →
    t'.hasNoContent x = t.hasNoContent x

namespace SameKin

variable {t t' : Tree}

theorem related
    (hKin : SameKin t t')
    (k : Combinator)
    {x : NodeId}
    (hElement : t.isElement x = true) :
    Selector.related t' k x = Selector.related t k x := by
  cases k with
  | descendant => exact hKin.ancestors x hElement
  | child => simp [Selector.related, hKin.parent x hElement]
  | nextSibling =>
      simp [Selector.related, Tree.previousElement?,
        hKin.preceding x hElement]
  | laterSibling => exact hKin.preceding x hElement

/- Positions are counted among the same elements. -/
theorem nth
    (hKin : SameKin t t')
    (n : Nth)
    {x : NodeId}
    (hElement : t.isElement x = true) :
    n.holds t' x = n.holds t x := by
  have hType : t'.isSameType x = t.isSameType x := by
    funext y
    simp only [Tree.isSameType, hKin.element]
  have hPosition :
      ∀ sameType fromEnd,
        position t' x sameType fromEnd =
          position t x sameType fromEnd := by
    intro sameType fromEnd
    simp only [position, hType, hKin.preceding x hElement,
      hKin.following x hElement]
  simp only [Nth.holds, hPosition]

end SameKin

------------------------------------------------------------
-- Matching
------------------------------------------------------------

variable {t t' : Tree}

mutual

theorem SameKin.simple
    (hKin : SameKin t t')
    {x : NodeId}
    (hElement : t.isElement x = true)
    (e : Element) :
    (s : Simple) →
      (SameEmpty t t' ∨ s.asksEmpty = false) →
        s.holds t' x e = s.holds t x e
  | .negation list, hEmpty => by
      have hList := hKin.listHolds x list hEmpty
      simp only [Simple.holds, hList]
  | .empty, hEmpty => by
      rcases hEmpty with hSame | hNever
      · exact hSame x hElement
      · cases hNever
  | .nth test, _ => hKin.nth test hElement
  | .root, _ | .scope, _ => hKin.root x hElement
  | .host _, _ | .anyName, _ | .noSpace, _ | .localName _, _
  | .id _, _ | .className _, _ | .attribute _, _ => rfl

theorem SameKin.compound
    (hKin : SameKin t t')
    {x : NodeId}
    (hElement : t.isElement x = true)
    (e : Element) :
    (parts : List Simple) →
      (SameEmpty t t' ∨ partsAskEmpty parts = false) →
        compoundHolds t' x e parts = compoundHolds t x e parts
  | [], _ => rfl
  | s :: rest, hEmpty => by
      rw [partsAskEmpty, Bool.or_eq_false_iff, or_and_left]
        at hEmpty
      have hFirst := hKin.simple hElement e s hEmpty.1
      have hRest := hKin.compound hElement e rest hEmpty.2
      simp only [compoundHolds, hFirst, hRest]

theorem SameKin.complex
    (hKin : SameKin t t')
    (x : NodeId) :
    (c : Complex) →
      (SameEmpty t t' ∨ c.asksEmpty = false) →
        c.holds t' x = c.holds t x
  | .compound parts, hEmpty => by
      rw [Complex.asksEmpty] at hEmpty
      rw [Complex.holds, Complex.holds, hKin.element]
      cases hAt : t.elementAt? x with
      | none => rfl
      | some e =>
          have hElement : t.isElement x = true := by
            simp [Tree.isElement, hAt]
          exact hKin.compound hElement e parts hEmpty
  | .join left k parts, hEmpty => by
      rw [Complex.asksEmpty, Bool.or_eq_false_iff, or_and_left]
        at hEmpty
      rw [Complex.holds, Complex.holds, hKin.element]
      cases hAt : t.elementAt? x with
      | none => rfl
      | some e =>
          have hElement : t.isElement x = true := by
            simp [Tree.isElement, hAt]
          have hParts :=
            hKin.compound hElement e parts hEmpty.2
          have hLeft :=
            fun y => hKin.complex y left hEmpty.1
          simp only [hParts, hKin.related k hElement, hLeft]

/-
  The same nodes match a list, if the same elements have no
  content, or the list does not ask for that.
-/
theorem SameKin.listHolds
    (hKin : SameKin t t')
    (x : NodeId) :
    (list : List Complex) →
      (SameEmpty t t' ∨ listAsksEmpty list = false) →
        Selector.listHolds t' x list = Selector.listHolds t x list
  | [], _ => rfl
  | c :: rest, hEmpty => by
      rw [listAsksEmpty, Bool.or_eq_false_iff, or_and_left]
        at hEmpty
      have hFirst := hKin.complex x c hEmpty.1
      have hRest := hKin.listHolds x rest hEmpty.2
      simp only [Selector.listHolds, hFirst, hRest]

end

end Selector

------------------------------------------------------------
-- Filled trees
------------------------------------------------------------

namespace Dom.Tree.Filled

open Selector

variable {t t' : Tree}

theorem sameKin
    (hFilled : t.Filled t')
    (hLinked : t.Linked)
    (hLinked' : t'.Linked) :
    SameKin t t' where
  element := hFilled.elementAt?_eq
  parent _ hElement :=
    hFilled.parentElement?_eq (contains_of_isElement hElement)
  ancestors _ hElement :=
    hFilled.ancestorElements_eq hLinked hLinked'
      (contains_of_isElement hElement)
  preceding _ hElement :=
    hFilled.precedingElements_eq hLinked hLinked'
      (contains_of_isElement hElement)
  following _ hElement :=
    hFilled.followingElements_eq hLinked hLinked'
      (contains_of_isElement hElement)
  root _ hElement :=
    hFilled.isRoot_eq hLinked (contains_of_isElement hElement)

theorem sameEmpty
    (hFilled : t.Filled t')
    (hBlanks : t.OnlyBlanks t') :
    SameEmpty t t' :=
  fun _ hElement =>
    hFilled.hasNoContent_eq hBlanks
      (contains_of_isElement hElement)

/-
  The same nodes match a list, if only blanks were added, or
  the list does not ask for emptiness.
-/
theorem matchesList_eq
    (hFilled : t.Filled t')
    (hLinked : t.Linked)
    (hLinked' : t'.Linked)
    {list : SelectorList}
    (hEmpty : t.OnlyBlanks t' ∨ listAsksEmpty list = false)
    (x : NodeId) :
    matchesList t' list x = matchesList t list x := by
  have hKin := hFilled.sameKin hLinked hLinked'
  exact
    hKin.listHolds x list (hEmpty.imp_left hFilled.sameEmpty)

/- Only elements match. -/
theorem isElement_of_matchesList
    {list : SelectorList}
    {x : NodeId}
    (hMatch : matchesList t list x = true) :
    t.isElement x = true := by
  induction list with
  | nil => cases hMatch
  | cons c rest ih =>
      simp only [matchesList, listHolds, Bool.or_eq_true]
        at hMatch
      rcases hMatch with hFirst | hRest
      · cases c with
        | compound parts => 
            exact Complex.isElement_of_holds hFirst
        | join left k parts =>
            exact
              Complex.isElement_of_holds
                (Complex.holds_join_iff.mp hFirst).1
      · exact ih hRest

/- So the same nodes are found, in the same order. -/
theorem findAll_eq
    (hFilled : t.Filled t')
    (hLinked : t.Linked)
    (hLinked' : t'.Linked)
    {list : SelectorList}
    (hEmpty : t.OnlyBlanks t' ∨ listAsksEmpty list = false)
    (scope : NodeId) :
    findAll t' scope list = findAll t scope list := by
  rcases exists_descendants hLinked' scope with
    ⟨below', hBelow'⟩
  have hBelow := hFilled.descendants_filter hLinked hBelow'
  have hFound :
      below'.filter (matchesList t' list) =
        (below'.filter t.contains).filter
          (matchesList t list) := by
    rw [List.filter_filter]
    apply List.filter_congr
    intro x _
    rw [hFilled.matchesList_eq hLinked hLinked' hEmpty]
    cases hMatch : matchesList t list x with
    | false => rfl
    | true =>
        have hElement := isElement_of_matchesList hMatch
        simp [contains_of_isElement hElement]
  rw [findAll, findAll, hBelow', hBelow, Outcome.ok_bind,
    Outcome.ok_bind, hFound]

end Dom.Tree.Filled

end MarkupMetrics
