/-
  This file defines selectors.

  A compound selector is a list of simple selectors that one
  element has to match together.  A complex selector joins
  compounds by combinators; it is built from the left, so the
  outermost constructor holds the compound that the matched
  element itself has to match.

  Key definitions include:
    * `Combinator`
    * `AttrOperator`
    * `CaseRule`
    * `AttrTest`
    * `Nth`
    * `Simple`
    * `Complex`
    * `SelectorList`
-/

namespace MarkupMetrics

namespace Selector

------------------------------------------------------------
-- Parts
------------------------------------------------------------

/- How two neighbouring elements of a match stand. -/
inductive Combinator where
  | descendant
  | child
  | nextSibling
  | laterSibling
deriving DecidableEq, Repr

/- How an attribute value is compared. -/
inductive AttrOperator where
  | equal
  | word
  | dash
  | starts
  | ends
  | within
deriving DecidableEq, Repr

/-
  Whether letter case matters in a comparison.  `byElement`
  ignores it on HTML elements only.
-/
inductive CaseRule where
  | sensitive
  | explicitSensitive
  | insensitive
  | byElement
deriving DecidableEq, Repr

/- The comparison of an attribute value with a given one. -/
structure AttrCompare where
  operator : AttrOperator
  value : String
  caseRule : CaseRule
deriving DecidableEq, Repr

/-
  A test of an attribute.  Without a comparison it asks only
  that the attribute is there.
-/
structure AttrTest where
  anySpace : Bool
  name : String
  compare : Option AttrCompare
deriving DecidableEq, Repr

/- What a position is counted among, and from which end. -/
inductive NthKind where
  | child
  | lastChild
  | ofType
  | lastOfType
  | onlyChild
  | onlyOfType
deriving DecidableEq, Repr

/-
  A test of a position `a * n + b`.  `functional` says whether
  it was written with the coefficients.
-/
structure Nth where
  kind : NthKind
  functional : Bool
  a : Int
  b : Int
deriving DecidableEq, Repr

------------------------------------------------------------
-- Selectors
------------------------------------------------------------

mutual

/- A simple selector. -/
inductive Simple where
  | anyName
  | noSpace
  | localName (name : String)
  | id (name : String)
  | className (name : String)
  | attribute (test : AttrTest)
  | nth (test : Nth)
  | root
  | empty
  | scope
  | negation (list : List Complex)
  | host (inner : Complex)

/- A complex selector. -/
inductive Complex where
  | compound (parts : List Simple)
  | join (left : Complex) (by_ : Combinator)
      (parts : List Simple)

end

instance : Inhabited Complex :=
  ⟨.compound []⟩

/- Alternatives, any of which may match. -/
abbrev SelectorList := List Complex

end Selector

end MarkupMetrics
