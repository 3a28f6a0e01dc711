import MarkupMetrics.Proofs.Selector.Places
import MarkupMetrics.Proofs.Session.Matching
import Mathlib

/-
  This file proves which elements of a session match the
  selectors of positions.

  Key definitions include:
    * `Session.Says`
    * `Session.Places`

  Key theorems include:
    * `Session.places_of_history`
-/

namespace MarkupMetrics

namespace Session

open Dom Selector

/-
  The question whether a node matches the text of a selector
  is answered, with yes if and only if something is the case.
-/
def Says
    (s : Session)
    (x : NodeId)
    (source : String)
    (holds : Prop) : Prop :=
  ∃ answer : Bool,
    s.step (.page (.matches x source)) =
        .ok (s, .truth answer, []) ∧
      (answer = true ↔ holds)

theorem says_of_parse
    {s : Session}
    {x : NodeId}
    {e : Element}
    {source : String}
    {simple : Simple}
    {holds : Prop}
    (hElement : s.page.tree.elementAt? x = some e)
    (hParse : Selector.parse source = .ok (alone simple))
    (hHolds : simple.holds s.page.tree x e = true ↔ holds) :
    s.Says x source holds := by
  refine ⟨_, step_matches s hParse x, ?_⟩
  rw [matchesList_alone hElement]
  exact hHolds

/-
  What positions are for a child of a node.  They are counted
  by steps from the element, and come to its place among the
  element children.  A selector of a position holds if some
  multiple of the one coefficient and the other come to that
  place, and the words ask for the first place.
-/
structure Places
    (s : Session)
    (p x : NodeId) : Prop where
  steps :
    ∀ sameType fromEnd, ∃ passed,
      Tree.Steps (s.page.tree.stepBack? fromEnd) x passed ∧
        place s.page.tree sameType fromEnd p x =
          (passed.filter fun y =>
            !sameType || s.page.tree.isSameType x y).length + 1
  nth :
    ∀ sameType fromEnd (a b : Int) source,
      a.natAbs < 2 ^ 30 →
      b.natAbs < 2 ^ 30 →
      Selector.parse source =
          .ok
            (alone
              (.nth ⟨.counted sameType fromEnd, true, a, b⟩)) →
        s.Says x source
          (∃ n : Nat,
            (place s.page.tree sameType fromEnd p x : Int) =
              a * n + b)
  written :
    ∀ sameType fromEnd (a b : Int),
      a.natAbs < 2 ^ 30 →
      b.natAbs < 2 ^ 30 →
        Selector.parse
            (Nth.render
              ⟨.counted sameType fromEnd, true, a, b⟩) =
          .ok
            (alone
              (.nth ⟨.counted sameType fromEnd, true, a, b⟩))
  firstChild :
    s.Says x ":first-child"
      (place s.page.tree false false p x = 1)
  lastChild :
    s.Says x ":last-child"
      (place s.page.tree false true p x = 1)
  firstOfType :
    s.Says x ":first-of-type"
      (place s.page.tree true false p x = 1)
  lastOfType :
    s.Says x ":last-of-type"
      (place s.page.tree true true p x = 1)
  onlyChild :
    s.Says x ":only-child"
      (∀ fromEnd, place s.page.tree false fromEnd p x = 1)
  onlyOfType :
    s.Says x ":only-of-type"
      (∀ fromEnd, place s.page.tree true fromEnd p x = 1)

theorem places_of_history
    {s : Session}
    {earlier : List Session}
    (hHistory : History Permits (s :: earlier))
    {p x : NodeId}
    (hElement : s.page.tree.isElement x = true)
    (hParent : s.page.tree.parent? x = some p)
    (hFew : (s.page.tree.childrenOf p).length < 2 ^ 30) :
    s.Places p x := by
  have hLinked := hHistory.linked_last
  rcases Option.isSome_iff_exists.mp hElement with ⟨e, hData⟩
  have hLess :
      (s.page.tree.childrenOf p).length ≤ 2147483647 := by
    omega
  have hWord (sameType fromEnd : Bool) :
      s.Says x
        (Nth.render ⟨.counted sameType fromEnd, false, 0, 1⟩)
        (place s.page.tree sameType fromEnd p x = 1) :=
    says_of_parse hData (parse_nth ⟨rfl, rfl⟩)
      (holds_word_iff hLinked hElement hParent hLess _ _)
  have hOnly (sameType : Bool) :
      s.Says x (Nth.render ⟨.only sameType, false, 0, 1⟩)
        (∀ fromEnd,
          place s.page.tree sameType fromEnd p x = 1) :=
    says_of_parse hData (parse_nth ⟨rfl, rfl⟩)
      (holds_only_iff hLinked hElement hParent hLess _)
  constructor
  · intro sameType fromEnd
    rcases Tree.exists_line hLinked hParent fromEnd with
      ⟨front, after, hLine⟩
    refine ⟨_, Tree.steps_passed hLinked hLine, ?_⟩
    rw [← position_eq_place hLinked hElement hParent,
      position_eq_passed]
  · intro sameType fromEnd a b source _ hSmall hParse
    exact
      says_of_parse hData hParse
        (holds_counted_iff hLinked hElement hParent _ _ _
          (by omega))
  · intro sameType fromEnd a b hFirst hSecond
    have hRange : InRange a ∧ InRange b := by
      unfold InRange
      omega
    exact parse_nth (formed_counted _ _ hRange.1 hRange.2)
  · exact hWord false false
  · exact hWord false true
  · exact hWord true false
  · exact hWord true true
  · exact hOnly false
  · exact hOnly true

/-
  Between texts and a comment stand three elements, the last
  one of which has the name of the first.
-/
theorem places_of_mixed :
    ∃ s earlier,
      History Permits (s :: earlier) ∧
        s.page.tree.isElement 6 = true ∧
        s.page.tree.parent? 6 = some 0 ∧
        s.page.tree.childrenOf 0 = [1, 2, 3, 4, 5, 6, 7] ∧
        s.Places 0 6 ∧
        s.step (.page (.matches 6 ":nth-child(2n+1)")) =
          .ok (s, .truth true, []) ∧
        s.step (.page (.matches 6 ":nth-of-type(-n+1)")) =
          .ok (s, .truth false, []) ∧
        s.step (.page (.matches 6 ":last-child")) =
          .ok (s, .truth true, []) ∧
        s.step (.page (.matches 6 ":only-of-type")) =
          .ok (s, .truth false, []) := by
  let text (id : NodeId) (content : String) : Node :=
    { id, parent := some 0, data := .text content }
  let mixed : Session :=
    ofNodes
      [rootNode [1, 2, 3, 4, 5, 6, 7], text 1 "a",
        htmlNode 2 "p" (some 0) [], text 3 "b",
        { id := 4, parent := some 0, data := .comment },
        htmlNode 5 "i" (some 0) [], htmlNode 6 "p" (some 0) [],
        text 7 "c"]
  have h₀ : History Permits [start Document.empty {}] :=
    .start {}
  have h₁ :=
    h₀.step
      (.operation
        (.page
          (.appendPage 0 "a<p></p>b<!--x--><i></i><p></p>c")))
      mixed rfl (by cbv)
  have hPlaces : mixed.Places 0 6 :=
    places_of_history h₁ rfl rfl (by decide)
  have hOdd :=
    hPlaces.written false false 2 1 (by decide) (by decide)
  have hOddText :
      Nth.render ⟨.counted false false, true, 2, 1⟩ =
        ":nth-child(2n+1)" := by
    cbv
  rw [hOddText] at hOdd
  have hUpTo :=
    hPlaces.written true false (-1) 1 (by decide) (by decide)
  have hUpToText :
      Nth.render ⟨.counted true false, true, -1, 1⟩ =
        ":nth-of-type(-n+1)" := by
    cbv
  rw [hUpToText] at hUpTo
  rcases hPlaces.nth false false 2 1 _ (by decide) (by decide)
      hOdd with
    ⟨third, hThird, hAtThird⟩
  rcases hPlaces.nth true false (-1) 1 _ (by decide)
      (by decide) hUpTo with
    ⟨first, hFirst, hAtFirst⟩
  rcases hPlaces.lastChild with ⟨last, hLast, hAtLast⟩
  rcases hPlaces.onlyOfType with ⟨only, hOnly, hAlone⟩
  have hYes : third = true := hAtThird.mpr ⟨1, by decide⟩
  have hNo : first = false := by
    rw [← Bool.not_eq_true, hAtFirst]
    rintro ⟨n, hPlace⟩
    have hSecond : place mixed.page.tree true false 0 6 = 2 := by
      decide
    omega
  have hEnd : last = true := hAtLast.mpr (by decide)
  have hTwo : only = false := by
    rw [← Bool.not_eq_true, hAlone]
    intro hBoth
    exact absurd (hBoth false) (by decide)
  subst hYes hNo hEnd hTwo
  exact
    ⟨_, _, h₁, rfl, rfl, rfl, hPlaces, hThird, hFirst, hLast,
      hOnly⟩

end Session

end MarkupMetrics
