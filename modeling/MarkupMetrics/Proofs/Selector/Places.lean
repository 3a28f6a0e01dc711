import MarkupMetrics.Proofs.Dom.Siblings
import MarkupMetrics.Proofs.Selector.Attribute

/-
  This file proves which place an element has if a selector
  asks for its position.

  What is counted by steps from the element to the end of the
  child list is its place among the element children of the
  parent, from either end.

  Key definitions include:
    * `Selector.row`
    * `Selector.place`
    * `Selector.NthKind.counted`
    * `Selector.NthKind.only`

  Key theorems include:
    * `Selector.position_eq_place`
    * `Selector.inProgression_iff`
    * `Selector.holds_counted_iff`
    * `Selector.holds_only_iff`
-/

namespace MarkupMetrics

------------------------------------------------------------
-- Places
------------------------------------------------------------

namespace Selector

open Dom

/-
  Whether a node is counted for the position of an element: it
  is an element, and one of the same name and namespace if
  only those count.
-/
def counts
    (t : Tree)
    (sameType : Bool)
    (x y : NodeId) : Bool :=
  t.isElement y && (!sameType || t.isSameType x y)

/-
  The children of a node that are counted for the position of
  one of them, from the end that is counted from.
-/
def row
    (t : Tree)
    (sameType fromEnd : Bool)
    (p x : NodeId) : List NodeId :=
  (t.line fromEnd p).filter (counts t sameType x)

/- The place of an element among them, the first being 1. -/
def place
    (t : Tree)
    (sameType fromEnd : Bool)
    (p x : NodeId) : Nat :=
  (row t sameType fromEnd p x).idxOf x + 1

variable {t : Tree}
variable {p x : NodeId}

/- A position is one more than what is counted on the way. -/
theorem position_eq_passed
    (t : Tree)
    (sameType fromEnd : Bool)
    (x : NodeId) :
    position t x sameType fromEnd =
      ((t.passed fromEnd x).filter fun y =>
        !sameType || t.isSameType x y).length + 1 := by
  cases sameType <;> simp [position, Tree.passed]

/- An element is counted for its own position. -/
theorem counts_self
    (hElement : t.isElement x = true)
    (sameType : Bool) :
    counts t sameType x x = true := by
  rcases Option.isSome_iff_exists.mp hElement with ⟨e, hData⟩
  simp [counts, hElement, Tree.isSameType, hData]

theorem position_eq_place
    (hLinked : t.Linked)
    (hElement : t.isElement x = true)
    (hParent : t.parent? x = some p)
    (sameType fromEnd : Bool) :
    position t x sameType fromEnd =
      place t sameType fromEnd p x := by
  rcases Tree.exists_line hLinked hParent fromEnd with
    ⟨front, after, hLine⟩
  have hNodup : (front ++ x :: after).Nodup := by
    rw [← hLine]
    cases fromEnd with
    | false => exact hLinked.nodup p
    | true => exact List.nodup_reverse.mpr (hLinked.nodup p)
  have hFirst : x ∉ front := fun hMember =>
    (List.nodup_append.mp hNodup).2.2 x hMember x
      List.mem_cons_self rfl
  have hBefore : x ∉ front.filter (counts t sameType x) :=
    fun hMember => hFirst (List.mem_of_mem_filter hMember)
  have hPlace :
      place t sameType fromEnd p x =
        (front.filter (counts t sameType x)).length + 1 := by
    rw [place, row, hLine, List.filter_append,
      List.filter_cons_of_pos (counts_self hElement sameType),
      List.idxOf_append_of_notMem hBefore, List.idxOf_cons_self,
      Nat.add_zero]
  have hCounts :
      counts t sameType x = fun y =>
        (!sameType || t.isSameType x y) && t.isElement y := by
    funext y
    exact Bool.and_comm _ _
  rw [position_eq_passed, Tree.passed_of_line hLinked hLine,
    hPlace, hCounts, List.filter_reverse, List.filter_reverse,
    List.length_reverse, List.filter_filter]

/- It is a place among the children of the parent. -/
theorem place_le_length
    (hLinked : t.Linked)
    (hElement : t.isElement x = true)
    (hParent : t.parent? x = some p)
    (sameType fromEnd : Bool) :
    place t sameType fromEnd p x ≤ (t.childrenOf p).length := by
  have hLength :
      (t.line fromEnd p).length = (t.childrenOf p).length := by
    cases fromEnd <;> simp [Tree.line]
  rcases Tree.exists_line hLinked hParent fromEnd with
    ⟨front, after, hLine⟩
  have hMember : x ∈ row t sameType fromEnd p x :=
    List.mem_filter.mpr
      ⟨by simp [hLine], counts_self hElement sameType⟩
  calc
    place t sameType fromEnd p x
      ≤ (row t sameType fromEnd p x).length :=
        List.idxOf_lt_length_iff.mpr hMember
    _ ≤ (t.line fromEnd p).length := List.length_filter_le _ _
    _ = (t.childrenOf p).length := hLength

------------------------------------------------------------
-- Progressions
------------------------------------------------------------

/- Within reach the test is that of an arithmetic progression. -/
theorem inProgression_iff
    {a b position : Int}
    (hReach : position - b ≤ 2147483647) :
    inProgression a b position = true ↔
      ∃ n : Nat, position = a * n + b := by
  have hMember :
      (∃ n : Nat, position = a * n + b) ↔
        ∃ n : Nat, position - b = a * n :=
    exists_congr fun n => by omega
  simp only [inProgression, if_neg (Int.not_lt.mpr hReach),
    hMember]
  generalize position - b = distance
  by_cases hZero : a = 0
  · subst hZero
    simp
  · rw [if_neg hZero, Bool.and_eq_true, beq_iff_eq,
      decide_eq_true_iff]
    constructor
    · rintro ⟨hDivides, hNonneg⟩
      refine ⟨(distance / a).toNat, ?_⟩
      rw [Int.toNat_of_nonneg hNonneg]
      exact
        (Int.mul_ediv_cancel' (Int.dvd_of_emod_eq_zero hDivides)).symm
    · rintro ⟨n, rfl⟩
      rw [Int.mul_emod_right, Int.mul_ediv_cancel_left _ hZero]
      exact ⟨rfl, Int.natCast_nonneg n⟩

------------------------------------------------------------
-- Tests
------------------------------------------------------------

/- The kind of position that is counted in a certain way. -/
def NthKind.counted : Bool → Bool → NthKind
  | false, false => .child
  | false, true => .lastChild
  | true, false => .ofType
  | true, true => .lastOfType

theorem holds_counted_iff
    (hLinked : t.Linked)
    (hElement : t.isElement x = true)
    (hParent : t.parent? x = some p)
    (sameType fromEnd functional : Bool)
    {a b : Int}
    (hReach :
      (t.childrenOf p).length - b ≤ 2147483647) :
    Nth.holds ⟨.counted sameType fromEnd, functional, a, b⟩ t x =
        true ↔
      ∃ n : Nat,
        (place t sameType fromEnd p x : Int) = a * n + b := by
  have hHolds :
      Nth.holds ⟨.counted sameType fromEnd, functional, a, b⟩ t
          x =
        inProgression a b (position t x sameType fromEnd) := by
    cases sameType <;> cases fromEnd <;> rfl
  have hBound :=
    place_le_length hLinked hElement hParent sameType fromEnd
  rw [hHolds, position_eq_place hLinked hElement hParent]
  exact inProgression_iff (by omega)

/- A word asks for the first place, from one end. -/
theorem holds_word_iff
    (hLinked : t.Linked)
    (hElement : t.isElement x = true)
    (hParent : t.parent? x = some p)
    (hFew : (t.childrenOf p).length ≤ 2147483647)
    (sameType fromEnd : Bool) :
    Nth.holds ⟨.counted sameType fromEnd, false, 0, 1⟩ t x =
        true ↔
      place t sameType fromEnd p x = 1 := by
  rw [holds_counted_iff hLinked hElement hParent _ _ _ (by omega)]
  constructor
  · rintro ⟨n, hPlace⟩
    omega
  · intro hPlace
    exact ⟨0, by omega⟩

/- The kind of position of an only child, or of its type. -/
def NthKind.only : Bool → NthKind
  | false => .onlyChild
  | true => .onlyOfType

theorem holds_only_iff
    (hLinked : t.Linked)
    (hElement : t.isElement x = true)
    (hParent : t.parent? x = some p)
    (hFew : (t.childrenOf p).length ≤ 2147483647)
    (sameType : Bool) :
    Nth.holds ⟨.only sameType, false, 0, 1⟩ t x = true ↔
      ∀ fromEnd, place t sameType fromEnd p x = 1 := by
  have hBoth :
      Nth.holds ⟨.only sameType, false, 0, 1⟩ t x =
        (Nth.holds ⟨.counted sameType false, false, 0, 1⟩ t x &&
          Nth.holds ⟨.counted sameType true, false, 0, 1⟩ t
            x) := by
    cases sameType <;> rfl
  rw [hBoth, Bool.and_eq_true,
    holds_word_iff hLinked hElement hParent hFew,
    holds_word_iff hLinked hElement hParent hFew,
    Bool.forall_bool]

theorem formed_counted
    (sameType fromEnd : Bool)
    {a b : Int}
    (hFirst : InRange a)
    (hSecond : InRange b) :
    Nth.Formed ⟨.counted sameType fromEnd, true, a, b⟩ := by
  have hKind :
      NthKind.counted sameType fromEnd ≠ .onlyChild ∧
        NthKind.counted sameType fromEnd ≠ .onlyOfType := by
    cases sameType <;> cases fromEnd <;> decide
  exact ⟨hKind.1, hKind.2, hFirst, hSecond⟩

/- What is written for a position is read back. -/
theorem parse_nth
    {test : Nth}
    (hTest : test.Formed) :
    parse test.render = .ok (alone (.nth test)) := by
  have hText : Simple.render (.nth test) = test.render := by
    simp [Simple.render]
  have hBare : Simple.bare (.nth test) = .nth test := by
    simp [Simple.bare]
  rw [← hText, parse_alone (.nth hTest), hBare]

end Selector

end MarkupMetrics
