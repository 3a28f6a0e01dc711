import MarkupMetrics.Selector.Matching
import MarkupMetrics.Proofs.Dom.Kinship

/-
  This file proves that matching a complex selector is the
  existence of a chain of elements.

  A chain has one element for each compound of the selector,
  from the left to the right.  Every element fits its own
  compound, and neighbours in the chain stand in the tree as
  the combinator between their compounds says.

  Key definitions include:
    * `Complex.compounds`
    * `Complex.combinators`
    * `Stands`
    * `Complex.Chain`

  Key theorems include:
    * `mem_related_iff`
    * `Complex.chain_join_iff`
    * `Complex.holds_iff_chain`
-/

namespace MarkupMetrics

namespace Selector

open Dom

------------------------------------------------------------
-- Combinators
------------------------------------------------------------

/-
  The later one of two nodes stands to the earlier one as a
  combinator says.
-/
def Stands
    (t : Tree)
    (k : Combinator)
    (earlier later : NodeId) : Prop :=
  match k with
  | .descendant => t.BelowElement later earlier
  | .child => t.IsChild later earlier
  | .nextSibling => t.FollowsNext later earlier
  | .laterSibling => t.Follows later earlier

/- The search for candidates finds the elements meant. -/
theorem mem_related_iff
    {t : Tree}
    (hLinked : t.Linked)
    {k : Combinator}
    {x y : NodeId} :
    y ∈ related t k x ↔
      t.isElement y = true ∧ Stands t k y x := by
  cases k with
  | descendant =>
      rw [related, Tree.mem_ancestorElements_iff hLinked, Stands]
      exact
        ⟨fun hBelow => ⟨hBelow.isElement, hBelow⟩,
          And.right⟩
  | child =>
      rw [related, Option.mem_toList,
        Tree.parentElement?_eq_some_iff, Stands, and_comm]
  | nextSibling =>
      rw [related, Option.mem_toList,
        Tree.previousElement?_eq_some_iff hLinked, Stands]
  | laterSibling =>
      rw [related, Tree.mem_precedingElements_iff hLinked,
        Stands]

------------------------------------------------------------
-- Parts of a selector
------------------------------------------------------------

namespace Complex

/- The compounds of a selector, from the left. -/
def compounds : Complex → List (List Simple)
  | .compound parts => [parts]
  | .join left _ parts => left.compounds ++ [parts]

/- The combinators of a selector, from the left. -/
def combinators : Complex → List Combinator
  | .compound _ => []
  | .join left k _ => left.combinators ++ [k]

/- Every combinator stands between two compounds. -/
theorem length_compounds
    (c : Complex) :
    c.compounds.length = c.combinators.length + 1 := by
  cases c with
  | compound parts => rfl
  | join left combinator parts =>
      simp [compounds, combinators, length_compounds left]

------------------------------------------------------------
-- Matching one compound
------------------------------------------------------------

/- What matches a compound is an element. -/
theorem isElement_of_holds
    {t : Tree}
    {x : NodeId}
    {parts : List Simple}
    (hHolds : (Complex.compound parts).holds t x = true) :
    t.isElement x = true := by
  cases hElement : t.elementAt? x with
  | none => simp [Complex.holds, hElement] at hHolds
  | some e => simp [Tree.isElement, hElement]

/-
  An element matches a joined selector if it matches the last
  compound and some candidate matches the rest.
-/
theorem holds_join_iff
    {t : Tree}
    {x : NodeId}
    {left : Complex}
    {k : Combinator}
    {parts : List Simple} :
    (Complex.join left k parts).holds t x = true ↔
      (Complex.compound parts).holds t x = true ∧
        ∃ y ∈ related t k x, left.holds t y = true := by
  cases hElement : t.elementAt? x with
  | none => simp [Complex.holds, hElement]
  | some e => simp [Complex.holds, hElement]

------------------------------------------------------------
-- Chains
------------------------------------------------------------

/-
  Elements that match the compounds of a selector one by one
  and stand to each other as its combinators say.
-/
structure Chain
    (t : Tree)
    (c : Complex)
    (ids : List NodeId) : Prop where
  length_eq : ids.length = c.compounds.length
  fits :
    ∀ (i : Nat) (parts : List Simple) (x : NodeId),
      c.compounds[i]? = some parts → ids[i]? = some x →
        (Complex.compound parts).holds t x = true
  stands :
    ∀ (i : Nat) (k : Combinator) (y x : NodeId),
      c.combinators[i]? = some k →
        ids[i]? = some y → ids[i + 1]? = some x →
          Stands t k y x

namespace Chain

variable {t : Tree} {c : Complex} {ids : List NodeId}

/- A chain consists of elements. -/
theorem isElement
    (hChain : c.Chain t ids)
    {x : NodeId}
    (hMember : x ∈ ids) :
    t.isElement x = true := by
  rcases List.mem_iff_getElem?.mp hMember with ⟨i, hAt⟩
  have hLess : i < c.compounds.length :=
    hChain.length_eq ▸ (List.getElem?_eq_some_iff.mp hAt).1
  exact
    isElement_of_holds
      (hChain.fits i c.compounds[i] x
        (List.getElem?_eq_getElem hLess) hAt)

/- There is one element more than there are combinators. -/
theorem length_combinators
    (hChain : c.Chain t ids) :
    ids.length = c.combinators.length + 1 := by
  rw [hChain.length_eq, c.length_compounds]

end Chain

/- The places of a list with one more entry at its end. -/
private theorem getElem?_concat_iff
    {α : Type}
    {as : List α}
    {a b : α}
    {i : Nat} :
    (as ++ [a])[i]? = some b ↔
      as[i]? = some b ∨ i = as.length ∧ a = b := by
  rw [List.getElem?_append]
  split
  · rename_i hLess
    exact
      ⟨Or.inl, fun hAt => hAt.elim id fun hEnd =>
        absurd hEnd.1 (Nat.ne_of_lt hLess)⟩
  · rename_i hMore
    rw [List.getElem?_eq_none (Nat.le_of_not_lt hMore),
      List.getElem?_singleton]
    have hPlace : i - as.length = 0 ↔ i = as.length := by omega
    simp [hPlace]

theorem chain_compound_iff
    {t : Tree}
    {parts : List Simple}
    {ids : List NodeId} :
    (Complex.compound parts).Chain t ids ↔
      ∃ x, ids = [x] ∧
        (Complex.compound parts).holds t x = true := by
  constructor
  · intro hChain
    rcases List.length_eq_one_iff.mp hChain.length_eq with
      ⟨x, rfl⟩
    exact ⟨x, rfl, hChain.fits 0 parts x rfl rfl⟩
  · rintro ⟨x, rfl, hHolds⟩
    refine ⟨rfl, ?_, ?_⟩
    · intro i parts' x' hParts hAt
      rw [compounds, List.getElem?_singleton] at hParts
      rw [List.getElem?_singleton] at hAt
      split at hParts
      · simp_all
      · cases hParts
    · intro i k y z hCombinator
      simp [combinators] at hCombinator

/- A chain grows by one element at its end. -/
theorem chain_join_iff
    {t : Tree}
    {left : Complex}
    {k : Combinator}
    {parts : List Simple}
    {ids : List NodeId}
    {x : NodeId} :
    (Complex.join left k parts).Chain t (ids ++ [x]) ↔
      (Complex.compound parts).holds t x = true ∧
        ∃ y,
          left.Chain t ids ∧ ids.getLast? = some y ∧
            Stands t k y x := by
  constructor
  · intro hChain
    have hLength : ids.length = left.compounds.length := by
      simpa [compounds] using hChain.length_eq
    have hPlace := hLength.trans left.length_compounds
    have hBefore : left.Chain t ids := by
      refine ⟨hLength, ?_, ?_⟩
      · intro i parts' z hParts hAt
        exact
          hChain.fits i parts' z
            (getElem?_concat_iff.mpr (Or.inl hParts))
            (getElem?_concat_iff.mpr (Or.inl hAt))
      · intro i k' z w hCombinator hAt hNext
        exact
          hChain.stands i k' z w
            (getElem?_concat_iff.mpr (Or.inl hCombinator))
            (getElem?_concat_iff.mpr (Or.inl hAt))
            (getElem?_concat_iff.mpr (Or.inl hNext))
    have hInside : left.combinators.length < ids.length := by
      omega
    have hLast :
        ids[left.combinators.length]? =
          some ids[left.combinators.length] :=
      List.getElem?_eq_getElem hInside
    refine
      ⟨hChain.fits ids.length parts x
          (getElem?_concat_iff.mpr (Or.inr ⟨hLength, rfl⟩))
          (getElem?_concat_iff.mpr (Or.inr ⟨rfl, rfl⟩)),
        ids[left.combinators.length], hBefore, ?_, ?_⟩
    · rw [List.getLast?_eq_getElem?, hPlace,
        Nat.add_sub_cancel, hLast]
    · exact
        hChain.stands left.combinators.length k _ x
          (getElem?_concat_iff.mpr (Or.inr ⟨rfl, rfl⟩))
          (getElem?_concat_iff.mpr (Or.inl hLast))
          (getElem?_concat_iff.mpr
            (Or.inr ⟨hPlace.symm, rfl⟩))
  · rintro ⟨hHolds, y, hBefore, hLast, hStands⟩
    have hLength := hBefore.length_eq
    have hPlace := hBefore.length_combinators
    refine ⟨by simp [compounds, hLength], ?_, ?_⟩
    · intro i parts' z hParts hAt
      rcases getElem?_concat_iff.mp hParts with
        hParts | ⟨rfl, rfl⟩
      · have hLess := (List.getElem?_eq_some_iff.mp hParts).1
        rw [List.getElem?_append_left (hLength ▸ hLess)] at hAt
        exact hBefore.fits i parts' z hParts hAt
      · rw [← hLength, List.getElem?_concat_length] at hAt
        cases hAt
        exact hHolds
    · intro i k' z w hCombinator hAt hNext
      rcases getElem?_concat_iff.mp hCombinator with
        hCombinator | ⟨rfl, rfl⟩
      · have hLess :=
          (List.getElem?_eq_some_iff.mp hCombinator).1
        rw [List.getElem?_append_left (by omega)] at hAt hNext
        exact hBefore.stands i k' z w hCombinator hAt hNext
      · rw [List.getLast?_eq_getElem?, hPlace,
          Nat.add_sub_cancel] at hLast
        rw [List.getElem?_append_left (by omega), hLast] at hAt
        rw [← hPlace, List.getElem?_concat_length] at hNext
        cases hAt
        cases hNext
        exact hStands

------------------------------------------------------------
-- Matching a selector
------------------------------------------------------------

/-
  An element matches a selector if and only if it is the last
  one of a chain.
-/
theorem holds_iff_chain
    {t : Tree}
    (hLinked : t.Linked) :
    ∀ (c : Complex) (x : NodeId),
      c.holds t x = true ↔
        ∃ ids, c.Chain t ids ∧ ids.getLast? = some x
  | .compound parts, x => by
      constructor
      · intro hHolds
        exact
          ⟨[x], chain_compound_iff.mpr ⟨x, rfl, hHolds⟩, rfl⟩
      · rintro ⟨ids, hChain, hLast⟩
        rcases chain_compound_iff.mp hChain with
          ⟨y, rfl, hHolds⟩
        cases hLast
        exact hHolds
  | .join left k parts, x => by
      rw [holds_join_iff]
      constructor
      · rintro ⟨hHolds, y, hCandidate, hLeft⟩
        rcases (holds_iff_chain hLinked left y).mp hLeft with
          ⟨ids, hBefore, hLast⟩
        have hStands :=
          ((mem_related_iff hLinked).mp hCandidate).2
        exact
          ⟨ids ++ [x],
            chain_join_iff.mpr
              ⟨hHolds, y, hBefore, hLast, hStands⟩,
            List.getLast?_concat⟩
      · rintro ⟨ids, hChain, hEnd⟩
        rcases List.getLast?_eq_some_iff.mp hEnd with
          ⟨front, rfl⟩
        rcases chain_join_iff.mp hChain with
          ⟨hHolds, y, hBefore, hLast, hStands⟩
        have hElement :=
          hBefore.isElement (List.mem_of_getLast? hLast)
        exact
          ⟨hHolds, y,
            (mem_related_iff hLinked).mpr ⟨hElement, hStands⟩,
            (holds_iff_chain hLinked left y).mpr
              ⟨front, hBefore, hLast⟩⟩

end Complex

end Selector

end MarkupMetrics
