import MarkupMetrics.Html.Page
import MarkupMetrics.Proofs.Dom.Sweep

/-
  This file proves that the ways up and down a tree whose
  links agree come to an end.

  On such a way no node is met twice, so fuel for all slots
  is enough: the way up lists what a node is within, and the
  text below a node is found.

  Key theorems include:
    * `Tree.chain_eq_ok`
    * `Tree.pairwise_chain`
    * `Tree.mem_chain_iff`
    * `Tree.exists_chain`
    * `Tree.not_within_of_isWithin`
    * `Tree.exists_textContent`
-/

namespace MarkupMetrics

namespace Dom

namespace Tree

open Outcome

------------------------------------------------------------
-- Up
------------------------------------------------------------

/-
  Climbing past nodes below comes to the root of the tree.
  The nodes `seen` are those passed on the way.
-/
theorem climb_eq_ok
    {t : Tree}
    (hLinked : t.Linked)
    (fuel : Nat)
    (seen : List NodeId)
    {id : NodeId}
    (hNodup : (id :: seen).Nodup)
    (hLive : ∀ x ∈ id :: seen, t.contains x = true)
    (hBelow : ∀ x ∈ id :: seen, t.Within x id)
    (hFuel : t.slots.size ≤ fuel + seen.length) :
    ∃ above, t.climb fuel id = .ok above ∧ above.Nodup ∧
      ∀ x, x ∈ above ↔ t.Within id x := by
  induction fuel generalizing seen id with
  | zero =>
      have hLength := length_le_size hNodup hLive
      simp only [List.length_cons] at hLength
      omega
  | succ fuel ih =>
      rcases contains_iff.mp (hLive id (by simp)) with
        ⟨n, hNode⟩
      cases hParent : n.parent with
      | none =>
          refine ⟨[id], by simp [climb, hNode, hParent],
            by simp, ?_⟩
          intro x
          constructor
          · intro hMember
            have hSame : x = id := by simpa using hMember
            exact hSame ▸ t.within_self x
          · intro hWithin
            rcases within_cases hWithin with
              rfl | ⟨p, hUp, _⟩
            · simp
            · rw [parent?_of_get? hNode, hParent] at hUp
              cases hUp
      | some p =>
          have hUp : t.parent? id = some p :=
            (parent?_of_get? hNode).trans hParent
          have hFresh : p ∉ id :: seen := fun hMember =>
            hLinked.not_within_child hUp (hBelow p hMember)
          have hAbove :
              ∀ x ∈ p :: id :: seen, t.contains x = true := by
            intro x hMember
            rcases List.mem_cons.mp hMember with rfl | hOld
            · exact hLinked.contains_parent hUp
            · exact hLive x hOld
          have hWithin :
              ∀ x ∈ p :: id :: seen, t.Within x p := by
            intro x hMember
            rcases List.mem_cons.mp hMember with rfl | hOld
            · exact t.within_self x
            · exact
                (hBelow x hOld).trans
                  (within_of_parent? hUp (t.within_self p))
          rcases
            ih (id :: seen) (List.nodup_cons.mpr ⟨hFresh, hNodup⟩) hAbove
              hWithin (by simp only [List.length_cons]; omega)
            with ⟨above, hClimb, hOnce, hMembers⟩
          refine ⟨id :: above, ?_, ?_, ?_⟩
          · simp only [climb, hNode, hParent, hClimb, ok_bind]
            rfl
          · refine List.nodup_cons.mpr ⟨?_, hOnce⟩
            rw [hMembers]
            exact hLinked.not_within_child hUp
          · intro x
            rw [List.mem_cons, hMembers]
            constructor
            · rintro (rfl | hRest)
              · exact t.within_self x
              · exact within_of_parent? hUp hRest
            · intro hAll
              rcases within_cases hAll with
                rfl | ⟨q, hOther, hRest⟩
              · exact Or.inl rfl
              · rw [hUp] at hOther
                exact
                  Or.inr (Option.some.inj hOther ▸ hRest)

/- The chain of a node lists what the node is within, once each. -/
theorem chain_eq_ok
    {t : Tree}
    {id : NodeId}
    (hLinked : t.Linked)
    (hLive : t.contains id = true) :
    ∃ above, t.chain id = .ok above ∧ above.Nodup ∧
      ∀ x, x ∈ above ↔ t.Within id x :=
  climb_eq_ok hLinked t.slots.size []
    (by simp) (by simpa using hLive)
    (by simpa using t.within_self id) (by simp)

/- Climbing goes from each node to what it is within. -/
theorem pairwise_climb
    {t : Tree}
    (fuel : Nat)
    {id : NodeId}
    {above : List NodeId}
    (hClimb : t.climb fuel id = .ok above) :
    above.Pairwise t.Within ∧ ∀ x ∈ above, t.Within id x := by
  induction fuel generalizing id above with
  | zero =>
      have hEmpty : above = [] := by
        unfold climb at hClimb
        split at hClimb
        · cases hClimb
        · exact (Except.ok.inj hClimb).symm
      simp [hEmpty]
  | succ fuel ih =>
      cases hNode : t.get? id with
      | none =>
          have hEmpty : above = [] := by
            simpa [climb, hNode, eq_comm] using hClimb
          simp [hEmpty]
      | some n =>
          cases hParent : n.parent with
          | none =>
              have hRoot : above = [id] := by
                simpa [climb, hNode, hParent, eq_comm]
                  using hClimb
              subst hRoot
              refine ⟨List.pairwise_singleton _ _, ?_⟩
              intro x hMember
              rw [List.mem_singleton.mp hMember]
              exact t.within_self id
          | some p =>
              simp only [climb, hNode, hParent,
                bind_eq_ok_iff, pure_eq_ok_iff] at hClimb
              rcases hClimb with ⟨rest, hRest, rfl⟩
              rcases ih hRest with ⟨hOrder, hWithin⟩
              have hUp : t.parent? id = some p :=
                (parent?_of_get? hNode).trans hParent
              have hAbove : ∀ x ∈ rest, t.Within id x :=
                fun x hMember =>
                  within_of_parent? hUp (hWithin x hMember)
              refine
                ⟨List.pairwise_cons.mpr ⟨hAbove, hOrder⟩, ?_⟩
              intro x hMember
              rcases List.mem_cons.mp hMember with rfl | hLater
              · exact t.within_self x
              · exact hAbove x hLater

/- So in a chain each node stands below all later ones. -/
theorem pairwise_chain
    {t : Tree}
    {id : NodeId}
    {chain : List NodeId}
    (hChain : t.chain id = .ok chain) :
    chain.Pairwise t.Within :=
  (pairwise_climb t.slots.size hChain).1

/- An id without a node has an empty chain. -/
theorem chain_of_not_contains
    {t : Tree}
    {id : NodeId}
    (hMissing : t.contains id = false) :
    t.chain id = .ok [] := by
  have hNone := not_contains_iff.mp hMissing
  unfold chain
  cases t.slots.size with
  | zero => simp [climb, hMissing]
  | succ size => simp [climb, hNone]

/- A chain lists what its node is within, if there is one. -/
theorem mem_chain_iff
    {t : Tree}
    {id : NodeId}
    {chain : List NodeId}
    (hLinked : t.Linked)
    (hChain : t.chain id = .ok chain)
    {x : NodeId} :
    x ∈ chain ↔ t.contains id = true ∧ t.Within id x := by
  cases hLive : t.contains id with
  | true =>
      rcases chain_eq_ok hLinked hLive with
        ⟨chain', hSame, _, hMembers⟩
      rw [hChain] at hSame
      cases hSame
      simp [hMembers]
  | false =>
      rw [chain_of_not_contains hLive] at hChain
      cases hChain
      simp

/- The chain of any id is found, and repeats no node. -/
theorem exists_chain
    {t : Tree}
    (hLinked : t.Linked)
    (id : NodeId) :
    ∃ above, t.chain id = .ok above ∧ above.Nodup := by
  cases hLive : t.contains id with
  | true =>
      rcases chain_eq_ok hLinked hLive with
        ⟨above, hChain, hNodup, _⟩
      exact ⟨above, hChain, hNodup⟩
  | false =>
      exact ⟨[], chain_of_not_contains hLive, by simp⟩

/- The test for standing below is right about nodes. -/
theorem not_within_of_isWithin
    {t : Tree}
    {id top : NodeId}
    (hLinked : t.Linked)
    (hTest : t.isWithin id top = false)
    (hTop : t.contains top = true) :
    ¬ t.Within id top := by
  intro hWithin
  have hLive : t.contains id = true := by
    rcases within_cases hWithin with rfl | ⟨p, hParent, _⟩
    · exact hTop
    · exact contains_of_parent? hParent
  rcases chain_eq_ok hLinked hLive with
    ⟨above, hChain, _, hMembers⟩
  have hMember := (hMembers top).mpr hWithin
  simp [isWithin, hChain, hMember] at hTest

------------------------------------------------------------
-- Text
------------------------------------------------------------

/-
  The text below a node is found, with fuel for all nodes but
  the ones passed on the way down to it.
-/
theorem textBelow_exists
    {t : Tree}
    (hLinked : t.Linked)
    (fuel : Nat)
    (seen : List NodeId)
    {id : NodeId}
    (hNodup : (id :: seen).Nodup)
    (hLive : ∀ x ∈ id :: seen, t.contains x = true)
    (hAbove : ∀ x ∈ id :: seen, t.Within id x)
    (hFuel : t.slots.size ≤ fuel + seen.length) :
    ∃ text, t.textBelow fuel id = .ok text := by
  induction fuel generalizing seen id with
  | zero =>
      have hLength := length_le_size hNodup hLive
      simp only [List.length_cons] at hLength
      omega
  | succ fuel ih =>
      rcases contains_iff.mp (hLive id (by simp)) with
        ⟨n, hNode⟩
      have hChildren :
          ∀ c ∈ n.children, ∃ text,
            t.textBelow fuel c = .ok text := by
        intro c hChild
        rw [← childrenOf_of_get? hNode] at hChild
        have hUp := (hLinked.listed c id).mp hChild
        have hFresh : c ∉ id :: seen := fun hMember =>
          hLinked.not_within_child hUp (hAbove c hMember)
        apply
          ih (id :: seen) (List.nodup_cons.mpr ⟨hFresh, hNodup⟩) _ _
            (by simp only [List.length_cons]; omega)
        · intro x hMember
          rcases List.mem_cons.mp hMember with rfl | hOld
          · exact hLinked.contains_child hChild
          · exact hLive x hOld
        · intro x hMember
          rcases List.mem_cons.mp hMember with rfl | hOld
          · exact t.within_self x
          · exact within_of_parent? hUp (hAbove x hOld)
      have hAll :
          ∃ text, n.children.foldlM
            (fun acc c => do
              return acc ++ (← t.textBelow fuel c)) "" =
                .ok text := by
        apply foldlM_exists
        intro acc c hChild
        rcases hChildren c hChild with ⟨text, hText⟩
        exact ⟨acc ++ text, by simp [hText]⟩
      cases hData : n.data with
      | text content =>
          exact ⟨content, by simp [textBelow, hNode, hData]⟩
      | comment =>
          exact ⟨"", by simp [textBelow, hNode, hData]⟩
      | element e =>
          simpa only [textBelow, hNode, hData] using hAll
      | document =>
          simpa only [textBelow, hNode, hData] using hAll

/- The text of any id is found. -/
theorem exists_textContent
    {t : Tree}
    (hLinked : t.Linked)
    (id : NodeId) :
    ∃ text, t.textContent id = .ok text := by
  cases hLive : t.contains id with
  | true =>
      exact
        textBelow_exists hLinked t.slots.size []
          (by simp) (by simpa using hLive)
          (by simpa using t.within_self id) (by simp)
  | false =>
      have hNone := not_contains_iff.mp hLive
      refine ⟨"", ?_⟩
      unfold textContent
      cases t.slots.size with
      | zero => simp [textBelow, hLive]
      | succ size => simp [textBelow, hNone]

/- The texts of several ids are found. -/
theorem exists_textOfAll
    {t : Tree}
    (hLinked : t.Linked)
    (ids : List NodeId) :
    ∃ text, t.textOfAll ids = .ok text := by
  apply foldlM_exists
  intro acc id _
  rcases exists_textContent hLinked id with ⟨text, hText⟩
  exact ⟨acc ++ text, by simp [hText]⟩

end Tree

end Dom

end MarkupMetrics
