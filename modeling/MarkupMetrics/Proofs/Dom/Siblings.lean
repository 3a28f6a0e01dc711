import MarkupMetrics.Proofs.Dom.Kinship

/-
  This file proves where steps from an element to the one
  beside it lead, and on to the next, as long as there is one.

  Steps pass the elements of the child list one by one, from
  either end.  A step forwards takes back a step backwards,
  and steps from the first element child go through all of
  them.

  Key definitions include:
    * `Tree.stepBack?`
    * `Tree.passed`
    * `Tree.Steps`
    * `Tree.elementChildren`
    * `Tree.Tours`

  Key theorems include:
    * `Tree.passed_of_line`
    * `Tree.steps_passed`
    * `Tree.nextElement?_eq_some_iff_previousElement?`
    * `Tree.tours_elementChildren`
-/

namespace MarkupMetrics

namespace Dom

namespace Tree

------------------------------------------------------------
-- Steps
------------------------------------------------------------

/- The children of a node, from the end that is counted from. -/
def line
    (t : Tree)
    (fromEnd : Bool)
    (p : NodeId) : List NodeId :=
  if fromEnd then (t.childrenOf p).reverse else t.childrenOf p

/- The next element towards the end that is counted from. -/
def stepBack?
    (t : Tree)
    (fromEnd : Bool)
    (x : NodeId) : Option NodeId :=
  if fromEnd then t.nextElement? x else t.previousElement? x

/- The elements on the way to that end, nearest first. -/
def passed
    (t : Tree)
    (fromEnd : Bool)
    (x : NodeId) : List NodeId :=
  if fromEnd then t.followingElements x
  else t.precedingElements x

/- The nodes that steps lead to until there is no other. -/
inductive Steps
    (next : NodeId → Option NodeId) :
    NodeId → List NodeId → Prop where
  | stop
      {x : NodeId}
      (hLast : next x = none) :
      Steps next x []
  | step
      {x y : NodeId}
      {later : List NodeId}
      (hNext : next x = some y)
      (hLater : Steps next y later) :
      Steps next x (y :: later)

variable {t : Tree}

theorem stepBack?_eq
    (fromEnd : Bool)
    (x : NodeId) :
    t.stepBack? fromEnd x = (t.passed fromEnd x).head? := by
  cases fromEnd <;> rfl

/- A child stands somewhere in the line, from either end. -/
theorem exists_line
    (hLinked : t.Linked)
    {p x : NodeId}
    (hParent : t.parent? x = some p)
    (fromEnd : Bool) :
    ∃ front after, t.line fromEnd p = front ++ x :: after := by
  have hMember := (hLinked.listed x p).mpr hParent
  apply List.append_of_mem
  cases fromEnd with
  | false => exact hMember
  | true => exact List.mem_reverse.mpr hMember

/-
  What is passed on the way to the end is what stands in front
  in the line, without the nodes that are no elements.
-/
theorem passed_of_line
    (hLinked : t.Linked)
    {fromEnd : Bool}
    {p x : NodeId}
    {front after : List NodeId}
    (hLine : t.line fromEnd p = front ++ x :: after) :
    t.passed fromEnd x = front.reverse.filter t.isElement := by
  cases fromEnd with
  | false => exact precedingElements_of_childrenOf hLinked hLine
  | true =>
      have hChildren :
          t.childrenOf p = after.reverse ++ x :: front.reverse := by
        rw [← List.reverse_reverse (t.childrenOf p)]
        exact (congrArg List.reverse hLine).trans (by simp)
      exact followingElements_of_childrenOf hLinked hChildren

/-
  Steps pass these elements one by one: behind the first of
  them the line goes on as it does for that element itself.
-/
theorem steps_passed
    (hLinked : t.Linked)
    {fromEnd : Bool}
    {p x : NodeId}
    {front after : List NodeId}
    (hLine : t.line fromEnd p = front ++ x :: after) :
    Steps (t.stepBack? fromEnd) x (t.passed fromEnd x) := by
  generalize hPassed : t.passed fromEnd x = ids
  have hNext := t.stepBack?_eq fromEnd x
  rw [hPassed] at hNext
  induction ids generalizing x front after with
  | nil => exact .stop hNext
  | cons y ids ih =>
      rw [passed_of_line hLinked hLine,
        List.filter_eq_cons_iff] at hPassed
      rcases hPassed with ⟨between, before, hSplit, _, _, hRest⟩
      have hFront :
          front = before.reverse ++ y :: between.reverse := by
        rw [← front.reverse_reverse, hSplit]
        simp
      have hFarther :
          t.line fromEnd p =
            before.reverse ++
              y :: (between.reverse ++ x :: after) := by
        simp [hLine, hFront]
      have hLater : t.passed fromEnd y = ids := by
        rw [passed_of_line hLinked hFarther,
          List.reverse_reverse, hRest]
      refine .step hNext (ih hFarther hLater ?_)
      rw [stepBack?_eq, hLater]

------------------------------------------------------------
-- There and back
------------------------------------------------------------

theorem nextElement?_eq_some_iff
    (hLinked : t.Linked)
    {x y : NodeId} :
    t.nextElement? x = some y ↔
      t.isElement y = true ∧ t.FollowsNext y x := by
  constructor
  · intro hFirst
    cases hParent : t.parent? x with
    | none =>
        simp [nextElement?, followingElements, siblings, hParent]
          at hFirst
    | some p =>
        rcases exists_line hLinked hParent false with
          ⟨before, front, hChildren⟩
        rw [nextElement?,
          followingElements_of_childrenOf hLinked hChildren,
          List.head?_filter, List.find?_eq_some_iff_append]
          at hFirst
        rcases hFirst with
          ⟨hElement, between, after, rfl, hOthers⟩
        refine ⟨hElement, p, before, between, after, hChildren, ?_⟩
        intro z hBetween
        simpa using hOthers z hBetween
  · rintro
      ⟨hElement, p, before, between, after, hChildren, hOthers⟩
    rw [nextElement?,
      followingElements_of_childrenOf hLinked hChildren,
      List.head?_filter, List.find?_eq_some_iff_append]
    refine ⟨hElement, between, after, rfl, ?_⟩
    intro z hBetween
    simp [hOthers z hBetween]

/- From one element to another and back. -/
theorem nextElement?_eq_some_iff_previousElement?
    (hLinked : t.Linked)
    {x y : NodeId}
    (hFirst : t.isElement x = true)
    (hSecond : t.isElement y = true) :
    t.nextElement? x = some y ↔ t.previousElement? y = some x := by
  rw [nextElement?_eq_some_iff hLinked,
    previousElement?_eq_some_iff hLinked,
    and_iff_right hSecond, and_iff_right hFirst]

/- A node that stands in no child list has no siblings. -/
theorem stepBack?_of_no_parent
    {x : NodeId}
    (hParent : t.parent? x = none)
    (fromEnd : Bool) :
    t.stepBack? fromEnd x = none := by
  have hPassed : t.passed fromEnd x = [] := by
    cases fromEnd <;>
      simp [passed, precedingElements, followingElements,
        siblings, hParent]
  rw [stepBack?_eq, hPassed, List.head?_nil]

------------------------------------------------------------
-- Element children
------------------------------------------------------------

/- The children of a node that are elements, in their order. -/
def elementChildren
    (t : Tree)
    (p : NodeId) : List NodeId :=
  (t.childrenOf p).filter t.isElement

/-
  The nodes that are gone through from a first one on, if
  there is one, until there is no other.
-/
def Tours
    (next : NodeId → Option NodeId)
    (first : Option NodeId) : List NodeId → Prop
  | [] => first = none
  | x :: later => first = some x ∧ Steps next x later

theorem nodup_elementChildren
    (hLinked : t.Linked)
    (p : NodeId) :
    (t.elementChildren p).Nodup :=
  (hLinked.nodup p).filter _

/- From the first one on all of them are gone through. -/
theorem tours_elementChildren
    (hLinked : t.Linked)
    (p : NodeId) :
    Tours t.nextElement? (t.firstElementChild? p)
      (t.elementChildren p) := by
  have hFirst :
      t.firstElementChild? p = (t.elementChildren p).head? :=
    List.head?_filter.symm
  cases hAll : t.elementChildren p with
  | nil =>
      rw [hAll] at hFirst
      exact hFirst
  | cons x later =>
      rw [hAll] at hFirst
      rcases List.filter_eq_cons_iff.mp hAll with
        ⟨before, after, hChildren, _, _, hLater⟩
      have hLine :
          t.line true p = after.reverse ++ x :: before.reverse := by
        rw [line, if_pos rfl, hChildren]
        simp
      have hPassed : t.passed true x = later := by
        rw [passed_of_line hLinked hLine, List.reverse_reverse,
          hLater]
      have hSteps := steps_passed hLinked hLine
      rw [hPassed] at hSteps
      exact ⟨hFirst, hSteps⟩

theorem parentElement?_of_mem_elementChildren
    (hLinked : t.Linked)
    {p x : NodeId}
    (hMember : x ∈ t.elementChildren p) :
    t.parentElement? x =
      if t.isElement p = true then some p else none := by
  have hParent : t.parent? x = some p :=
    (hLinked.listed x p).mp (List.mem_filter.mp hMember).1
  rw [parentElement?, hParent, Option.filter_some]

end Tree

end Dom

end MarkupMetrics
