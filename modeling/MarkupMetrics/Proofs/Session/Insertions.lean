import MarkupMetrics.Proofs.Html.Spots
import MarkupMetrics.Proofs.Session.Writing
import Mathlib

/-
  This file proves that in every session of a run text can be
  put into the tree in any number of runs, and that nothing
  of it or around it is lost.

  Key definitions include:
    * `Session.Inserts`

  Key theorems include:
    * `Session.insertions_of_history`
-/

namespace MarkupMetrics

open Dom Html

namespace Session

/-
  What text does in the child list of an owner.  No node that
  was there moves.  The text of an owner that has none of its
  own is what was written before the cut, the new text, and
  what was written after it.  If no text stood beside text,
  and none stands behind the cut, none does so then.
-/
structure Inserts
    (owner : NodeId)
    (front back : List NodeId)
    (text : String)
    (t t' : Tree) : Prop where
  writes : Tree.Writes owner front back text t t'
  parent :
    ∀ i, t.contains i = true →
      t'.contains i = true ∧ t'.parent? i = t.parent? i
  children :
    ∀ q, (t'.childrenOf q).filter t.contains = t.childrenOf q
  reads :
    ∀ n, t.get? owner = some n → n.data.ownText? = none →
      ∃ before after,
        t.textOfAll front = .ok before ∧
          t.textOfAll back = .ok after ∧
          t'.textContent owner = .ok (before ++ text ++ after)
  unbroken :
    t.Unbroken →
      (∀ y, back.head? = some y → t.textAt? y = none) →
        t'.Unbroken

/-
  At each place that is there a cut is open.  Text can be put
  there, and then more of it, and the session after that is
  the one after a single call.
-/
theorem insertions_of_history
    {s : Session}
    {earlier : List Session}
    (hHistory : History Permits (s :: earlier))
    {spot : Spot}
    (hThere : spot.There s.page.tree)
    (first second : String) :
    ∃ owner front back tree after,
      spot.Opens s.page.tree owner front back ∧
        s.act (.build (spot.call first)) =
          .ok (s.withTree tree) ∧
        Inserts owner front back first s.page.tree tree ∧
        (s.withTree tree).act (.build (spot.call second)) =
          .ok (s.withTree after) ∧
        s.act (.build (spot.call (first ++ second))) =
          .ok (s.withTree after) := by
  have hLinked := hHistory.linked_last
  rcases Spot.exists_opens hLinked hThere with
    ⟨owner, front, back, hOpens⟩
  rcases Spot.exists_twice hLinked hOpens first second with
    ⟨tree, after, hFirst, hWrites, hSecond, hOnce⟩
  have hInserts :
      Inserts owner front back first s.page.tree tree := by
    constructor
    · exact hWrites
    · intro i hLive
      exact hWrites.kept hLive
    · exact
        hWrites.children_kept hLinked hOpens.live
          hOpens.children
    · intro n hNode hOwn
      exact
        hWrites.reads hLinked (Spot.linked_run hLinked hFirst)
          hOpens.children hNode hOwn
    · intro hBefore hBack
      exact
        hWrites.unbroken hLinked hOpens.live hOpens.children
          hBack hBefore
  exact
    ⟨owner, front, back, tree, after, hOpens,
      s.act_of_run hFirst, hInserts,
      (s.withTree tree).act_of_run hSecond, s.act_of_run hOnce⟩

/-
  Text before an element joins the text that stands there;
  behind the element it makes a node of its own.
-/
theorem insertions_of_paragraph :
    ∃ s earlier joined after made later,
      History Permits (s :: earlier) ∧
        s.page.tree.childrenOf 1 = [2, 3] ∧
        s.act (.build (.appendBefore 3 (.text "b"))) =
          .ok (s.withTree joined) ∧
        joined.textContent 1 = .ok "ab" ∧
        (s.withTree joined).act
            (.build (.appendBefore 3 (.text "c"))) =
          .ok (s.withTree after) ∧
        s.act (.build (.appendBefore 3 (.text "bc"))) =
          .ok (s.withTree after) ∧
        s.act (.build (.appendBased 4 1 (.text "b"))) =
          .ok (s.withTree made) ∧
        made.textContent 1 = .ok "ab" ∧
        (s.withTree made).act
            (.build (.appendBased 4 1 (.text "c"))) =
          .ok (s.withTree later) ∧
        s.act (.build (.appendBased 4 1 (.text "bc"))) =
          .ok (s.withTree later) := by
  let nodes : List Node :=
    [rootNode [1], htmlNode 1 "p" (some 0) [2, 3],
      { id := 2, parent := some 1, data := .text "a" },
      htmlNode 3 "i" (some 1) []]
  have h₀ : History Permits [start Document.empty {}] :=
    .start {}
  have h₁ :=
    h₀.step
      (.operation (.page (.appendPage 0 "<p>a<i></i></p>")))
      (ofNodes nodes) rfl (by cbv)
  have h₂ :=
    h₁.step (.operation (.page (.createElement "b" [])))
      (ofNodes (nodes ++ [htmlNode 4 "b" none []])) trivial rfl
  let tree : Tree :=
    (ofNodes (nodes ++ [htmlNode 4 "b" none []])).page.tree
  have hBefore : (Spot.before 3).There tree :=
    ⟨1, rfl⟩
  have hBased : (Spot.based 4 1).There tree :=
    ⟨rfl, fun _ => rfl⟩
  rcases insertions_of_history h₂ hBefore "b" "c" with
    ⟨owner, front, back, joined, after, hOpens, hFirst, hInserts,
      hSecond, hOnce⟩
  rcases insertions_of_history h₂ hBased "b" "c" with
    ⟨owner', front', back', made, later, hOpens', hFirst',
      hInserts', hSecond', hOnce'⟩
  refine
    ⟨_, _, joined, after, made, later, h₂, rfl, hFirst, ?_,
      hSecond, hOnce, hFirst', ?_, hSecond', hOnce'⟩
  · cases hFirst
    rfl
  · cases hFirst'
    rfl

end Session

end MarkupMetrics
