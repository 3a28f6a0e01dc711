import MarkupMetrics.Proofs.Dom.Merging
import MarkupMetrics.Proofs.Session.Writing

/-
  This file proves that in a session attributes are added to
  an element without overriding any, be it by an operation or
  by a call that builds the tree.

  Key theorems include:
    * `Session.merging_of_element`
-/

namespace MarkupMetrics

open Dom

namespace Session

/-
  Adding attributes to an element comes to an end and changes
  no more than that element.  Its attributes stay, in place
  and as they are read, and the first of each name that is
  new follows.  To add any of the same again changes nothing.
-/
theorem merging_of_element
    (s : Session)
    {n : NodeId}
    {e : Element}
    (hElement : s.page.tree.elementAt? n = some e)
    (new : List Attribute) :
    ∃ tree,
      s.step (.page (.addAttributes n new)) =
          .ok (s.withTree tree, .nothing, []) ∧
        s.act (.build (.addAttributes n new)) =
          .ok (s.withTree tree) ∧
        s.page.tree.Merges n e new tree ∧
        ∀ again, again ⊆ new →
          (s.withTree tree).step
              (.page (.addAttributes n again)) =
            .ok (s.withTree tree, .nothing, []) ∧
          (s.withTree tree).act
              (.build (.addAttributes n again)) =
            .ok (s.withTree tree) := by
  have hBuild
      {s : Session} {tree : Tree} {attrs : List Attribute}
      (hRun : s.page.tree.addAttributes n attrs = .ok tree) :
      s.act (.build (.addAttributes n attrs)) =
        .ok (s.withTree tree) := by
    have hCall :
        Html.TreeCall.run s.page.tree (.addAttributes n attrs) =
          .ok (tree, none) := by
      rw [Html.TreeCall.run, hRun]
      rfl
    exact s.act_of_run hCall
  rcases Tree.exists_addAttributes hElement new with
    ⟨tree, hRun, hMerges, hAgain⟩
  refine
    ⟨tree, s.step_of_edit rfl hRun, hBuild hRun, hMerges, ?_⟩
  intro again hSome
  have hSame := hAgain again hSome
  exact
    ⟨(s.withTree tree).step_of_edit rfl hSame, hBuild hSame⟩

/-
  A link in a namespace, a plain attribute with the same local
  name, and a name that comes twice: only whole names count,
  and the first value of each new one.
-/
theorem merging_of_link :
    let drawing : QualName := { space := .svg, local_ := "svg" }
    let link : QualName := ⟨some "xlink", .xlink, "href"⟩
    let new : List Attribute :=
      [.plain "href" "b", .plain "x" "1", ⟨link, "c"⟩,
        .plain "x" "2"]
    ∃ s earlier tree,
      History Permits (s :: earlier) ∧
        s.page.tree.elementAt? 1 =
          some ⟨drawing, [⟨link, "a"⟩]⟩ ∧
        s.step (.page (.addAttributes 1 new)) =
          .ok (s.withTree tree, .nothing, []) ∧
        tree.elementAt? 1 =
          some
            ⟨drawing,
              [⟨link, "a"⟩, .plain "href" "b",
                .plain "x" "1"]⟩ ∧
        s.page.tree.attr? 1 "href" = some "a" ∧
        tree.attr? 1 "href" = some "a" ∧
        (s.withTree tree).step
            (.page (.addAttributes 1 [.plain "x" "2"])) =
          .ok (s.withTree tree, .nothing, []) := by
  intro drawing link new
  let e : Element := ⟨drawing, [⟨link, "a"⟩]⟩
  have h₀ : History Permits [start Document.empty {}] :=
    .start {}
  have h₁ :=
    h₀.step (.build (.createElement drawing [⟨link, "a"⟩]))
      (ofElement e) trivial rfl
  have hElement :
      (ofElement e).page.tree.elementAt? 1 = some e :=
    rfl
  rcases merging_of_element _ hElement new with
    ⟨tree, hStep, _, hMerges, hAgain⟩
  have hRead :
      (ofElement e).page.tree.attr? 1 "href" = some "a" :=
    rfl
  have hNew :
      Attribute.newcomers e.attrs new =
        [.plain "href" "b", .plain "x" "1"] := by
    decide
  refine
    ⟨_, _, tree, h₁, hElement, hStep, ?_, hRead,
      hMerges.kept "href" "a" hRead, (hAgain _ ?_).1⟩
  · rw [hMerges.element, hNew]
    rfl
  · simp [new]

end Session

end MarkupMetrics
