import MarkupMetrics.Proofs.Dom.Attributes
import MarkupMetrics.Proofs.Selector.Attribute
import MarkupMetrics.Proofs.Session.Filling

/-
  This file proves that looking for a class or an id in a
  session goes together with selecting by it.

  A class is one of the words of an attribute, and an id is
  the whole value of one; a selector names either of them by
  an identifier behind a mark.  A search compares names with
  values, a selector in one of two ways, which depends on the
  mode that pages are matched in: in that mode letter case
  counts, so both compare in the same way.

  Key theorems include:
    * `Selector.parse_class`
    * `Selector.parse_id`
    * `Selector.carriesId_eq`
    * `Selector.carriesClass_eq`
    * `Tree.findAll_id`
    * `Session.lookups_of_history`
-/

namespace MarkupMetrics

open Dom Selector

------------------------------------------------------------
-- Marked identifiers
------------------------------------------------------------

namespace Selector

open Css

/- An identifier behind a dot is read as a class. -/
theorem parse_class
    {name : String}
    (hName : IsIdentifier name) :
    parse ("." ++ name) = .ok (alone (.className name)) := by
  have hText : Simple.render (.className name) = "." ++ name := by
    rw [Simple.render, identText_of_identifier hName]
  rw [← hText]
  exact parse_alone (.className (isName_of_identifier hName))

/- An identifier behind a hash mark is read as an id. -/
theorem parse_id
    {name : String}
    (hName : IsIdentifier name) :
    parse ("#" ++ name) = .ok (alone (.id name)) := by
  have hText : Simple.render (.id name) = "#" ++ name := by
    rw [Simple.render, identText_of_identifier hName]
  rw [← hText]
  exact parse_alone (.id (isName_of_identifier hName))

end Selector

------------------------------------------------------------
-- Comparisons
------------------------------------------------------------

namespace Selector

/- In the mode that pages are matched in letter case counts. -/
theorem same_eq
    (name value : String) :
    (CaseSensitivity.ofMode matchingMode).same name value =
      (value == name) := by
  rw [Bool.eq_iff_iff, beq_iff_eq]
  constructor
  · intro hSame
    exact (String.ext (beq_iff_eq.mp hSame)).symm
  · rintro rfl
    exact beq_self_eq_true _

/- So an id is compared as the whole value of an attribute. -/
theorem carriesId_eq
    (e : Element)
    (name : String) :
    carriesId e name (.ofMode matchingMode) =
      (e.id? == some name) := by
  unfold carriesId
  cases e.id? with
  | none => rfl
  | some value => exact same_eq name value

/- And a class as one of the words of the other attribute. -/
theorem carriesClass_eq
    (e : Element)
    (name : String) :
    carriesClass e name (.ofMode matchingMode) =
      e.hasClass name := by
  unfold carriesClass Element.hasClass Element.classes
  cases e.attr? "class" with
  | none => rfl
  | some value =>
      simp only [same_eq, List.contains_eq_any_beq,
        List.any_map]
      congr 1
      funext word
      exact BEq.comm

end Selector

------------------------------------------------------------
-- Elements with an id
------------------------------------------------------------

namespace Dom.Tree

/- A node matches an id if that is what is read from it. -/
theorem matchesList_id
    (t : Tree)
    (x : NodeId)
    (name : String) :
    matchesList t (alone (.id name)) x =
      (t.attr? x "id" == some name) := by
  cases hElement : t.elementAt? x with
  | none =>
      have hRead : t.attr? x "id" = none := by
        rw [attr?, ← elementAt?, hElement, Option.bind_none]
      simp [matchesList, alone, listHolds, Complex.holds,
        hElement, hRead]
  | some e =>
      rw [matchesList_alone hElement, Simple.holds,
        carriesId_eq, attr?_of_elementAt? hElement]
      rfl

/- The first of the elements with an id is looked up by it. -/
theorem findAll_id
    {t : Tree}
    {name : String}
    {found : List NodeId}
    (hFound : findAll t 0 (alone (.id name)) = .ok found) :
    t.elementById? name = .ok found.head? := by
  rw [findAll, Outcome.bind_eq_ok_iff] at hFound
  rcases hFound with ⟨below, hBelow, hDone⟩
  rw [Outcome.pure_eq_ok_iff] at hDone
  rw [elementById?, hBelow, Outcome.ok_bind,
    Outcome.pure_eq_ok_iff, ← hDone, List.head?_filter]
  congr 1
  funext x
  exact (t.matchesList_id x name).symm

end Dom.Tree

------------------------------------------------------------
-- Lookups in a run
------------------------------------------------------------

namespace Session

/-
  For every identifier, an element matches it as a class if
  and only if it is one of the classes of the element; and
  looking it up as an id comes to the node that a query for it
  as an id comes to, or both find none.
-/
theorem lookups_of_history
    {s : Session}
    {earlier : List Session}
    (hHistory : History Permits (s :: earlier))
    {name : String}
    (hName : Css.IsIdentifier name) :
    (∀ x e, s.page.tree.elementAt? x = some e →
      s.step (.page (.matches x ("." ++ name))) =
        .ok (s, .truth (e.hasClass name), [])) ∧
      ∃ found,
        s.page.tree.elementById? name = .ok found ∧
          s.step (.page (.query ("#" ++ name))) =
            .ok (s, .node? found, []) := by
  constructor
  · intro x e hElement
    rw [step_matches s (parse_class hName) x,
      matchesList_alone hElement, Simple.holds,
      carriesClass_eq]
  · rcases Tree.exists_descendants hHistory.linked_last 0 with
      ⟨below, hBelow⟩
    have hFound :
        findAll s.page.tree 0 (alone (.id name)) =
          .ok (below.filter
            (matchesList s.page.tree (alone (.id name)))) := by
      rw [findAll, hBelow]
      rfl
    exact
      ⟨_, Tree.findAll_id hFound,
        step_query s (parse_id hName) hFound⟩

/- A list of two classes, one of which is the id as well. -/
theorem lookups_of_list :
    ∃ s earlier e,
      History Permits (s :: earlier) ∧
        s.page.tree.elementAt? 1 = some e ∧
        Css.IsIdentifier "-é" ∧
        e.hasClass "-é" = true ∧
        s.step (.page (.matches 1 ".-é")) =
          .ok (s, .truth true, []) ∧
        s.page.tree.elementById? "-é" = .ok (some 1) ∧
        s.step (.page (.query "#-é")) =
          .ok (s, .node? (some 1), []) := by
  let attrs := [("class", "b\t-é"), ("id", "-é")]
  let e : Element :=
    ⟨.html "p", attrs.map fun a => .plain a.1 a.2⟩
  have h₀ : History Permits [start Document.empty {}] :=
    .start {}
  have h₁ :=
    h₀.step (.operation (.page (.createElement "p" attrs)))
      (ofElement e) trivial rfl
  let list : Session :=
    ofNodes
      [rootNode [1],
        { id := 1, parent := some 0, data := .element e }]
  have h₂ :=
    h₁.step (.build (.append 0 (.node 1))) list
      (permits_build h₁.linked_last (by decide)) rfl
  have hName : Css.IsIdentifier "-é" :=
    ⟨by cbv, List.all_eq_true.mp (by cbv)⟩
  have hClass : e.hasClass "-é" = true := by cbv
  rcases lookups_of_history h₂ hName with
    ⟨hClasses, found, hFound, hQuery⟩
  have hMatches := hClasses 1 e rfl
  have hText : "." ++ "-é" = ".-é" ∧ "#" ++ "-é" = "#-é" := by
    constructor <;> cbv
  rw [hText.1, hClass] at hMatches
  rw [hText.2] at hQuery
  have hLooked :
      list.page.tree.elementById? "-é" = .ok (some 1) := by
    cbv
  cases hFound.symm.trans hLooked
  exact
    ⟨_, _, e, h₂, rfl, hName, hClass, hMatches, hFound, hQuery⟩

end Session

end MarkupMetrics
