import MarkupMetrics.Proofs.Dom.Attributes
import MarkupMetrics.Proofs.Selector.Values
import MarkupMetrics.Proofs.Session.Matching

/-
  This file proves how selecting an element of a session by an
  attribute goes together with reading the attribute.

  A selector finds attributes without namespace only, by a
  name in lower case on HTML elements; reading takes the name
  as it is, and the first attribute in whatever namespace.
  Where these come to the same attribute, both agree.

  Key theorems include:
    * `Session.selecting_of_element`
    * `Session.selecting_apart`
-/

namespace MarkupMetrics

open Dom Selector

namespace Session

/-
  Whether an element is selected by a name has an answer: it
  is, if it has an attribute without namespace of that name,
  taken in lower case on an HTML element.  If the attribute
  that is read can be found, a value is read if and only if
  the element is selected; and however that value is written
  as a string, it selects the element as well.  It can be
  written as one if it has no null character.
-/
theorem selecting_of_element
    (s : Session)
    {x : NodeId}
    {e : Element}
    (hElement : s.page.tree.elementAt? x = some e)
    {name : String}
    (hName : Css.IsIdentifier name) :
    ∃ selected : Bool,
      s.step (.page (.matches x ("[" ++ name ++ "]"))) =
          .ok (s, .truth selected, []) ∧
        (selected = true ↔
          ∃ a ∈ e.attrs,
            a.name.space = .none ∧
              a.name.local_ = nameFor e name) ∧
        (Agrees e name →
          ((s.page.tree.attr? x name).isSome = true ↔
              selected = true) ∧
            ∀ value,
              s.page.tree.attr? x name = some value →
                (∀ text,
                  Css.Quotes text value →
                    s.step
                        (.page
                          (.matches x
                            ("[" ++ name ++ "=" ++ text ++
                              "]"))) =
                      .ok (s, .truth true, [])) ∧
                  ('\x00' ∉ value.toList →
                    ∃ text, Css.Quotes text value)) := by
  let test : AttrTest := ⟨false, name, none⟩
  have hStep :
      s.step (.page (.matches x ("[" ++ name ++ "]"))) =
        .ok (s, .truth (test.holds e), []) := by
    rw [← matchesList_tested hElement test]
    exact step_matches s (parse_bracketed hName) x
  refine ⟨test.holds e, hStep, holds_name_iff, ?_⟩
  intro hAgrees
  rw [Tree.attr?_of_elementAt? hElement]
  refine ⟨hAgrees.isSome_attr?_iff, ?_⟩
  intro value hValue
  refine ⟨?_, fun hNull => ⟨_, Css.quotes_renderText hNull⟩⟩
  intro text hText
  rw [step_matches s (parse_equals hName hText) x,
    matchesList_tested hElement, hAgrees.holds_equals hValue]

/- A value with a quote in it is read, and selects. -/
theorem selecting_of_quote :
    ∃ s earlier e,
      History Permits (s :: earlier) ∧
        s.page.tree.elementAt? 1 = some e ∧
        Css.IsIdentifier "data-x" ∧
        Agrees e "data-x" ∧
        s.page.tree.attr? 1 "data-x" = some "a\"b" ∧
        s.step (.page (.matches 1 "[data-x]")) =
          .ok (s, .truth true, []) ∧
        s.step (.page (.matches 1 "[data-x=\"a\\\"b\"]")) =
          .ok (s, .truth true, []) := by
  let e : Element := ⟨.html "p", [.plain "data-x" "a\"b"]⟩
  have h₀ : History Permits [start Document.empty {}] :=
    .start {}
  have h₁ :=
    h₀.step
      (.operation
        (.page (.createElement "p" [("data-x", "a\"b")])))
      (ofElement e) trivial rfl
  have hElement : (ofElement e).page.tree.elementAt? 1 = some e :=
    rfl
  have hName : Css.IsIdentifier "data-x" :=
    ⟨by cbv, List.all_eq_true.mp (by cbv)⟩
  have hAgrees : Agrees e "data-x" := by
    refine ⟨by cbv, ?_⟩
    rintro a ⟨⟩
    rfl
  have hRead :
      (ofElement e).page.tree.attr? 1 "data-x" = some "a\"b" := by
    cbv
  rcases selecting_of_element _ hElement hName with
    ⟨selected, hStep, _, hBoth⟩
  rcases hBoth hAgrees with ⟨hSelected, hValues⟩
  have hYes : selected = true :=
    hSelected.mp (by rw [hRead]; rfl)
  rw [hYes] at hStep
  have hNull : '\x00' ∉ "a\"b".toList := by decide
  have hQuoted :=
    (hValues _ hRead).1 _ (Css.quotes_renderText hNull)
  have hBracketed : "[" ++ "data-x" ++ "]" = "[data-x]" := by cbv
  have hWritten :
      "[" ++ "data-x" ++ "=" ++
          String.ofList (renderText "a\"b".toList) ++ "]" =
        "[data-x=\"a\\\"b\"]" := by
    cbv
  rw [hBracketed] at hStep
  rw [hWritten] at hQuoted
  exact
    ⟨_, _, e, h₁, hElement, hName, hAgrees, hRead, hStep,
      hQuoted⟩

/-
  An HTML element is selected by a name in upper case that
  reads nothing.  The link of a drawing is read by a name that
  does not select it.
-/
theorem selecting_apart :
    (∃ s earlier,
      History Permits (s :: earlier) ∧
        s.page.tree.isElement 1 = true ∧
        Css.IsIdentifier "data-X" ∧
        s.page.tree.attr? 1 "data-X" = none ∧
        s.step (.page (.matches 1 "[data-X]")) =
          .ok (s, .truth true, [])) ∧
      ∃ s earlier,
        History Permits (s :: earlier) ∧
          s.page.tree.isElement 1 = true ∧
          Css.IsIdentifier "href" ∧
          s.page.tree.attr? 1 "href" = some "u" ∧
          s.step (.page (.matches 1 "[href]")) =
            .ok (s, .truth false, []) := by
  have h₀ : History Permits [start Document.empty {}] :=
    .start {}
  constructor
  · let e : Element := ⟨.html "p", [.plain "data-x" "1"]⟩
    have h₁ :=
      h₀.step
        (.operation
          (.page (.createElement "p" [("data-x", "1")])))
        (ofElement e) trivial rfl
    have hName : Css.IsIdentifier "data-X" :=
      ⟨by cbv, List.all_eq_true.mp (by cbv)⟩
    have hStep :=
      step_matches (ofElement e) (parse_bracketed hName) 1
    have hText : "[" ++ "data-X" ++ "]" = "[data-X]" := by cbv
    have hYes :
        matchesList (ofElement e).page.tree (bracketed "data-X") 1 =
          true := by
      cbv
    rw [hText, hYes] at hStep
    exact ⟨_, _, h₁, by cbv, hName, by cbv, hStep⟩
  · let drawing : QualName := { space := .svg, local_ := "svg" }
    let link : QualName := ⟨some "xlink", .xlink, "href"⟩
    let e : Element := ⟨drawing, [⟨link, "u"⟩]⟩
    have h₁ :=
      h₀.step (.build (.createElement drawing [⟨link, "u"⟩]))
        (ofElement e) trivial rfl
    have hName : Css.IsIdentifier "href" :=
      ⟨by cbv, List.all_eq_true.mp (by cbv)⟩
    have hStep :=
      step_matches (ofElement e) (parse_bracketed hName) 1
    have hText : "[" ++ "href" ++ "]" = "[href]" := by cbv
    have hNo :
        matchesList (ofElement e).page.tree (bracketed "href") 1 =
          false := by
      cbv
    rw [hText, hNo] at hStep
    exact ⟨_, _, h₁, by cbv, hName, by cbv, hStep⟩

end Session

end MarkupMetrics
