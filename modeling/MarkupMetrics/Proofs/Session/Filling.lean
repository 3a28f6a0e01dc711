import MarkupMetrics.Proofs.Selector.Filling
import MarkupMetrics.Proofs.Session.Matching

/-
  This file proves that questions by the text of a selector
  have the same answers in two sessions, if the page of one is
  that of the other with more texts and comments.

  Key definitions include:
    * `Session.Overlooks`

  Key theorems include:
    * `Session.overlooks_of_history`
-/

namespace MarkupMetrics

namespace Session

open Dom Selector

------------------------------------------------------------
-- Questions
------------------------------------------------------------

/- What is found below a scope is what the tree tells. -/
theorem find_eq_pure
    {t : Tree}
    {source : String}
    {list : SelectorList}
    (hParse : Selector.parse source = .ok list)
    {scope : NodeId}
    {found : List NodeId}
    (hFound : findAll t scope list = .ok found) :
    t.find scope source = pure found := by
  simp only [Tree.find, Selector.read?, hParse, pure_bind,
    hFound]
  rfl

/- A search by the text of a selector is answered. -/
theorem step_find
    (s : Session)
    {source : String}
    {list : SelectorList}
    (hParse : Selector.parse source = .ok list)
    {scope : NodeId}
    {found : List NodeId}
    (hFound : findAll s.page.tree scope list = .ok found) :
    s.step (.page (.find scope source)) =
      .ok (s, .nodes found, []) := by
  apply step_of_answer
  rw [PageOperation.perform, find_eq_pure hParse hFound,
    pure_bind]

theorem step_queryAll
    (s : Session)
    {source : String}
    {list : SelectorList}
    (hParse : Selector.parse source = .ok list)
    {found : List NodeId}
    (hFound : findAll s.page.tree 0 list = .ok found) :
    s.step (.page (.queryAll source)) =
      .ok (s, .nodes found, []) := by
  apply step_of_answer
  rw [PageOperation.perform, Tree.queryAll,
    find_eq_pure hParse hFound, pure_bind]

theorem step_query
    (s : Session)
    {source : String}
    {list : SelectorList}
    (hParse : Selector.parse source = .ok list)
    {found : List NodeId}
    (hFound : findAll s.page.tree 0 list = .ok found) :
    s.step (.page (.query source)) =
      .ok (s, .node? found.head?, []) := by
  apply step_of_answer
  rw [PageOperation.perform, Tree.query?, Tree.queryAll,
    find_eq_pure hParse hFound, pure_bind, pure_bind]

/-
  In two sessions a selector is answered alike: the same nodes
  match, and the same are found, in the same order, in the
  whole document and below any node.
-/
structure Overlooks
    (s s' : Session)
    (source : String) : Prop where
  «matches» :
    ∀ x, ∃ yes,
      s.step (.page (.matches x source)) =
          .ok (s, .truth yes, []) ∧
        s'.step (.page (.matches x source)) =
          .ok (s', .truth yes, [])
  find :
    ∀ scope, ∃ found,
      s.step (.page (.find scope source)) =
          .ok (s, .nodes found, []) ∧
        s'.step (.page (.find scope source)) =
          .ok (s', .nodes found, [])
  queryAll :
    ∃ found,
      s.step (.page (.queryAll source)) =
          .ok (s, .nodes found, []) ∧
        s'.step (.page (.queryAll source)) =
          .ok (s', .nodes found, [])
  query :
    ∃ first,
      s.step (.page (.query source)) =
          .ok (s, .node? first, []) ∧
        s'.step (.page (.query source)) =
          .ok (s', .node? first, [])

/-
  If the page of one session is that of another with more
  texts and comments, selectors that do not ask for emptiness
  are answered alike, and if only blanks were added, all are.
-/
theorem overlooks_of_history
    {s s' : Session}
    {earlier earlier' : List Session}
    (hHistory : History Permits (s :: earlier))
    (hHistory' : History Permits (s' :: earlier'))
    (hFilled : s.page.tree.Filled s'.page.tree)
    {source : String}
    {list : SelectorList}
    (hParse : Selector.parse source = .ok list)
    (hEmpty :
      s.page.tree.OnlyBlanks s'.page.tree ∨
        listAsksEmpty list = false) :
    s.Overlooks s' source := by
  have hLinked := hHistory.linked_last
  have hLinked' := hHistory'.linked_last
  have hMatch := hFilled.matchesList_eq hLinked hLinked' hEmpty
  have hFindAll :
      ∀ scope, ∃ found,
        findAll s.page.tree scope list = .ok found ∧
          findAll s'.page.tree scope list = .ok found := by
    intro scope
    rw [hFilled.findAll_eq hLinked hLinked' hEmpty]
    rcases Tree.exists_descendants hLinked scope with
      ⟨below, hBelow⟩
    exact
      ⟨below.filter (matchesList s.page.tree list), by
        simp [findAll, hBelow], by simp [findAll, hBelow]⟩
  rcases hFindAll 0 with ⟨all, hAll, hAll'⟩
  constructor
  · intro x
    refine ⟨_, s.step_matches hParse x, ?_⟩
    rw [s'.step_matches hParse x, hMatch]
  · intro scope
    rcases hFindAll scope with ⟨found, hFound, hFound'⟩
    exact
      ⟨found, s.step_find hParse hFound,
        s'.step_find hParse hFound'⟩
  · exact
      ⟨all, s.step_queryAll hParse hAll,
        s'.step_queryAll hParse hAll'⟩
  · exact
      ⟨all.head?, s.step_query hParse hAll,
        s'.step_query hParse hAll'⟩

/- A paragraph with two elements, among other nodes. -/
private def paragraph
    (children below : List NodeId)
    (others : List (Option Node)) : Session :=
  let element (name : String) : NodeData :=
    .element ⟨.html name, []⟩
  let nodes : List (Option Node) :=
    [some { id := 0, children := [1], data := .document },
      some
        { id := 1, parent := some 0, children
          data := element "p" },
      some
        { id := 2, parent := some 1, children := below
          data := element "i" },
      some { id := 3, parent := some 1, data := element "b" }]
  start (Document.ofTree ⟨(nodes ++ others).toArray, []⟩) {}

private theorem history_paragraph :
    History Permits
      [paragraph [2, 3] [] [], start Document.empty {}] := by
  have h₀ : History Permits [start Document.empty {}] :=
    .start {}
  exact
    h₀.step
      (.operation
        (.page (.appendPage 0 "<p><i></i><b></b></p>")))
      (paragraph [2, 3] [] []) rfl (by cbv)

/-
  A text is put between the two elements, and a comment into
  the first one.  The second still stands next to the first.
-/
theorem overlooks_of_text_between :
    ∃ s s' earlier earlier' list,
      History Permits (s :: earlier) ∧
        History Permits (s' :: earlier') ∧
        s.page.tree.Filled s'.page.tree ∧
        Selector.parse "i + b" = .ok list ∧
        listAsksEmpty list = false ∧
        s.Overlooks s' "i + b" ∧
          s'.step (.page (.matches 3 "i + b")) =
            .ok (s', .truth true, []) := by
  have h₀ := history_paragraph
  have h₁ :=
    h₀.step (.operation (.page (.createText "t")))
      (paragraph [2, 3] []
        [some { id := 4, data := .text "t" }])
      trivial rfl
  have h₂ :=
    h₁.step (.operation (.page (.insertBefore 3 [4])))
      (paragraph [2, 4, 3] []
        [some { id := 4, parent := some 1, data := .text "t" }])
      (by
        rintro p hParent c hMember
        cases hParent
        rw [List.mem_singleton.mp hMember]
        exact
          Tree.not_within_of_isWithin h₁.linked_last (by decide))
      rfl
  have h₃ :=
    h₂.step (.operation (.page .createComment))
      (paragraph [2, 4, 3] []
        [some { id := 4, parent := some 1, data := .text "t" },
          some { id := 5, data := .comment }])
      trivial rfl
  have h₄ :=
    h₃.step (.operation (.page (.append 2 [5])))
      (paragraph [2, 4, 3] [5]
        [some { id := 4, parent := some 1, data := .text "t" },
          some { id := 5, parent := some 2, data := .comment }])
      (permits_append h₃.linked_last (by decide)) rfl
  have hText :=
    (Tree.Filled.refl h₀.linked_last).create
      h₀.linked_last.free (.text "t") rfl
  have hBetween :=
    hText.1.insertOneBefore h₁.linked_last 4 1 3 rfl rfl rfl
  have hComment :=
    hBetween.create h₂.linked_last.free .comment rfl
  have hFilled :=
    hComment.1.appendOne h₃.linked_last 5 2 rfl rfl rfl
  have hParse :
      Selector.parse "i + b" =
        .ok
          [.join (.compound [.localName "i"]) .nextSibling
            [.localName "b"]] := by
    cbv
  have hOverlooks :=
    overlooks_of_history h₀ h₄ hFilled hParse (Or.inr rfl)
  refine
    ⟨_, _, _, _, _, h₀, h₄, hFilled, hParse, rfl, hOverlooks, ?_⟩
  rw [step_matches _ hParse]
  have hMatch :
      matchesList
          (paragraph [2, 4, 3] [5]
            [some { id := 4, parent := some 1, data := .text "t" },
              some
                { id := 5, parent := some 2
                  data := .comment }]).page.tree
          [.join (.compound [.localName "i"]) .nextSibling
            [.localName "b"]] 3 =
        true := by
    cbv
  rw [hMatch]

end Session

end MarkupMetrics
