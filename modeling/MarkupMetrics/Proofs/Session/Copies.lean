import MarkupMetrics.Proofs.Dom.Copies
import MarkupMetrics.Proofs.Html.Pages
import MarkupMetrics.Proofs.Selector.Attribute
import MarkupMetrics.Proofs.Selector.Finding
import MarkupMetrics.Proofs.Session.Numbers
import MarkupMetrics.Proofs.Session.Writing
import Mathlib

/-
  This file proves that in every session of a run the text of
  a page is added as copies of what the body of the page
  holds.

  The page is read into a tree of its own.  What this tree is
  like depends on the text, but its copies are faithful
  whatever it is like.  There is one, unless the page cuts off
  a declaration of its encoding.

  Key definitions include:
    * `Session.Takes`

  Key theorems include:
    * `Tree.selects_body_iff`
    * `Tree.exists_appendPage`
    * `Tree.exists_added`
    * `Session.copies_of_history`
    * `Session.exists_step_appendPage`
-/

namespace MarkupMetrics

open Dom

namespace Dom.Tree

open Outcome

------------------------------------------------------------
-- The body of a page
------------------------------------------------------------

theorem parse_body :
    Selector.parse "body" = .ok bodySelector := by
  cbv

/- A body is an element with this local name. -/
theorem selects_body_iff
    {page : Tree}
    {x : NodeId} :
    page.selects "body" x = true ↔
      ∃ e, page.elementAt? x = some e ∧
        e.name.local_ = "body" := by
  have hSelects :
      page.selects "body" x =
        Selector.matchesList page
          (Selector.alone (.localName "body")) x := by
    simp [selects, parse_body, Except.toOption, bodySelector,
      Selector.alone]
  rw [hSelects]
  cases hElement : page.elementAt? x with
  | none =>
      simp [Selector.matchesList, Selector.alone,
        Selector.listHolds, Selector.Complex.holds, hElement]
  | some e =>
      have hName : Selector.nameFor e "body" = "body" := by
        unfold Selector.nameFor
        split
        · decide
        · rfl
      simp [Selector.matchesList_alone hElement,
        Selector.Simple.holds, hName]

/-
  Without a body nothing is added.  Else what stands below the
  first body, in document order, is copied.
-/
theorem exists_appendPage
    {t page : Tree}
    {owner : NodeId}
    {html : String}
    {all : List NodeId}
    (hPage : ofPage html = .ok page)
    (hAll : page.descendants 0 = .ok all)
    (hLinked : t.Linked)
    (hOwner : t.contains owner = true) :
    (all.find? (page.selects "body") = none ∧
        t.appendPage owner html = .ok (t, [])) ∨
      ∃ body below t',
        all.find? (page.selects "body") = some body ∧
          page.descendants body = .ok below ∧
          t.appendPage owner html =
            .ok
              (t', (page.childrenOf body).map
                (t.copyOf below)) ∧
          CopiedBelow page body below owner t t' := by
  have hPageLinked : page.Linked := linked_empty.addPage hPage
  have hSelects :
      page.selects "body" =
        Selector.matchesList page bodySelector := by
    funext x
    simp [selects, parse_body, Except.toOption]
  have hFound :
      (Selector.findAll page 0 bodySelector) =
        .ok (all.filter (page.selects "body")) := by
    rw [Selector.findAll, hAll, ok_bind, hSelects]
    rfl
  cases hFirst : all.find? (page.selects "body") with
  | none =>
      refine Or.inl ⟨rfl, ?_⟩
      rw [appendPage, hPage, ok_bind, hFound, ok_bind,
        List.head?_filter, hFirst]
      rfl
  | some body =>
      have hTop : page.contains body = true :=
        contains_of_mem_descendants hAll
          (List.mem_of_find?_eq_some hFirst)
      rcases contains_iff.mp hTop with ⟨n, hNode⟩
      rcases exists_descendants hPageLinked body with
        ⟨below, hBelow⟩
      rcases
        exists_graft hPageLinked hTop hBelow hLinked hOwner with
        ⟨shapes, t', hShapes, hGraft, hCopied⟩
      refine Or.inr ⟨body, below, t', rfl, hBelow, ?_, hCopied⟩
      rw [childrenOf_of_get? hNode] at hShapes
      rw [appendPage, hPage, ok_bind, hFound, ok_bind,
        List.head?_filter, hFirst]
      simp only [node_eq_ok_iff.mpr hNode, ok_bind, hShapes,
        hGraft]

/- So a page can be added if no tag of it cuts off. -/
theorem exists_added
    {t : Tree}
    {owner : NodeId}
    {html : String}
    (hLinked : t.Linked)
    (hOwner : t.contains owner = true)
    (hWhole : ¬ Html.CutsOff html) :
    ∃ t' ids, t.appendPage owner html = .ok (t', ids) := by
  rcases exists_ofPage hWhole with ⟨page, hPage⟩
  rcases exists_descendants (linked_empty.addPage hPage) 0 with
    ⟨all, hAll⟩
  rcases exists_appendPage hPage hAll hLinked hOwner with
    ⟨_, hRun⟩ | ⟨body, below, t', _, _, hRun, _⟩
  · exact ⟨t, [], hRun⟩
  · exact ⟨t', _, hRun⟩

end Dom.Tree

namespace Session

------------------------------------------------------------
-- Runs
------------------------------------------------------------

/-
  What a session takes from a page with a first body, or with
  none.  Its listeners stay, and the copies have none.
-/
inductive Takes
    (s s' : Session)
    (node : NodeId)
    (page : Tree)
    (ids : List NodeId) : Option NodeId → Prop where
  | nothing
      (hSame : s' = s)
      (hNone : ids = []) :
      Takes s s' node page ids none
  | copies
      (body : NodeId)
      (below : List NodeId)
      (hBelow : page.descendants body = .ok below)
      (hIds :
        ids =
          (page.childrenOf body).map
            (s.page.tree.copyOf below))
      (hCopied :
        Tree.CopiedBelow page body below node s.page.tree
          s'.page.tree)
      (hSilent :
        ∀ x ∈ below,
          s'.page.listenersOf (s.page.tree.copyOf below x) = [])
      (hSame :
        ∀ i, s'.page.listenersOf i = s.page.listenersOf i) :
      Takes s s' node page ids (some body)

/-
  Adding a page always comes to an end, and changes no more
  than the tree.  What is taken is what stands below the first
  body of the page in document order.  What is told is what
  the parser complains of.
-/
theorem copies_of_history
    {s : Session}
    {earlier : List Session}
    (hHistory : History Permits (s :: earlier))
    {node : NodeId}
    (hLive : s.page.tree.contains node = true)
    {html : String}
    {page : Tree}
    (hPage : Tree.ofPage html = .ok page) :
    ∃ all tree ids,
      page.descendants 0 = .ok all ∧
        s.step (.page (.appendPage node html)) =
          .ok (s.withTree tree, .nodes ids, s.complained html) ∧
        s.Takes (s.withTree tree) node page ids
          (all.find? (page.selects "body")) := by
  have hLinked := hHistory.linked_last
  have hTidy := hHistory.tidy s (by simp)
  have hPageLinked : page.Linked :=
    Tree.linked_empty.addPage hPage
  rcases Tree.exists_descendants hPageLinked 0 with
    ⟨all, hAll⟩
  rcases Tree.exists_appendPage hPage hAll hLinked hLive with
    ⟨hNone, hRun⟩ |
      ⟨body, below, tree, hBody, hBelow, hRun, hCopied⟩
  · refine
      ⟨all, s.page.tree, [], hAll, step_appendPage hRun, ?_⟩
    rw [hNone]
    exact .nothing rfl rfl
  · refine ⟨all, tree, _, hAll, step_appendPage hRun, ?_⟩
    rw [hBody]
    refine .copies body below hBelow rfl hCopied ?_ fun _ => rfl
    intro x hMember
    exact hTidy.listenersOf_missing (hCopied.fresh x hMember)

/-
  There is such a page whenever no tag of the text cuts off,
  so in every session of a run such a text can be added.
-/
theorem exists_step_appendPage
    {s : Session}
    {earlier : List Session}
    (hHistory : History Permits (s :: earlier))
    {node : NodeId}
    (hLive : s.page.tree.contains node = true)
    {html : String}
    (hWhole : ¬ Html.CutsOff html) :
    ∃ tree ids,
      s.step (.page (.appendPage node html)) =
        .ok (s.withTree tree, .nodes ids, s.complained html) := by
  rcases Tree.exists_added hHistory.linked_last hLive hWhole with
    ⟨tree, ids, hRun⟩
  exact ⟨tree, ids, step_appendPage hRun⟩

/-
  An element with a text and a text behind it are added where
  two nodes were removed.  The element gets the id that was
  given back last, its text the other one.
-/
theorem copies_of_bold :
    ∃ s earlier page tree,
      History Permits (s :: earlier) ∧
        s.page.tree.free = [2, 1] ∧
        Tree.ofPage "<b>a</b>c" = .ok page ∧
        page.childrenOf 3 = [4, 6] ∧
        s.step (.page (.appendPage 3 "<b>a</b>c")) =
          .ok
            (s.withTree tree, .nodes [2, 4],
              [.log .debug none
                "HTML parse error: Unexpected token"]) ∧
        tree.childrenOf 3 = [2, 4] ∧
        tree.get? 2 =
          some
            { id := 2, parent := some 3, children := [1]
              data := .element ⟨.html "b", []⟩ } ∧
        tree.get? 1 =
          some
            { id := 1, parent := some 2, data := .text "a" } := by
  let page : Tree :=
    ⟨#[some (rootNode [1]), htmlNode 1 "html" (some 0) [2, 3],
        htmlNode 2 "head" (some 1) [],
        htmlNode 3 "body" (some 1) [4, 6],
        htmlNode 4 "b" (some 3) [5],
        some { id := 5, parent := some 4, data := .text "a" },
        some { id := 6, parent := some 3, data := .text "c" }],
      []⟩
  let gaps : Session :=
    start
      (Document.ofTree
        ⟨#[some (rootNode [3]), none, none,
            htmlNode 3 "i" (some 0) []], [2, 1]⟩) {}
  have h₀ : History Permits [start Document.empty {}] :=
    .start {}
  have h₁ :=
    h₀.step
      (.operation
        (.page (.appendPage 0 "<div><p></p></div><i></i>")))
      (ofNodes
        [rootNode [1, 3], htmlNode 1 "div" (some 0) [2],
          htmlNode 2 "p" (some 1) [],
          htmlNode 3 "i" (some 0) []])
      rfl (by cbv)
  have h₂ :=
    h₁.step (.operation (.page (.remove 1))) gaps trivial
      (by cbv)
  have hPage : Tree.ofPage "<b>a</b>c" = .ok page := by
    cbv
  have hLive : gaps.page.tree.contains 3 = true := rfl
  rcases copies_of_history h₂ hLive hPage with
    ⟨all, tree, ids, hAll, hStep, hTakes⟩
  have hBody : all.find? (page.selects "body") = some 3 := by
    cases hAll
    cbv
  rw [hBody] at hTakes
  cases hTakes with
  | copies body below hBelow hIds hCopied _ _ =>
      have hList : below = [4, 5, 6] := by
        cases hBelow
        rfl
      subst hList
      subst hIds
      refine
        ⟨_, _, page, tree, h₂, rfl, hPage, rfl, hStep, ?_,
          hCopied.copies 4 (by simp) _ rfl,
          hCopied.copies 5 (by simp) _ rfl⟩
      exact
        Tree.childrenOf_of_get? (hCopied.extended _ rfl)

end Session

end MarkupMetrics
