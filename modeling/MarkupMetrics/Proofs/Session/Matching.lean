import MarkupMetrics.Proofs.Selector.Chains
import MarkupMetrics.Proofs.Session.History
import Mathlib

/-
  This file proves what it means, throughout a run, that an
  element matches the text of a selector.

  Key theorems include:
    * `Session.matches_iff_chain`
    * `Session.matches_stops_at_text`
-/

namespace MarkupMetrics

namespace Session

open Dom Selector

------------------------------------------------------------
-- Matching
------------------------------------------------------------

/- A selector list holds if one of its selectors does. -/
theorem listHolds_iff
    {t : Tree}
    {x : NodeId} :
    ∀ (list : SelectorList),
      listHolds t x list = true ↔
        ∃ c ∈ list, c.holds t x = true
  | [] => by simp [listHolds]
  | c :: rest => by
      simp [listHolds, listHolds_iff rest]

/- A question that has an answer changes nothing. -/
theorem step_of_answer
    (s : Session)
    {operation : PageOperation}
    {answer : Answer}
    (hAnswer :
      operation.perform s.surroundings s.page =
        pure (s.page, answer)) :
    s.step (.page operation) = .ok (s, answer, []) :=
  s.step_of_notes (List.forall_mem_nil _) hAnswer

/- What is asked with the text of a selector is answered. -/
theorem step_matches
    (s : Session)
    {source : String}
    {list : SelectorList}
    (hParse : Selector.parse source = .ok list)
    (x : NodeId) :
    s.step (.page (.matches x source)) =
      .ok (s, .truth (matchesList s.page.tree list x), []) := by
  apply step_of_answer
  simp [PageOperation.perform, Tree.matches, Selector.read?,
    hParse]

/-
  The question always has an answer.  It is yes if and only
  if the node is the last one of a chain of elements for one
  of the alternatives.
-/
theorem matches_iff_chain
    {s : Session}
    {earlier : List Session}
    (hHistory : History Permits (s :: earlier))
    {source : String}
    {list : SelectorList}
    (hParse : Selector.parse source = .ok list)
    (x : NodeId) :
    ∃ answer : Bool,
      s.step (.page (.matches x source)) =
          .ok (s, .truth answer, []) ∧
        (answer = true ↔
          ∃ c ∈ list, ∃ ids,
            c.Chain s.page.tree ids ∧ ids.getLast? = some x) := by
  refine
    ⟨matchesList s.page.tree list x, step_matches s hParse x,
      ?_⟩
  rw [matchesList, listHolds_iff]
  exact
    exists_congr fun c =>
      and_congr_right fun _ =>
        c.holds_iff_chain hHistory.linked_last x

------------------------------------------------------------
-- Two trees
------------------------------------------------------------

/- A session on a tree, with nothing attached to it. -/
private def onTree
    (nodes : List (Option Node)) : Session :=
  start (Document.ofTree ⟨nodes.toArray, []⟩) {}

/- An element without attributes. -/
private def element
    (id : NodeId)
    (name : String)
    (parent : Option NodeId)
    (children : List NodeId) : Option Node :=
  some
    { id, parent, children
      data := .element ⟨.html name, []⟩ }

/- The document node. -/
private def root
    (children : List NodeId) : Option Node :=
  some { id := 0, children, data := .document }

/- An element whose way up leads through four others. -/
private def nested : Session :=
  onTree
    [root [1], element 1 "main" (some 0) [2],
      element 2 "div" (some 1) [3], element 3 "div" (some 2) [4],
      element 4 "i" (some 3) []]

private theorem history_nested :
    History Permits
      [nested, start Document.empty {}] := by
  have h₀ : History Permits [start Document.empty {}] :=
    .start {}
  exact
    h₀.step
      (.operation
        (.page
          (.appendPage 0
            "<main><div><div><i></i></div></div></main>")))
      nested rfl (by cbv)

/-
  The nearest candidate above the element does not stand as
  the rest of the selector says; the next one does.
-/
theorem matches_of_farther_candidate :
    ∃ s earlier c,
      History Permits (s :: earlier) ∧
        Selector.parse "main > div i" = .ok [c] ∧
        c.Chain s.page.tree [1, 2, 4] ∧
        ¬ c.Chain s.page.tree [1, 3, 4] ∧
          s.step (.page (.matches 4 "main > div i")) =
            .ok (s, .truth true, []) := by
  let inner : Selector.Complex :=
    .join (.compound [.localName "main"]) .child
      [.localName "div"]
  let c : Selector.Complex :=
    .join inner .descendant [.localName "i"]
  have hParse : Selector.parse "main > div i" = .ok [c] := by
    cbv
  have hUp :
      nested.page.tree.BelowElement 4 2 :=
    .head (b := 3) ⟨rfl, rfl⟩ (.single ⟨rfl, rfl⟩)
  have hInner : inner.Chain nested.page.tree ([1] ++ [2]) :=
    Selector.Complex.chain_join_iff.mpr
      ⟨by cbv, 1,
        Selector.Complex.chain_compound_iff.mpr
          ⟨1, rfl, by cbv⟩,
        rfl, rfl⟩
  have hChain : c.Chain nested.page.tree ([1, 2] ++ [4]) :=
    Selector.Complex.chain_join_iff.mpr
      ⟨by cbv, 2, hInner, rfl, hUp⟩
  have hOther : ¬ c.Chain nested.page.tree [1, 3, 4] := by
    intro hOther
    have hParent := hOther.stands 0 .child 1 3 rfl rfl rfl
    exact absurd (Option.some.inj hParent) (by decide)
  rcases matches_iff_chain history_nested hParse 4 with
    ⟨answer, hStep, hAnswer⟩
  have hYes : answer = true :=
    hAnswer.mpr ⟨c, List.mem_singleton_self c, _, hChain, rfl⟩
  rw [hYes] at hStep
  exact ⟨_, _, c, history_nested, hParse, hChain, hOther, hStep⟩

/- A text below an element, and an element below the text. -/
private def aroundText : Session :=
  onTree
    [root [1], element 1 "div" (some 0) [2],
      some
        { id := 2, parent := some 1, children := [3]
          data := .text "t" },
      element 3 "span" (some 2) []]

/- A node may be put where it is not above. -/
theorem permits_append
    {s : Session}
    (hLinked : s.page.tree.Linked)
    {parent child : NodeId}
    (hOutside : s.page.tree.isWithin parent child = false) :
    s.Permits (.operation (.page (.append parent [child]))) := by
  intro c hMember
  rw [List.mem_singleton] at hMember
  subst hMember
  exact Tree.not_within_of_isWithin hLinked hOutside

private theorem history_aroundText :
    ∃ earlier, History Permits (aroundText :: earlier) := by
  have h₀ : History Permits [start Document.empty {}] :=
    .start {}
  have h₁ :=
    h₀.step (.operation (.page (.createElement "div" [])))
      (onTree [root [], element 1 "div" none []])
      trivial rfl
  have h₂ :=
    h₁.step (.operation (.page (.createText "t")))
      (onTree
        [root [], element 1 "div" none [],
          some { id := 2, data := .text "t" }])
      trivial rfl
  have h₃ :=
    h₂.step (.operation (.page (.createElement "span" [])))
      (onTree
        [root [], element 1 "div" none [],
          some { id := 2, data := .text "t" },
          element 3 "span" none []])
      trivial rfl
  have h₄ :=
    h₃.step (.operation (.page (.append 0 [1])))
      (onTree
        [root [1], element 1 "div" (some 0) [],
          some { id := 2, data := .text "t" },
          element 3 "span" none []])
      (permits_append h₃.linked_last (by decide)) rfl
  have h₅ :=
    h₄.step (.operation (.page (.append 1 [2])))
      (onTree
        [root [1], element 1 "div" (some 0) [2],
          some { id := 2, parent := some 1, data := .text "t" },
          element 3 "span" none []])
      (permits_append h₄.linked_last (by decide)) rfl
  have h₆ :=
    h₅.step (.operation (.page (.append 2 [3]))) aroundText
      (permits_append h₅.linked_last (by decide)) rfl
  exact ⟨_, h₆⟩

/-
  The way up stops at a text: an element does not match
  although an element above it, beyond the text, matches the
  first compound, and the element itself the second.
-/
theorem matches_stops_at_text :
    ∃ s earlier,
      History Permits (s :: earlier) ∧
        Selector.parse "div span" =
            .ok
              [.join (.compound [.localName "div"]) .descendant
                [.localName "span"]] ∧
        (Selector.Complex.compound [.localName "div"]).holds
            s.page.tree 1 = true ∧
        (Selector.Complex.compound [.localName "span"]).holds
            s.page.tree 3 = true ∧
        Relation.TransGen s.page.tree.IsChild 3 1 ∧
          s.step (.page (.matches 3 "div span")) =
            .ok (s, .truth false, []) := by
  rcases history_aroundText with ⟨earlier, hHistory⟩
  have hParse :
      Selector.parse "div span" =
        .ok
          [.join (.compound [.localName "div"]) .descendant
            [.localName "span"]] := by
    cbv
  have hUp :
      Relation.TransGen aroundText.page.tree.IsChild 3 1 :=
    .head (b := 2) rfl (.single rfl)
  have hNo :
      matchesList aroundText.page.tree
          [.join (.compound [.localName "div"]) .descendant
            [.localName "span"]] 3 = false := by
    cbv
  have hStep := step_matches aroundText hParse 3
  rw [hNo] at hStep
  exact
    ⟨aroundText, earlier, hHistory, hParse, by cbv, by cbv, hUp,
      hStep⟩

end Session

end MarkupMetrics
