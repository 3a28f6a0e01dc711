import MarkupMetrics.Proofs.Selector.Reading
import MarkupMetrics.Proofs.Selector.Sound

/-
  This file shows that the text written for selectors that
  were read is read again, up to the universal selectors
  that stand in front of others.

  Attribute values that are compared are left out: they are
  written with two quotes on either side, and are not read
  back.

  Key theorems include:
    * `Selector.parse_renderList_of_parse`
    * `Selector.padding_not_read_back`
    * `Selector.comparison_not_read_back`
-/

namespace MarkupMetrics.Selector

open Css Dom

------------------------------------------------------------
-- Written and read again
------------------------------------------------------------

/-
  Selectors that were read are written as a text that is read
  as the same selectors without their padding.  What is left
  matches the same elements, is all of it where nothing was
  padded, and is read back as it is from then on.
-/
theorem parse_renderList_of_parse
    {text : String}
    {list : SelectorList}
    (hParse : parse text = .ok list)
    (hNone : listCompares list = false) :
    parse (renderList list) = .ok (bareList list) ∧
      (listPadded list = false → bareList list = list) ∧
      parse (renderList (bareList list)) = .ok (bareList list) ∧
      ∀ (t : Tree) (x : NodeId),
        matchesList t (bareList list) x = matchesList t list x := by
  have hList : ListFormed true list :=
    listFormed_of_parse hParse hNone
  have hAgain : bareList (bareList list) = bareList list :=
    bareList_of_padded _ hList.padded_bare
  refine
    ⟨parse_renderList hList, bareList_of_padded list, ?_, ?_⟩
  · rw [parse_renderList hList.bare, hAgain]
  · intro t x
    exact listHolds_bareList t x list

/- Two alternatives, padded in front and in a negation. -/
def paddedText : String :=
  "*.b > :not(*.c):nth-child(-2n+1), |p"

/- What the padded text is read as. -/
def paddedList : SelectorList :=
  [.join (.compound [.anyName, .className "b"]) .child
    [.negation [.compound [.anyName, .className "c"]],
      .nth ⟨.child, true, -2, 1⟩],
    .compound [.noSpace, .localName "p"]]

theorem ofText_paddedText :
    Stream.ofText paddedText =
      ⟨[⟨.delim '*', 1⟩, ⟨.delim '.', 2⟩, ⟨.ident "b", 3⟩,
        ⟨.whiteSpace " ", 4⟩, ⟨.delim '>', 5⟩, ⟨.whiteSpace " ", 6⟩,
        ⟨.colon, 7⟩, ⟨.function "not", 8⟩,
        ⟨.delim '*', 12⟩, ⟨.delim '.', 13⟩, ⟨.ident "c", 14⟩,
        ⟨.closeParenthesis, 15⟩,
        ⟨.colon, 16⟩, ⟨.function "nth-child", 17⟩,
        ⟨.dimension ⟨true, true, [2], none, none⟩ "n", 27⟩,
        ⟨.number ⟨true, false, [1], none, none⟩, 30⟩,
        ⟨.closeParenthesis, 32⟩,
        ⟨.comma, 33⟩, ⟨.whiteSpace " ", 34⟩,
        ⟨.delim '|', 35⟩, ⟨.ident "p", 36⟩], 37⟩ := by
  cbv

theorem parse_paddedText :
    parse paddedText = .ok paddedList := by
  unfold parse
  rw [ofText_paddedText]
  rfl

/- The padded text is written without its two paddings. -/
theorem parse_renderList_of_paddedText :
    parse paddedText = .ok paddedList ∧
      renderList paddedList =
        ".b > :not(.c):nth-child(-2n+1), |p" ∧
      parse (renderList paddedList) =
        .ok
          [.join (.compound [.className "b"]) .child
            [.negation [.compound [.className "c"]],
              .nth ⟨.child, true, -2, 1⟩],
            .compound [.noSpace, .localName "p"]] ∧
      ∀ (t : Tree) (x : NodeId),
        matchesList t (bareList paddedList) x =
          matchesList t paddedList x := by
  have hNone : listCompares paddedList = false := rfl
  rcases parse_renderList_of_parse parse_paddedText hNone with
    ⟨hAgain, _, _, hMatches⟩
  exact ⟨parse_paddedText, by cbv, hAgain, hMatches⟩

/-
  A padded selector is not read back: the text that was read
  names any element in front, the text that is written does
  not.
-/
theorem padding_not_read_back :
    parse "*.a" = .ok [.compound [.anyName, .className "a"]] ∧
      parse (renderList [.compound [.anyName, .className "a"]]) =
        .ok [.compound [.className "a"]] ∧
      parse (renderList [.compound [.anyName, .className "a"]]) ≠
        .ok [.compound [.anyName, .className "a"]] := by
  have hText :
      renderList [.compound [.anyName, .className "a"]] = ".a" := by
    cbv
  have hAgain :
      parse ".a" = .ok [.compound [.className "a"]] := by
    cbv
  refine ⟨by cbv, ?_, ?_⟩
  · rw [hText, hAgain]
  · rw [hText, hAgain]
    simp

/- A test that compares an attribute with one letter. -/
def comparedList : SelectorList :=
  [.compound
    [.attribute ⟨false, "a", some ⟨.equal, "b", .sensitive⟩⟩]]

/-
  Nor is a comparison read back: its value is written with two
  quotes on either side, and no selector has such a text.
-/
theorem comparison_not_read_back :
    parse "[a=b]" = .ok comparedList ∧
      renderList comparedList = "[a=\"\"b\"\"]" ∧
        ∀ list, parse (renderList comparedList) ≠ .ok list := by
  have hText :
      renderList comparedList = "[a=\"\"b\"\"]" := by
    cbv
  have hFails :
      (parse "[a=\"\"b\"\"]").toOption = none := by
    cbv
  refine ⟨by cbv, hText, ?_⟩
  intro list hAgain
  rw [hText] at hAgain
  rw [hAgain] at hFails
  cases hFails

end MarkupMetrics.Selector
