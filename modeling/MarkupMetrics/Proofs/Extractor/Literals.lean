import MarkupMetrics.Extractor.Value
import MarkupMetrics.Proofs.Extractor.Grammar
import Mathlib.Logic.ExistsUnique

/-
  This file proves that a text is a literal, an extractor, or
  refused as neither, and never two of these.

  A literal is told by the quotes at its ends.  The last word
  of an extractor says what is read and ends in no quote, so
  whatever stands in front of it, the text is no literal.

  Key definitions include:
    * `Quoted`
    * `Sense`
    * `Sense.Of`
    * `Sense.answer`

  Key theorems include:
    * `literal?_eq_some_iff`
    * `Sense.Of.extractValue`
    * `Sense.existsUnique_of`
    * `Extractor.senses_apart`
-/

namespace MarkupMetrics

open Dom Text

------------------------------------------------------------
-- Literals
------------------------------------------------------------

/-
  A text holds some contents in single quotes, with any
  blanks around the quotes.
-/
def Quoted
    (value contents : String) : Prop :=
  ∃ before after,
    AllBlank before ∧ AllBlank after ∧
      value.toList =
        before ++ ('\'' :: contents.toList ++ ['\'']) ++ after

/- A quote at both ends leaves nothing to trim. -/
theorem trimmed_quotes
    (contents : List Char) :
    Trimmed ('\'' :: contents ++ ['\'']) := by
  have hQuote : isBlank '\'' = false := by decide
  constructor
  · rintro c ⟨⟩
    exact hQuote
  · intro c hLast
    rw [List.getLast?_concat] at hLast
    cases hLast
    exact hQuote

/-
  The contents are all that stands between the outer quotes,
  whatever it is.
-/
theorem literal?_eq_some_iff
    {value contents : String} :
    literal? value = some contents ↔ Quoted value contents := by
  constructor
  · intro hLiteral
    rcases exists_trim value.toList with
      ⟨before, after, hValue, hBefore, hAfter⟩
    refine ⟨before, after, hBefore, hAfter, ?_⟩
    unfold literal? at hLiteral
    split at hLiteral
    · rename_i rest hTrim
      split at hLiteral
      · rename_i hLast
        cases hLiteral
        rw [String.toList_ofList]
        have hRest :
            rest.dropLast ++ ['\''] = rest :=
          List.dropLast_append_getLast? _ hLast
        rw [List.cons_append, hRest, ← hTrim]
        exact hValue
      · cases hLiteral
    · cases hLiteral
  · rintro ⟨before, after, hBefore, hAfter, hValue⟩
    have hTrim :
        trim value.toList = '\'' :: (contents.toList ++ ['\'']) := by
      rw [hValue]
      exact
        trim_of_surrounded hBefore
          (trimmed_quotes contents.toList) hAfter
    simp [literal?, hTrim]

/- A text is no literal if it holds nothing in quotes. -/
theorem literal?_eq_none_iff
    {value : String} :
    literal? value = none ↔
      ∀ contents, ¬ Quoted value contents := by
  simp only [← literal?_eq_some_iff,
    ← Option.eq_none_iff_forall_ne_some]

/- What is an extractor holds nothing in quotes. -/
theorem Extractor.not_quoted_of_parse
    {value : String}
    {x : Extractor}
    (hParse : parse value = .ok x)
    (contents : String) :
    ¬ Quoted value contents := by
  have hNone := literal?_of_written (written_of_parse hParse)
  exact literal?_eq_none_iff.mp hNone contents

------------------------------------------------------------
-- Senses
------------------------------------------------------------

/- What a text is taken for. -/
inductive Sense where
  | literal (contents : String)
  | extractor (x : Extractor)
  | refused (e : ExtractorError)

namespace Sense

/-
  When a text has a sense.  The first two cases are told each
  by itself.  A literal is no extractor, so the last one has
  to leave literals out.
-/
inductive Of
    (value : String) : Sense → Prop where
  | literal
      {contents : String}
      (hQuoted : Quoted value contents) :
      Of value (.literal contents)
  | extractor
      {x : Extractor}
      (hParse : Extractor.parse value = .ok x) :
      Of value (.extractor x)
  | refused
      {e : ExtractorError}
      (hParse : Extractor.parse value = .error e)
      (hUnquoted : ∀ contents, ¬ Quoted value contents) :
      Of value (.refused e)

/-
  What a text with a sense comes to on a page: its contents,
  what the extractor reads there, or a note and no value.
-/
def answer
    (log : Origin)
    (t : Tree)
    (scope : Option NodeId)
    (value : String) : Sense → Trace (Option String)
  | .literal contents => .done (some contents) []
  | .extractor x => x.extract t scope
  | .refused e =>
      .done none
        [.note log .warn
          ("Cannot parse extractor " ++ quote value ++ ": " ++
            e.message)]

/- The value of a text is what its sense comes to. -/
theorem Of.extractValue
    {value : String}
    {sense : Sense}
    (hOf : Of value sense)
    (log : Origin)
    (t : Tree)
    (scope : Option NodeId) :
    MarkupMetrics.extractValue log t scope value =
      sense.answer log t scope value := by
  cases hOf with
  | literal hQuoted =>
      simp only [MarkupMetrics.extractValue,
        literal?_eq_some_iff.mpr hQuoted]
      rfl
  | extractor hParse =>
      have hNone :=
        literal?_eq_none_iff.mpr
          (Extractor.not_quoted_of_parse hParse)
      simp only [MarkupMetrics.extractValue, hNone,
        Extractor.read?, hParse, pure_bind]
      rfl
  | refused hParse hUnquoted =>
      have hNone := literal?_eq_none_iff.mpr hUnquoted
      simp only [MarkupMetrics.extractValue, hNone,
        Extractor.read?, hParse]
      rfl

/- Every text has a sense. -/
theorem exists_of
    (value : String) :
    ∃ sense, Of value sense := by
  cases hLiteral : literal? value with
  | some contents =>
      exact ⟨_, .literal (literal?_eq_some_iff.mp hLiteral)⟩
  | none =>
      cases hParse : Extractor.parse value with
      | ok x => exact ⟨_, .extractor hParse⟩
      | error e =>
          exact
            ⟨_, .refused hParse (literal?_eq_none_iff.mp hLiteral)⟩

/- And it has no other. -/
theorem Of.unique
    {value : String}
    {sense sense' : Sense}
    (hOf : Of value sense)
    (hOther : Of value sense') :
    sense' = sense := by
  cases hOf with
  | literal hQuoted =>
      cases hOther with
      | literal hQuoted' =>
          have hSame :=
            (literal?_eq_some_iff.mpr hQuoted).symm.trans
              (literal?_eq_some_iff.mpr hQuoted')
          cases hSame
          rfl
      | extractor hParse =>
          exact
            (Extractor.not_quoted_of_parse hParse _
              hQuoted).elim
      | refused _ hUnquoted => exact (hUnquoted _ hQuoted).elim
  | extractor hParse =>
      cases hOther with
      | literal hQuoted =>
          exact
            (Extractor.not_quoted_of_parse hParse _
              hQuoted).elim
      | extractor hParse' =>
          cases hParse.symm.trans hParse'
          rfl
      | refused hParse' _ => cases hParse.symm.trans hParse'
  | refused hParse hUnquoted =>
      cases hOther with
      | literal hQuoted => exact (hUnquoted _ hQuoted).elim
      | extractor hParse' => cases hParse.symm.trans hParse'
      | refused hParse' _ =>
          cases hParse.symm.trans hParse'
          rfl

theorem existsUnique_of
    (value : String) :
    ∃! sense, Of value sense := by
  rcases exists_of value with ⟨sense, hOf⟩
  exact ⟨sense, hOf, fun _ hOther => hOf.unique hOther⟩

end Sense

/-
  Contents in quotes are given back as they are, whatever the
  page is.  What is an extractor is never taken for a literal,
  and reads what the extractor reads.  Every text is in
  exactly one of three cases, which decides its value.
-/
theorem Extractor.senses_apart :
    (∀ (contents : String) (before after : List Char),
      AllBlank before → AllBlank after →
        ∀ log t scope,
          extractValue log t scope
              (String.ofList
                (before ++ '\'' :: contents.toList ++
                  '\'' :: after)) =
            .done (some contents) []) ∧
      (∀ value x,
        parse value = .ok x →
          literal? value = none ∧
            ∀ log t scope,
              extractValue log t scope value =
                x.extract t scope) ∧
      ∀ value,
        (∃! sense, Sense.Of value sense) ∧
          ∀ sense, Sense.Of value sense →
            ∀ log t scope,
              extractValue log t scope value =
                sense.answer log t scope value := by
  refine ⟨?_, ?_, ?_⟩
  · intro contents before after hBefore hAfter log t scope
    have hQuoted :
        Quoted
          (String.ofList
            (before ++ '\'' :: contents.toList ++
              '\'' :: after)) contents :=
      ⟨before, after, hBefore, hAfter, by simp⟩
    exact (Sense.Of.literal hQuoted).extractValue log t scope
  · intro value x hParse
    exact
      ⟨literal?_eq_none_iff.mpr (not_quoted_of_parse hParse),
        (Sense.Of.extractor hParse).extractValue⟩
  · intro value
    exact ⟨Sense.existsUnique_of value, fun _ => Sense.Of.extractValue⟩

/-
  A text may have quotes in it and still be an extractor.  In
  quotes it is a literal.
-/
theorem Extractor.senses_apart_nested :
    (∀ log t scope,
      extractValue log t scope "\u3000''! p' attr(b')'\t" =
        .done (some "'! p' attr(b')") []) ∧
      literal? "'! p' attr(b')" = none ∧
      ∀ log t scope,
        extractValue log t scope "'! p' attr(b')" =
          Extractor.extract ⟨"'! p'", .attribute "b'", false⟩ t
            scope := by
  have hBlank : AllBlank ['\u3000'] ∧ AllBlank ['\t'] := by
    simp [AllBlank, isBlank, blankRanges]
  have hLiteral :=
    senses_apart.1 "'! p' attr(b')" ['\u3000'] ['\t'] hBlank.1
      hBlank.2
  have hExtractor :=
    senses_apart.2.1 "'! p' attr(b')"
      ⟨"'! p'", .attribute "b'", false⟩ (by decide)
  exact ⟨hLiteral, hExtractor⟩

end MarkupMetrics
