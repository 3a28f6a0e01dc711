import MarkupMetrics.Html.Encoding
import MarkupMetrics.Proofs.Html.Safety

/-
  This file proves which tags cut off their declaration of an
  encoding: those whose content type comes to an end after
  the word `charset`, where an equals sign should be, and has
  none behind that word before.

  Key definitions include:
    * `EndsAfterCharset`
    * `NamesCharset`
    * `Tag.CutsOff`

  Key theorems include:
    * `afterCharset_eq_error_iff`
    * `Tag.cutsOff_iff`
    * `ends_declaresEncoding`
-/

namespace MarkupMetrics

namespace Html

open Dom Text

------------------------------------------------------------
-- Content types
------------------------------------------------------------

/- The word `charset` comes next, and only blanks behind it. -/
def EndsAfterCharset
    (s : List Char) : Prop :=
  ∃ after,
    dropWord? "charset" s = some after ∧
      after.dropWhile isAsciiBlank = []

/- The word comes next, and an equals sign behind it. -/
def NamesCharset
    (s : List Char) : Prop :=
  ∃ after name,
    dropWord? "charset" s = some after ∧
      after.dropWhile isAsciiBlank = '=' :: name

/- A search that does not end here goes on behind. -/
theorem exists_drop_cons_iff
    {c : Char}
    {rest : List Char}
    (hEnd : ¬ EndsAfterCharset (c :: rest))
    (hName : ¬ NamesCharset (c :: rest)) :
    (∃ i, EndsAfterCharset ((c :: rest).drop i) ∧
        ∀ j < i, ¬ NamesCharset ((c :: rest).drop j)) ↔
      ∃ i, EndsAfterCharset (rest.drop i) ∧
        ∀ j < i, ¬ NamesCharset (rest.drop j) := by
  constructor
  · rintro ⟨i, hAt, hBefore⟩
    cases i with
    | zero => exact (hEnd hAt).elim
    | succ i =>
        exact
          ⟨i, hAt, fun j hLess =>
            hBefore (j + 1) (Nat.succ_lt_succ hLess)⟩
  · rintro ⟨i, hAt, hBefore⟩
    refine ⟨i + 1, hAt, fun j hLess => ?_⟩
    cases j with
    | zero => exact hName
    | succ j => exact hBefore j (Nat.lt_of_succ_lt_succ hLess)

/-
  A content type is at fault if it ends after the word
  `charset` before any such word has an equals sign.
-/
theorem afterCharset_eq_error_iff
    {s : List Char}
    {why : Fault} :
    afterCharset s = .error why ↔
      why = .cutOffDeclaration ∧
        ∃ i, EndsAfterCharset (s.drop i) ∧
          ∀ j < i, ¬ NamesCharset (s.drop j) := by
  fun_induction afterCharset s with
  | case1 =>
      simp [EndsAfterCharset, dropWord?]
  | case2 c rest hWord ih =>
      rw [ih, exists_drop_cons_iff]
      · simp [EndsAfterCharset, hWord]
      · simp [NamesCharset, hWord]
  | case3 c rest after hWord hEnd =>
      have hHere : EndsAfterCharset (c :: rest) :=
        ⟨after, hWord, hEnd⟩
      constructor
      · intro hSame
        cases hSame
        exact ⟨rfl, 0, hHere, fun _ hLess => nomatch hLess⟩
      · rintro ⟨rfl, _⟩
        rfl
  | case4 c rest after hWord name hEnd =>
      have hHere : NamesCharset (c :: rest) :=
        ⟨after, name, hWord, hEnd⟩
      constructor
      · intro hSame
        cases hSame
      · rintro ⟨_, i, hAt, hBefore⟩
        cases i with
        | zero =>
            rcases hAt with ⟨other, hOther, hNone⟩
            rw [List.drop_zero, hWord] at hOther
            cases hOther
            rw [hNone] at hEnd
            cases hEnd
        | succ i => exact (hBefore 0 (Nat.succ_pos i) hHere).elim
  | case5 c rest after hWord hEnd hName ih =>
      rw [ih, exists_drop_cons_iff]
      · rintro ⟨other, hOther, hNone⟩
        rw [hWord] at hOther
        cases hOther
        exact hEnd hNone
      · rintro ⟨other, name, hOther, hFound⟩
        rw [hWord] at hOther
        cases hOther
        exact hName name hFound

------------------------------------------------------------
-- Tags
------------------------------------------------------------

/- A tag whose declaration of an encoding is cut off. -/
def Tag.CutsOff
    (tag : Tag) : Prop :=
  tag.declaresEncoding = .error .cutOffDeclaration

/- The text after the word is all that can be at fault. -/
theorem contentDeclares_eq_error_iff
    {content : String}
    {why : Fault} :
    contentDeclares content = .error why ↔
      afterCharset content.toList = .error why := by
  rw [contentDeclares]
  cases afterCharset content.toList with
  | error fault =>
      change Except.error fault = _ ↔ _
      rw [Except.error.injEq, Except.error.injEq]
  | ok found => cases found <;> exact ⟨nofun, nofun⟩

/- What the content type of a tag is, if it has one. -/
theorem declaresEncoding_eq_error_iff
    {tag : Tag}
    {why : Fault} :
    tag.declaresEncoding = .error why ↔
      tag.attr? "charset" = none ∧
        (tag.attr? "http-equiv").any isContentType = true ∧
        ∃ content, tag.attr? "content" = some content ∧
          contentDeclares content = .error why := by
  unfold Tag.declaresEncoding
  cases tag.attr? "charset" with
  | some charset => simp
  | none =>
      by_cases hType :
          (tag.attr? "http-equiv").any isContentType = true
      · cases tag.attr? "content" with
        | some content => simp [hType]
        | none => simp [hType]
      · simp [hType]

/-
  A tag cuts off if it has no attribute `charset`, and is a
  content type that does.
-/
theorem Tag.cutsOff_iff
    {tag : Tag} :
    tag.CutsOff ↔
      tag.attr? "charset" = none ∧
        (tag.attr? "http-equiv").any isContentType = true ∧
        ∃ content, tag.attr? "content" = some content ∧
          ∃ i, EndsAfterCharset (content.toList.drop i) ∧
            ∀ j < i,
              ¬ NamesCharset (content.toList.drop j) := by
  rw [CutsOff, declaresEncoding_eq_error_iff]
  simp only [contentDeclares_eq_error_iff,
    afterCharset_eq_error_iff, true_and]

/- A tag declares an encoding or not, unless it cuts off. -/
theorem ends_declaresEncoding
    (tag : Tag) :
    Ends tag.CutsOff (fun _ => True) tag.declaresEncoding := by
  cases hRun : tag.declaresEncoding with
  | ok declares => exact Ends.ok trivial
  | error why =>
      rcases declaresEncoding_eq_error_iff.mp hRun with
        ⟨_, _, content, _, hContent⟩
      rw [contentDeclares_eq_error_iff,
        afterCharset_eq_error_iff] at hContent
      rcases hContent with ⟨rfl, _⟩
      exact Or.inr ⟨rfl, hRun⟩

/- Blanks after the word make no difference. -/
example :
    Tag.CutsOff
      ⟨"meta",
        [("http-equiv", "Content-Type"),
          ("content", "text/html; charset ")], false⟩ := by
  rfl

end Html

end MarkupMetrics
