import MarkupMetrics.Text.Blank
import Mathlib.Data.List.DropRight

/-
  This file proves what trimming does to a text.

  Key theorems include:
    * `Text.trim_eq_nil_iff`
    * `Text.trim_trim`
-/

namespace MarkupMetrics.Text

/- A sign at the front that is no blank stays there. -/
theorem trimStart_cons
    {c : Char}
    (hSign : isBlank c = false)
    (rest : List Char) :
    trimStart (c :: rest) = c :: rest := by
  simp [trimStart, hSign]

/- After dropping blanks there is none at the front. -/
theorem trimStart_cases
    (s : List Char) :
    trimStart s = [] ∨
      ∃ c rest,
        trimStart s = c :: rest ∧ isBlank c = false := by
  induction s with
  | nil => exact Or.inl rfl
  | cons c rest ih =>
      cases hSign : isBlank c with
      | true => simpa [trimStart, hSign] using ih
      | false =>
          exact
            Or.inr ⟨c, rest, trimStart_cons hSign rest, hSign⟩

theorem trimEnd_cons
    {c : Char}
    (hSign : isBlank c = false)
    (rest : List Char) :
    trimEnd (c :: rest) = c :: trimEnd rest := by
  have hAlone : [c].dropWhile isBlank = [c] := by
    simp [hSign]
  simp only [trimEnd, List.reverse_cons,
    List.dropWhile_append, hAlone]
  split
  · rename_i hNone
    simp [List.isEmpty_iff.mp hNone]
  · simp

/- Nothing is left of a text of blanks, and only of one. -/
theorem trim_eq_nil_iff
    {s : List Char} :
    trim s = [] ↔ ∀ c ∈ s, isBlank c = true := by
  have hStart :
      trimStart s = [] ↔ ∀ c ∈ s, isBlank c = true :=
    List.dropWhile_eq_nil_iff
  rw [← hStart]
  rcases trimStart_cases s with hNone | ⟨c, rest, hSome, hC⟩
  · simp [trim, hNone, trimEnd]
  · simp [trim, hSome, trimEnd_cons hC]

/- A trimmed text has no blanks left to trim. -/
theorem trim_trim
    (s : List Char) :
    trim (trim s) = trim s := by
  rcases trimStart_cases s with hNone | ⟨c, rest, hSome, hC⟩
  · rw [trim, trim, hNone]
    rfl
  · have hTrim : trim s = c :: trimEnd rest := by
      rw [trim, hSome, trimEnd_cons hC]
    have hAgain : trimEnd (trimEnd rest) = trimEnd rest :=
      List.rdropWhile_idempotent isBlank rest
    rw [hTrim, trim, trimStart_cons hC, trimEnd_cons hC,
      hAgain]

end MarkupMetrics.Text
