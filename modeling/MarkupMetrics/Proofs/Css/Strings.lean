import MarkupMetrics.Proofs.Selector.Names

/-
  This file shows that a text is read back from the string it
  is written as, whatever characters it has but the null
  character.

  Key definitions include:
    * `Css.Quotes`
    * `Css.SaysIn`

  Key theorems include:
    * `Css.quotes_renderText`
-/

namespace MarkupMetrics.Css

open Selector

/-
  A text is a string with a value: wherever it stands it is
  read as one token, which has that value.
-/
def Quotes
    (text value : String) : Prop :=
  ∀ rest, Reads (text.toList ++ rest) (.quotedString value) rest

/-
  Wherever a piece of text stands in a string between double
  marks, it is read as the given characters.
-/
def SaysIn
    (piece value : List Char) : Prop :=
  ∀ rest,
    readString '"' (piece ++ rest) =
      value.foldr StringRead.push (readString '"' rest)

theorem SaysIn.append
    {piece piece' value value' : List Char}
    (hFirst : SaysIn piece value)
    (hSecond : SaysIn piece' value') :
    SaysIn (piece ++ piece') (value ++ value') := by
  intro rest
  rw [List.append_assoc, hFirst, hSecond, List.foldr_append]

/- An escape in a string is read as its character. -/
theorem readString_escape
    {s rest : List Char}
    {c : Char}
    (hLine : startsNewline s = false)
    (hSome : s ≠ [])
    (hEscape : readEscape s = (c, rest)) :
    readString '"' ('\\' :: s) =
      (readString '"' rest).push c := by
  rw [readString]
  simp [isNewline, hSome, hLine, hEscape]

/- A character that is none of the others stands for itself. -/
theorem saysIn_plain
    {c : Char}
    (hMark : c ≠ '"')
    (hEscape : c ≠ '\\')
    (hNull : c ≠ '\x00')
    (hLine : isNewline c = false) :
    SaysIn [c] [c] := by
  intro rest
  rw [List.singleton_append, readString]
  simp [hMark, hEscape, hNull, hLine]

/- A character is read back, if it is not the null character. -/
theorem saysIn_renderTextChar
    {c : Char}
    (hNull : c ≠ '\x00') :
    SaysIn (renderTextChar c) [c] := by
  unfold renderTextChar
  split
  · rename_i hMark
    subst hMark
    intro rest
    exact readString_escape rfl (List.cons_ne_nil _ _) rfl
  split
  · rename_i hSlash
    subst hSlash
    intro rest
    exact readString_escape rfl (List.cons_ne_nil _ _) rfl
  split
  · rename_i hControl
    have hShort := toNat_lt_of_isControl hControl
    intro rest
    have hText :
        hexEscape c ++ rest =
          '\\' :: (Nat.toDigits 16 c.toNat ++ ' ' :: rest) := by
      simp [hexEscape]
    have hRead := readEscape_toDigits hShort rest
    rw [charOfCode_toNat hNull] at hRead
    rw [hText]
    exact
      readString_escape (startsNewline_toDigits hShort _)
        (by simp) hRead
  · rename_i hMark hSlash hControl
    exact
      saysIn_plain hMark hSlash hNull
        (isNewline_eq_false (Bool.eq_false_of_not_eq_true hControl))

theorem saysIn_flatMap
    {value : List Char}
    (hNull : '\x00' ∉ value) :
    SaysIn (value.flatMap renderTextChar) value := by
  induction value with
  | nil => exact fun _ => rfl
  | cons c value ih =>
      simp only [List.mem_cons, not_or] at hNull
      exact
        (saysIn_renderTextChar (Ne.symm hNull.1)).append
          (ih hNull.2)

theorem foldr_push
    (value : List Char)
    (r : StringRead) :
    value.foldr StringRead.push r =
      { r with value := value ++ r.value } := by
  induction value with
  | nil => rfl
  | cons c value ih =>
      rw [List.foldr_cons, ih]
      rfl

/- A text that is written as a string is read back. -/
theorem quotes_renderText
    {value : String}
    (hNull : '\x00' ∉ value.toList) :
    Quotes (String.ofList (renderText value.toList)) value := by
  intro rest
  let body := value.toList.flatMap renderTextChar
  have hRead :
      readString '"' (body ++ '"' :: rest) =
        ⟨true, value.toList, rest⟩ := by
    have hEnd :
        readString '"' ('"' :: rest) = ⟨true, [], rest⟩ := by
      simp [readString]
    rw [saysIn_flatMap hNull, hEnd, foldr_push, List.append_nil]
  refine ⟨'"', body ++ '"' :: rest, ?_, ?_, ?_⟩
  · simp [renderText, body]
  · change readQuoted '"' (body ++ '"' :: rest) = _
    simp [readQuoted, hRead]
  · simp
    omega

end MarkupMetrics.Css
