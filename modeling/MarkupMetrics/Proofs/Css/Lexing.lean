import MarkupMetrics.Css.Lexer
import Mathlib

/-
  This file shows which tokens a text can have, and gives the
  tokens of a text that is known piece by piece.

  Key definitions include:
    * `Css.IsName`
    * `Css.Token.Sound`
    * `Css.Stream.tokens`
    * `Css.Reads`
    * `Css.Lexed`

  Key theorems include:
    * `Css.isName_readName`
    * `Css.sound_readToken`
    * `Css.Stream.sound_ofText`
    * `Css.Lexed.tokens_ofText`
-/

namespace MarkupMetrics.Css

open Text

------------------------------------------------------------
-- Names
------------------------------------------------------------

/-
  A text that names something.  The null character cannot be
  part of one: it is read as the replacement character.
-/
def IsName
    (name : String) : Prop :=
  name.toList ≠ [] ∧ '\x00' ∉ name.toList

theorem isNameChar_of_isNameStart
    {c : Char}
    (hStart : isNameStart c = true) :
    isNameChar c = true := by
  simp only [isNameStart, Bool.or_eq_true] at hStart
  simp only [isNameChar, Bool.or_eq_true]
  tauto

theorem replacement_ne_null :
    replacement ≠ '\x00' := by
  decide

theorem charOfCode_ne_null
    (n : Nat) :
    charOfCode n ≠ '\x00' := by
  unfold charOfCode
  split
  · decide
  · rename_i hCode
    split
    · rename_i hValid
      intro hNull
      have hZero : (Char.ofNatAux n hValid).toNat = 0 := by
        rw [hNull]
        rfl
      exact hCode (by simpa [Char.toNat, Char.ofNatAux] using hZero)
    · decide

/- An escape never stands for the null character. -/
theorem readEscape_ne_null
    (s : List Char) :
    (readEscape s).1 ≠ '\x00' := by
  cases s with
  | nil => decide
  | cons c rest =>
      simp only [readEscape]
      split
      · exact charOfCode_ne_null _
      · split
        · exact replacement_ne_null
        · assumption

/- A read name has no null character. -/
theorem null_notMem_readName
    (s : List Char) :
    '\x00' ∉ (readName s).1 := by
  fun_induction readName s with
  | case1 => simp
  | case2 c rest hChar name after hRead ih =>
      rw [hRead] at ih
      have hNull : '\x00' ≠ c := by
        rintro rfl
        exact absurd hChar (by decide)
      simpa [hNull] using ih
  | case3 rest name after hRead hChar ih =>
      rw [hRead] at ih
      simpa [replacement_ne_null.symm] using ih
  | case4 c rest hChar hNone hEscape hShorter name after hRead ih =>
      rw [hRead] at ih
      simpa [(readEscape_ne_null rest).symm] using ih
  | case5 => simp

/- A name that starts here has a first character. -/
theorem readName_ne_nil
    {s : List Char}
    (hStarts : startsName s = true) :
    (readName s).1 ≠ [] := by
  unfold startsName at hStarts
  split at hStarts
  · have hChar : isNameChar '-' = true := by decide
    rw [readName]
    simp [hChar]
  · have hChar : isNameChar '\\' = false := by decide
    have hLine := by simpa using hStarts
    rw [readName]
    simp [hChar, hLine]
  · simp only [Bool.or_eq_true, beq_iff_eq] at hStarts
    rcases hStarts with hStart | rfl
    · rw [readName]
      simp [isNameChar_of_isNameStart hStart]
    · have hChar : isNameChar '\x00' = false := by decide
      rw [readName]
      simp [hChar]
  · exact absurd hStarts (by simp)

/- What is read where a name starts is a name. -/
theorem isName_readName
    {s : List Char}
    (hStarts : startsName s = true) :
    IsName (String.ofList (readName s).1) := by
  refine ⟨?_, ?_⟩
  · rw [String.toList_ofList]
    exact readName_ne_nil hStarts
  · rw [String.toList_ofList]
    exact null_notMem_readName s

------------------------------------------------------------
-- Sound tokens
------------------------------------------------------------

/-
  What holds of every token of a text: identifiers are names,
  and a number is negative only if it has a sign.
-/
def Token.Sound : Token → Prop
  | .ident name => IsName name
  | .idHash name => IsName name
  | .number n => n.signed = false → n.negative = false
  | _ => True

theorem sound_readUrl?
    {s rest : List Char}
    {t : Token}
    (hRead : readUrl? s = some (t, rest)) :
    t.Sound := by
  unfold readUrl? at hRead
  simp only at hRead
  split at hRead
  · simp at hRead
  · simp at hRead
  · split at hRead
    · simp only [Option.some.injEq, Prod.mk.injEq] at hRead
      rw [← hRead.1]
      trivial
    · simp only [Option.some.injEq, Prod.mk.injEq] at hRead
      rw [← hRead.1]
      trivial

theorem sound_readIdentLike
    {s : List Char}
    (hStarts : startsName s = true) :
    (readIdentLike s).1.Sound := by
  have hName := isName_readName hStarts
  unfold readIdentLike
  simp only
  split
  · split
    · rename_i rest _ _
      cases hUrl : readUrl? rest with
      | none => trivial
      | some r => exact sound_readUrl? hUrl
    · trivial
  · exact hName

theorem sound_readNumeric
    (s : List Char) :
    (readNumeric s).1.Sound := by
  have hSign :
      (readSign s).1 = false → (readSign s).2.1 = false := by
    unfold readSign
    split <;> simp
  unfold readNumeric
  simp only
  split
  · trivial
  · split
    · trivial
    · exact hSign

theorem sound_readQuoted
    (mark : Char)
    (s : List Char) :
    (readQuoted mark s).1.Sound := by
  unfold readQuoted
  simp only
  split <;> trivial

theorem sound_readHash
    (s : List Char) :
    (readHash s).1.Sound := by
  unfold readHash
  split
  · rename_i hStarts
    exact isName_readName hStarts
  · split
    · split <;> trivial
    · trivial

theorem sound_readAt
    (s : List Char) :
    (readAt s).1.Sound := by
  unfold readAt
  split <;> trivial

theorem sound_readMinus
    (s : List Char) :
    (readMinus s).1.Sound := by
  unfold readMinus
  split
  · exact sound_readNumeric _
  · split
    · trivial
    · split
      · rename_i hStarts
        exact sound_readIdentLike hStarts
      · trivial

theorem startsName_of_isNameStart
    {c : Char}
    (hStart : (isNameStart c || c == '\x00') = true)
    (rest : List Char) :
    startsName (c :: rest) = true := by
  unfold startsName
  split
  · rename_i hText
    rw [(List.cons.inj hText).1] at hStart
    exact absurd hStart (by decide)
  · rename_i hText
    rw [(List.cons.inj hText).1] at hStart
    exact absurd hStart (by decide)
  · rename_i hText
    rwa [← (List.cons.inj hText).1]
  · rename_i hText
    exact absurd hText (by simp)

/- Every token that is read is sound. -/
theorem sound_readToken
    (c : Char)
    (rest : List Char) :
    (readToken c rest).1.Sound := by
  unfold readToken
  split
  · trivial
  split
  · rename_i hStart
    exact
      sound_readIdentLike (startsName_of_isNameStart hStart rest)
  split
  · exact sound_readNumeric _
  split
  case h_1 => exact sound_readQuoted _ _
  case h_2 => exact sound_readQuoted _ _
  case h_3 => exact sound_readHash _
  case h_4 => exact sound_readAt _
  case h_5 => exact sound_readMinus _
  case h_6 =>
      split
      · exact sound_readNumeric _
      · trivial
  case h_7 =>
      split
      · exact sound_readNumeric _
      · trivial
  case h_8 =>
      split
      · trivial
      · rename_i hLine
        exact sound_readIdentLike (by simp [startsName, hLine])
  all_goals trivial

------------------------------------------------------------
-- Streams of tokens
------------------------------------------------------------

/- The tokens of a stream, without their columns. -/
def Stream.tokens
    (s : Stream) : List Token :=
  s.lexemes.map Lexeme.token

/- Every token of a stream is sound. -/
def Stream.Sound
    (s : Stream) : Prop :=
  ∀ l ∈ s.lexemes, l.token.Sound

theorem sound_lexFrom
    (fuel column : Nat)
    (s : List Char) :
    (lexFrom fuel column s).Sound := by
  induction fuel generalizing column s with
  | zero => cases s <;> simp [lexFrom, Stream.Sound]
  | succ fuel ih =>
      cases s with
      | nil => simp [lexFrom, Stream.Sound]
      | cons c rest =>
          intro l hMem
          rcases List.mem_cons.mp hMem with rfl | hLater
          · exact sound_readToken c rest
          · exact ih _ _ l hLater

/- Every token of a text is sound. -/
theorem Stream.sound_ofText
    (text : String) :
    (Stream.ofText text).Sound :=
  sound_lexFrom _ _ _

------------------------------------------------------------
-- Known pieces
------------------------------------------------------------

/- A text starts with a token, and goes on with a rest. -/
def Reads
    (text : List Char)
    (t : Token)
    (rest : List Char) : Prop :=
  ∃ c tail,
    text = c :: tail ∧ readToken c tail = (t, rest) ∧
      rest.length ≤ tail.length

/- The tokens of a text, read one after the other. -/
inductive Lexed : List Char → List Token → Prop where
  | nil : Lexed [] []
  | cons
      {text rest : List Char}
      {t : Token}
      {ts : List Token}
      (hReads : Reads text t rest)
      (hRest : Lexed rest ts) :
      Lexed text (t :: ts)

theorem Lexed.tokens_lexFrom
    {s : List Char}
    {ts : List Token}
    (hLexed : Lexed s ts) :
    ∀ fuel column,
      s.length ≤ fuel → (lexFrom fuel column s).tokens = ts := by
  induction hLexed with
  | nil =>
      intro fuel column _
      cases fuel <;> rfl
  | cons hReads _ ih =>
      rcases hReads with ⟨c, tail, rfl, hToken, hShorter⟩
      intro fuel column hFuel
      cases fuel with
      | zero => simp at hFuel
      | succ fuel =>
          have hEnough : _ ≤ fuel :=
            Nat.le_trans hShorter (by simpa using hFuel)
          simp only [lexFrom, hToken, Stream.tokens,
            List.map_cons, List.cons.injEq, true_and]
          exact ih fuel _ hEnough

/- These are the tokens that the lexer finds in the text. -/
theorem Lexed.tokens_ofText
    {text : String}
    {ts : List Token}
    (hLexed : Lexed text.toList ts) :
    (Stream.ofText text).tokens = ts :=
  hLexed.tokens_lexFrom _ _ (Nat.le_refl _)

end MarkupMetrics.Css
