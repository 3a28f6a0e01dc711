import MarkupMetrics.Proofs.Text.Blank
import Mathlib.Data.Bool.AllAny

/-
  This file describes the pieces that a text is cut into:
  what trimming leaves, where the last character of a kind
  stands, and what the words of a text are.

  Key definitions include:
    * `Text.AllBlank`
    * `Text.NoBlank`
    * `Text.Trimmed`
    * `Text.Words`

  Key theorems include:
    * `Text.trim_of_surrounded`
    * `Text.exists_trim`
    * `Text.cutLast?_eq_some_iff`
    * `Text.words_eq_iff`
-/

namespace MarkupMetrics.Text

------------------------------------------------------------
-- Blanks
------------------------------------------------------------

/- Every character is blank. -/
def AllBlank
    (s : List Char) : Prop :=
  ∀ c ∈ s, isBlank c = true

/- No character is blank. -/
def NoBlank
    (s : List Char) : Prop :=
  ∀ c ∈ s, isBlank c = false

/- There is no blank at the front. -/
def NoBlankFirst
    (s : List Char) : Prop :=
  ∀ c, s.head? = some c → isBlank c = false

/- There is no blank at the end. -/
def NoBlankLast
    (s : List Char) : Prop :=
  ∀ c, s.getLast? = some c → isBlank c = false

/- There are no blanks around a text. -/
def Trimmed
    (s : List Char) : Prop :=
  NoBlankFirst s ∧ NoBlankLast s

theorem allBlank_nil :
    AllBlank [] := by
  simp [AllBlank]

theorem NoBlank.trimmed
    {s : List Char}
    (hSolid : NoBlank s) :
    Trimmed s :=
  ⟨fun c hFirst => hSolid c (List.mem_of_head? hFirst),
    fun c hLast => hSolid c (List.mem_of_getLast? hLast)⟩

/- A word ends the text, whatever stands in front. -/
theorem NoBlank.trimmed_behind
    {front word : List Char}
    (hSolid : NoBlank word)
    (hSome : word ≠ [])
    (hFirst : NoBlankFirst (front ++ word)) :
    Trimmed (front ++ word) := by
  refine ⟨hFirst, fun c hC => hSolid c ?_⟩
  rw [List.getLast?_append_of_ne_nil _ hSome] at hC
  exact List.mem_of_getLast? hC

/- A text that starts with no blank is not blank. -/
theorem not_allBlank_of_noBlankFirst
    {s : List Char}
    (hFirst : NoBlankFirst s)
    (hSome : s ≠ []) :
    ¬ AllBlank s := by
  cases s with
  | nil => exact absurd rfl hSome
  | cons c rest =>
      intro hBlank
      have hC := hFirst c rfl
      rw [hBlank c (by simp)] at hC
      cases hC

------------------------------------------------------------
-- Trimming
------------------------------------------------------------

/- Blanks in front are dropped. -/
theorem trimStart_append
    {gap : List Char}
    (hGap : AllBlank gap)
    (s : List Char) :
    trimStart (gap ++ s) = trimStart s :=
  List.dropWhile_append_of_pos hGap

theorem trimStart_of_noBlankFirst
    {s : List Char}
    (hFirst : NoBlankFirst s) :
    trimStart s = s := by
  cases s with
  | nil => rfl
  | cons c rest => exact trimStart_cons (hFirst c rfl) rest

theorem noBlankFirst_trimStart
    (s : List Char) :
    NoBlankFirst (trimStart s) := by
  rcases trimStart_cases s with hNone | ⟨c, rest, hSome, hC⟩
  · simp [NoBlankFirst, hNone]
  · intro d hFirst
    rw [hSome] at hFirst
    cases hFirst
    exact hC

/- What is dropped at the front is blank. -/
theorem exists_trimStart
    (s : List Char) :
    ∃ gap, s = gap ++ trimStart s ∧ AllBlank gap :=
  ⟨s.takeWhile isBlank,
    List.takeWhile_append_dropWhile.symm,
    fun _ => List.mem_takeWhile_imp⟩

/- Trimming at the end is trimming at the front, reversed. -/
theorem trimEnd_eq
    (s : List Char) :
    trimEnd s = (trimStart s.reverse).reverse :=
  rfl

theorem noBlankLast_iff_reverse
    {s : List Char} :
    NoBlankLast s ↔ NoBlankFirst s.reverse := by
  simp [NoBlankLast, NoBlankFirst]

theorem noBlankFirst_trimEnd
    {s : List Char}
    (hFirst : NoBlankFirst s) :
    NoBlankFirst (trimEnd s) := by
  cases s with
  | nil => exact hFirst
  | cons c rest =>
      have hC := hFirst c rfl
      rw [trimEnd_cons hC]
      intro d hSome
      cases hSome
      exact hC

/- What is left has no blanks around it. -/
theorem trimmed_trim
    (s : List Char) :
    Trimmed (trim s) := by
  refine
    ⟨noBlankFirst_trimEnd (noBlankFirst_trimStart s), ?_⟩
  rw [noBlankLast_iff_reverse, trim, trimEnd_eq,
    List.reverse_reverse]
  exact noBlankFirst_trimStart _

/- Trimming finds what stands between blanks. -/
theorem trim_of_surrounded
    {before s after : List Char}
    (hBefore : AllBlank before)
    (hTrimmed : Trimmed s)
    (hAfter : AllBlank after) :
    trim (before ++ s ++ after) = s := by
  have hReversed : AllBlank after.reverse := fun c hMember =>
    hAfter c (List.mem_reverse.mp hMember)
  have hEnd : trimEnd (s ++ after) = s := by
    rw [trimEnd_eq, List.reverse_append,
      trimStart_append hReversed,
      trimStart_of_noBlankFirst
        (noBlankLast_iff_reverse.mp hTrimmed.2),
      List.reverse_reverse]
  rw [trim, List.append_assoc, trimStart_append hBefore]
  cases s with
  | nil =>
      have hNone : trimStart after = [] :=
        List.dropWhile_eq_nil_iff.mpr hAfter
      rw [List.nil_append, hNone]
      rfl
  | cons c rest =>
      rw [List.cons_append,
        trimStart_cons (hTrimmed.1 c rfl) (rest ++ after)]
      exact hEnd

theorem trim_of_trimmed
    {s : List Char}
    (hTrimmed : Trimmed s) :
    trim s = s := by
  simpa using
    trim_of_surrounded allBlank_nil hTrimmed allBlank_nil

/- Blanks stand around what is left, and nothing else. -/
theorem exists_trim
    (s : List Char) :
    ∃ before after,
      s = before ++ trim s ++ after ∧
        AllBlank before ∧ AllBlank after := by
  rcases exists_trimStart s with ⟨before, hStart, hBefore⟩
  rcases exists_trimStart (trimStart s).reverse with
    ⟨after, hEnd, hAfter⟩
  refine ⟨before, after.reverse, ?_, hBefore, ?_⟩
  · have hSplit :
        trimStart s = trim s ++ after.reverse := by
      have hFlipped := congrArg List.reverse hEnd
      rwa [List.reverse_reverse, List.reverse_append]
        at hFlipped
    rw [List.append_assoc, ← hSplit]
    exact hStart
  · exact fun c hMember =>
      hAfter c (List.mem_reverse.mp hMember)

/-
  In front of a blank in a text that does not start with one,
  something is left of what stands there.
-/
theorem exists_trim_of_behind
    {front rest : List Char}
    {c : Char}
    (hFirst : NoBlankFirst (front ++ c :: rest))
    (hC : isBlank c = true) :
    ∃ gap,
      front = trim front ++ gap ∧ AllBlank gap ∧
        trim front ≠ [] := by
  rcases exists_trim front with
    ⟨before, gap, hFront, hBefore, hGap⟩
  have hNone : before = [] := by
    cases before with
    | nil => rfl
    | cons d before =>
        have hD := hFirst d (by rw [hFront]; simp)
        rw [hBefore d (by simp)] at hD
        cases hD
  subst hNone
  refine ⟨gap, hFront, hGap, ?_⟩
  intro hTrim
  rw [hTrim, List.append_nil, List.nil_append] at hFront
  subst hFront
  cases front with
  | nil =>
      rw [hFirst c rfl] at hC
      cases hC
  | cons d front =>
      have hD := hFirst d rfl
      rw [hGap d (by simp)] at hD
      cases hD

/-
  What stands behind a text and a space is trimmed together
  with it: blanks are left between the two, or there is
  nothing in front.
-/
theorem exists_trim_append
    (s : List Char)
    {tail : List Char}
    (hSome : tail ≠ [])
    (hTail : Trimmed tail) :
    ∃ gap,
      gap ≠ [] ∧ AllBlank gap ∧
        trim (s ++ ' ' :: tail) =
          if trim s = [] then tail else trim s ++ gap ++ tail := by
  rcases exists_trim s with ⟨before, after, hS, hBefore, hAfter⟩
  have hSpace : isBlank ' ' = true := by decide
  have hGap : AllBlank (after ++ [' ']) := by
    intro c hMember
    rcases List.mem_append.mp hMember with hOld | hNew
    · exact hAfter c hOld
    · exact List.mem_singleton.mp hNew ▸ hSpace
  refine ⟨after ++ [' '], by simp, hGap, ?_⟩
  have hNone := allBlank_nil
  split
  · rename_i hBlank
    rw [hBlank, List.append_nil] at hS
    have hFront : AllBlank (before ++ (after ++ [' '])) :=
      fun c hMember =>
        (List.mem_append.mp hMember).elim (hBefore c) (hGap c)
    have hTrim := trim_of_surrounded hFront hTail hNone
    rw [hS]
    simpa using hTrim
  · rename_i hVisible
    have hWhole : Trimmed (trim s ++ (after ++ [' ']) ++ tail) := by
      constructor
      · intro c hC
        refine (trimmed_trim s).1 c ?_
        rcases List.exists_cons_of_ne_nil hVisible with
          ⟨d, rest, hCons⟩
        rw [hCons] at hC ⊢
        exact hC
      · intro c hC
        refine hTail.2 c ?_
        rwa [List.getLast?_append_of_ne_nil _ hSome] at hC
    have hTrim := trim_of_surrounded hBefore hWhole hNone
    rw [List.append_nil] at hTrim
    rw [← hTrim]
    congr 1
    conv_lhs => rw [hS]
    simp

------------------------------------------------------------
-- The last character of a kind
------------------------------------------------------------

section Cutting

variable {p : Char → Bool}

/- There is no cut where no character is of the kind. -/
theorem cutLast?_eq_none_iff
    {s : List Char} :
    cutLast? p s = none ↔ ∀ c ∈ s, p c = false := by
  induction s with
  | nil => simp [cutLast?]
  | cons c rest ih =>
      cases hRest : cutLast? p rest with
      | some cut =>
          have hSome : ¬ ∀ c ∈ rest, p c = false := by
            rw [← ih, hRest]
            simp
          simp only [cutLast?, hRest, reduceCtorEq,
            List.mem_cons, forall_eq_or_imp, false_iff, not_and]
          exact fun _ => hSome
      | none =>
          have hNone := ih.mp hRest
          cases hC : p c with
          | true => simp [cutLast?, hRest, hC]
          | false =>
              simp only [cutLast?, hRest, hC,
                Bool.false_eq_true, if_false, List.mem_cons,
                forall_eq_or_imp, true_and, true_iff]
              exact hNone

/- The cut is where nothing of the kind follows. -/
theorem cutLast?_eq_some_iff
    {s before after : List Char} :
    cutLast? p s = some (before, after) ↔
      ∃ c, s = before ++ c :: after ∧ p c = true ∧
        ∀ d ∈ after, p d = false := by
  induction s generalizing before after with
  | nil => simp [cutLast?]
  | cons c rest ih =>
      cases hRest : cutLast? p rest with
      | some cut =>
          rcases cut with ⟨front, back⟩
          have hFound := ih.mp hRest
          simp only [cutLast?, hRest, Option.some.injEq,
            Prod.mk.injEq]
          constructor
          · rintro ⟨rfl, rfl⟩
            rcases hFound with ⟨d, hSplit, hD, hAfter⟩
            exact ⟨d, by simp [hSplit], hD, hAfter⟩
          · rintro ⟨d, hSplit, hD, hAfter⟩
            cases before with
            | nil =>
                -- The rest would have no such character.
                have hNone :=
                  cutLast?_eq_none_iff.mpr hAfter
                cases hSplit
                rw [hNone] at hRest
                cases hRest
            | cons e before =>
                cases hSplit
                have hAgain :=
                  ih.mpr ⟨d, rfl, hD, hAfter⟩
                rw [hAgain] at hRest
                cases hRest
                exact ⟨rfl, rfl⟩
      | none =>
          have hNone := cutLast?_eq_none_iff.mp hRest
          constructor
          · intro hCut
            cases hC : p c with
            | false => simp [cutLast?, hRest, hC] at hCut
            | true =>
                simp only [cutLast?, hRest, hC, if_true,
                  Option.some.injEq, Prod.mk.injEq] at hCut
                rcases hCut with ⟨rfl, rfl⟩
                exact ⟨c, rfl, hC, hNone⟩
          · rintro ⟨d, hSplit, hD, hAfter⟩
            cases before with
            | nil =>
                cases hSplit
                simp [cutLast?, hRest, hD]
            | cons e before =>
                cases hSplit
                have hFalse := hNone d (by simp)
                rw [hD] at hFalse
                cases hFalse

/- What has nothing of the kind may stand in front of a cut. -/
theorem cutLast?_append
    {front : List Char}
    (hNone : ∀ c ∈ front, p c = false)
    (s : List Char) :
    cutLast? p (front ++ s) =
      (cutLast? p s).map fun cut => (front ++ cut.1, cut.2) := by
  cases hCut : cutLast? p s with
  | none =>
      have hRest := cutLast?_eq_none_iff.mp hCut
      exact cutLast?_eq_none_iff.mpr fun c hMember =>
        (List.mem_append.mp hMember).elim (hNone c) (hRest c)
  | some cut =>
      rcases cutLast?_eq_some_iff.mp hCut with
        ⟨c, hSplit, hC, hAfter⟩
      exact cutLast?_eq_some_iff.mpr
        ⟨c, by simp [hSplit], hC, hAfter⟩

end Cutting

/- A sign occurs nowhere if no character is equal to it. -/
theorem not_mem_iff_beq
    {s : List Char}
    {sign : Char} :
    sign ∉ s ↔ ∀ c ∈ s, (c == sign) = false := by
  constructor
  · intro hNone c hMember
    simp only [beq_eq_false_iff_ne, ne_eq]
    rintro rfl
    exact hNone hMember
  · intro hOther hMember
    have hSame := hOther sign hMember
    simp at hSame

/- There is no cut where a sign does not occur. -/
theorem cutLast?_sign_eq_none_iff
    {s : List Char}
    {sign : Char} :
    cutLast? (· == sign) s = none ↔ sign ∉ s := by
  rw [cutLast?_eq_none_iff, not_mem_iff_beq]

/- The cut is where a sign occurs last. -/
theorem cutLast?_sign_eq_some_iff
    {s before after : List Char}
    {sign : Char} :
    cutLast? (· == sign) s = some (before, after) ↔
      s = before ++ sign :: after ∧ sign ∉ after := by
  rw [cutLast?_eq_some_iff, not_mem_iff_beq]
  constructor
  · rintro ⟨c, hSplit, hC, hAfter⟩
    obtain rfl : c = sign := by simpa using hC
    exact ⟨hSplit, hAfter⟩
  · rintro ⟨hSplit, hAfter⟩
    exact ⟨sign, hSplit, by simp, hAfter⟩

------------------------------------------------------------
-- Words
------------------------------------------------------------

/-
  The words of a text: between blanks, and as long as they
  can be.
-/
inductive Words : List Char → List (List Char) → Prop where
  | none
      {gap : List Char}
      (blank : AllBlank gap) :
      Words gap []
  | more
      {gap word rest : List Char}
      {others : List (List Char)}
      (blank : AllBlank gap)
      (nonempty : word ≠ [])
      (solid : NoBlank word)
      (ended : ∀ c, rest.head? = some c → isBlank c = true)
      (following : Words rest others) :
      Words (gap ++ word ++ rest) (word :: others)

namespace Words

/- A blank in front is no part of a word. -/
theorem blank_cons
    {c : Char}
    {rest : List Char}
    {found : List (List Char)}
    (hBlank : isBlank c = true)
    (hWords : Words rest found) :
    Words (c :: rest) found := by
  cases hWords with
  | none blank =>
      exact .none (by simpa [AllBlank, hBlank] using blank)
  | @more gap word rest others blank nonempty solid ended following =>
      have hGap : AllBlank (c :: gap) := by
        simpa [AllBlank, hBlank] using blank
      exact .more hGap nonempty solid ended following

/- A character in front of a word belongs to it. -/
theorem solid_cons
    {c d : Char}
    {rest : List Char}
    {found : List (List Char)}
    (hC : isBlank c = false)
    (hD : isBlank d = false)
    (hWords : Words (d :: rest) found) :
    ∃ word others,
      found = word :: others ∧
        Words (c :: d :: rest) ((c :: word) :: others) := by
  generalize hText : d :: rest = text at hWords ⊢
  cases hWords with
  | none blank =>
      subst hText
      have hBlank := blank d (by simp)
      rw [hD] at hBlank
      cases hBlank
  | @more gap word after others blank nonempty solid ended following =>
      cases gap with
      | cons e gap =>
          cases hText
          have hBlank := blank d (by simp)
          rw [hD] at hBlank
          cases hBlank
      | nil =>
          refine ⟨word, others, rfl, ?_⟩
          have hWord : NoBlank (c :: word) := by
            simpa [NoBlank, hC] using solid
          exact
            Words.more allBlank_nil (by simp) hWord ended following

/- No word is empty or has a blank in it. -/
theorem solid_of_mem
    {s : List Char}
    {found : List (List Char)}
    (hWords : Words s found)
    {word : List Char}
    (hMember : word ∈ found) :
    word ≠ [] ∧ NoBlank word := by
  induction hWords with
  | none => cases hMember
  | more _ nonempty solid _ _ ih =>
      rcases List.mem_cons.mp hMember with rfl | hLater
      · exact ⟨nonempty, solid⟩
      · exact ih hLater

/- The characters of a word are characters of the text. -/
theorem mem_of_mem_word
    {s : List Char}
    {found : List (List Char)}
    (hWords : Words s found)
    {word : List Char}
    (hMember : word ∈ found)
    {c : Char}
    (hC : c ∈ word) :
    c ∈ s := by
  induction hWords with
  | none => cases hMember
  | more _ _ _ _ _ ih =>
      rcases List.mem_cons.mp hMember with rfl | hLater
      · simp [hC]
      · simp [ih hLater]

/- A word alone. -/
theorem single
    {word : List Char}
    (hSome : word ≠ [])
    (hSolid : NoBlank word) :
    Words word [word] := by
  simpa using
    Words.more allBlank_nil hSome hSolid (by simp)
      (.none allBlank_nil)

/- A word one space in front of others. -/
theorem cons_space
    {word rest : List Char}
    {found : List (List Char)}
    (hSome : word ≠ [])
    (hSolid : NoBlank word)
    (hWords : Words rest found) :
    Words (word ++ ' ' :: rest) (word :: found) := by
  have hSpace : isBlank ' ' = true := by decide
  simpa using
    Words.more allBlank_nil hSome hSolid (by simpa using hSpace)
      (hWords.blank_cons hSpace)

end Words

theorem words_blank_append
    {gap : List Char}
    (hBlank : AllBlank gap)
    (s : List Char) :
    words (gap ++ s) = words s := by
  induction gap with
  | nil => rfl
  | cons c gap ih =>
      have hC : isBlank c = true := hBlank c (by simp)
      have hGap : AllBlank gap := fun d hMember =>
        hBlank d (List.mem_cons_of_mem c hMember)
      simpa [words, wordsBy, hC] using ih hGap

/- A word up to a blank or the end comes first. -/
theorem words_solid_append
    {word rest : List Char}
    (hSome : word ≠ [])
    (hSolid : NoBlank word)
    (hEnded : ∀ c, rest.head? = some c → isBlank c = true) :
    words (word ++ rest) = word :: words rest := by
  induction word with
  | nil => exact absurd rfl hSome
  | cons c word ih =>
      have hC : isBlank c = false := hSolid c (by simp)
      cases word with
      | nil =>
          cases rest with
          | nil => simp [words, wordsBy, hC]
          | cons d rest =>
              have hD := hEnded d rfl
              simp [words, wordsBy, hC, hD]
      | cons d word =>
          have hD : isBlank d = false := hSolid d (by simp)
          have hRest :=
            ih (by simp) fun e hMember =>
              hSolid e (List.mem_cons_of_mem c hMember)
          simp only [words, List.cons_append] at hRest ⊢
          rw [wordsBy]
          simp [hC, hD, hRest]

/- Splitting a text finds its words. -/
theorem words_spec
    (s : List Char) :
    Words s (words s) := by
  induction s with
  | nil => exact .none allBlank_nil
  | cons c rest ih =>
      cases hC : isBlank c with
      | true =>
          have hSame : words (c :: rest) = words rest := by
            simp [words, wordsBy, hC]
          rw [hSame]
          exact ih.blank_cons hC
      | false =>
          cases rest with
          | nil =>
              have hAlone : words [c] = [[c]] := by
                simp [words, wordsBy, hC]
              rw [hAlone]
              exact .single (by simp) (by simpa [NoBlank] using hC)
          | cons d rest =>
              cases hD : isBlank d with
              | true =>
                  have hSplit :
                      words (c :: d :: rest) =
                        [c] :: words (d :: rest) := by
                    simp [words, wordsBy, hC, hD]
                  have hWord : NoBlank [c] := by
                    simpa [NoBlank] using hC
                  rw [hSplit]
                  exact
                    Words.more allBlank_nil (by simp) hWord
                      (by simpa using hD) ih
              | false =>
                  rcases ih.solid_cons hC hD with
                    ⟨word, others, hFound, hWords⟩
                  have hSplit :
                      words (c :: d :: rest) =
                        (c :: word) :: others := by
                    simp only [words] at hFound ⊢
                    rw [wordsBy]
                    simp [hC, hD, hFound]
                  rw [hSplit]
                  exact hWords

/- What splitting finds are the words of a text. -/
theorem words_eq_iff
    {s : List Char}
    {found : List (List Char)} :
    words s = found ↔ Words s found := by
  constructor
  · rintro rfl
    exact words_spec s
  · intro hWords
    induction hWords with
    | none blank =>
        simpa [words, wordsBy] using words_blank_append blank []
    | more blank nonempty solid ended _ ih =>
        rw [List.append_assoc, words_blank_append blank,
          words_solid_append nonempty solid ended, ih]

end MarkupMetrics.Text
