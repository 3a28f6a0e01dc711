import MarkupMetrics.Extractor.Basic
import MarkupMetrics.Proofs.Text.Cutting

/-
  This file proves which words say what is read, and why any
  other word does not.  It also says what is left of a text
  without its global marker.

  Key definitions include:
    * `Marked`
    * `Reading.Written`
    * `Reading.Refused`

  Key theorems include:
    * `splitMarker_eq_iff`
    * `Reading.parse_eq_ok_iff`
    * `Reading.parse_eq_error_iff`
-/

namespace MarkupMetrics

open Text

------------------------------------------------------------
-- Markers
------------------------------------------------------------

/-
  What is left of a text without its global marker.  The
  blanks after the marker go with it.
-/
inductive Marked : List Char → Bool → List Char → Prop where
  | plain
      {s : List Char}
      (unmarked : s.head? ≠ some '!') :
      Marked s false s
  | marked
      {gap s : List Char}
      (blank : AllBlank gap)
      (start : NoBlankFirst s) :
      Marked ('!' :: (gap ++ s)) true s

theorem splitMarker_eq_iff
    {s rest : List Char}
    {global : Bool} :
    splitMarker s = (global, rest) ↔ Marked s global rest := by
  constructor
  · intro hSplit
    unfold splitMarker at hSplit
    split at hSplit
    · rename_i after
      cases hSplit
      rcases exists_trimStart after with ⟨gap, hAfter, hGap⟩
      have hMarked :=
        Marked.marked hGap (noBlankFirst_trimStart after)
      rwa [← hAfter] at hMarked
    · rename_i hPlain
      cases hSplit
      refine .plain ?_
      intro hFirst
      rcases List.head?_eq_some_iff.mp hFirst with ⟨after, rfl⟩
      exact hPlain after rfl
  · intro hMarked
    cases hMarked with
    | plain unmarked =>
        unfold splitMarker
        split
        · exact absurd rfl unmarked
        · rfl
    | marked blank start =>
        simp only [splitMarker, trimStart_append blank,
          trimStart_of_noBlankFirst start]

/- The blanks behind a marked selector make no difference. -/
theorem splitMarker_trim
    {front selector gap : List Char}
    {global : Bool}
    (hMarked : Marked front global selector)
    (hTrimmed : Trimmed selector)
    (hGap : AllBlank gap) :
    splitMarker (trim (front ++ gap)) =
      (global, selector) := by
  cases hMarked with
  | plain unmarked =>
      have hTrim := trim_of_surrounded allBlank_nil hTrimmed hGap
      rw [List.nil_append] at hTrim
      rw [hTrim, splitMarker_eq_iff]
      exact .plain unmarked
  | @marked inner _ blank start =>
      cases selector with
      | nil =>
          have hMarker : Trimmed ['!'] :=
            NoBlank.trimmed (by simp [NoBlank, isBlank, blankRanges])
          have hBehind : AllBlank (inner ++ gap) := fun c hMember =>
            (List.mem_append.mp hMember).elim (blank c) (hGap c)
          have hTrim :=
            trim_of_surrounded allBlank_nil hMarker hBehind
          simp only [List.nil_append, List.cons_append,
            List.append_nil] at hTrim ⊢
          rw [hTrim]
          rfl
      | cons c rest =>
          have hAll : Trimmed ('!' :: (inner ++ c :: rest)) := by
            refine ⟨by simp [NoBlankFirst, isBlank, blankRanges], ?_⟩
            intro d hLast
            refine hTrimmed.2 d ?_
            simpa [List.getLast?_cons, List.getLast?_append]
              using hLast
          have hTrim := trim_of_surrounded allBlank_nil hAll hGap
          rw [List.nil_append] at hTrim
          rw [hTrim, splitMarker_eq_iff]
          exact .marked blank start

/- Splitting leaves no blanks around what it leaves. -/
theorem marked_splitMarker
    {front : List Char}
    (hTrimmed : Trimmed front) :
    Marked front (splitMarker front).1 (splitMarker front).2 ∧
      Trimmed (splitMarker front).2 := by
  have hMarked :
      Marked front (splitMarker front).1 (splitMarker front).2 :=
    splitMarker_eq_iff.mp rfl
  refine ⟨hMarked, ?_⟩
  generalize (splitMarker front).1 = global at hMarked
  generalize (splitMarker front).2 = selector at hMarked
  cases hMarked with
  | plain => exact hTrimmed
  | @marked gap _ blank start =>
      refine ⟨start, ?_⟩
      intro c hLast
      refine hTrimmed.2 c ?_
      simp [List.getLast?_cons, List.getLast?_append, hLast]

------------------------------------------------------------
-- Words that say what is read
------------------------------------------------------------

namespace Reading

/- The word that stands for a reading. -/
def Written
    (token : List Char) : Reading → Prop
  | .text => token = "text".toList
  | .attribute name =>
      name ≠ "" ∧ token = "attr(".toList ++ name.toList ++ [')']

/-
  A word is cut after the letters at its front, as many as
  there are.
-/
structure NameEnds
    (name rest : List Char) : Prop where
  letters : ∀ c ∈ name, isNameLetter c = true
  ended : ∀ c, rest.head? = some c → isNameLetter c = false

/- An argument stands between parentheses. -/
def IsArgument
    (s : List Char) : Prop :=
  ∃ arg, s = '(' :: (arg ++ [')'])

/- Why a word does not say what is read. -/
inductive Refused : List Char → ExtractorError → Prop where
  | malformed
      {name rest : List Char}
      (cut : NameEnds name rest)
      (more : rest ≠ [])
      (noArgument : ¬ IsArgument rest) :
      Refused (name ++ rest)
        (.malformed (String.ofList (name ++ rest)))
  | unexpectedArgument
      (arg : List Char) :
      Refused ("text(".toList ++ arg ++ [')'])
        (.unexpectedArgument "text")
  | missingArgument
      {token : List Char}
      (bare : token = "attr".toList ∨ token = "attr()".toList) :
      Refused token (.missingArgument "attr")
  | unsupported
      {name rest : List Char}
      (cut : NameEnds name rest)
      (notText : name ≠ "text".toList)
      (notAttribute : name ≠ "attr".toList)
      (shape : rest = [] ∨ IsArgument rest) :
      Refused (name ++ rest)
        (.unsupported (String.ofList (name ++ rest)))

theorem argument?_eq_some_iff
    {s arg : List Char} :
    argument? s = some arg ↔ s = '(' :: (arg ++ [')']) := by
  constructor
  · intro hArgument
    unfold argument? at hArgument
    split at hArgument
    · rename_i rest
      split at hArgument
      · rename_i hLast
        cases hArgument
        rcases List.getLast?_eq_some_iff.mp hLast with
          ⟨front, rfl⟩
        simp
      · cases hArgument
    · cases hArgument
  · rintro rfl
    simp [argument?]

theorem argument?_eq_none_iff
    {s : List Char} :
    argument? s = none ↔ ¬ IsArgument s := by
  rw [Option.eq_none_iff_forall_ne_some]
  simp [IsArgument, argument?_eq_some_iff]

theorem NameEnds.split
    {name rest : List Char}
    (hCut : NameEnds name rest) :
    (name ++ rest).takeWhile isNameLetter = name ∧
      (name ++ rest).dropWhile isNameLetter = rest := by
  have hRest :
      rest.takeWhile isNameLetter = [] ∧
        rest.dropWhile isNameLetter = rest := by
    cases rest with
    | nil => simp
    | cons c rest => simp [hCut.ended c rfl]
  rw [List.takeWhile_append_of_pos hCut.letters,
    List.dropWhile_append_of_pos hCut.letters, hRest.1, hRest.2]
  simp

/- Every word is cut in this way. -/
theorem exists_nameEnds
    (token : List Char) :
    ∃ name rest, token = name ++ rest ∧ NameEnds name rest := by
  refine
    ⟨token.takeWhile isNameLetter,
      token.dropWhile isNameLetter,
      List.takeWhile_append_dropWhile.symm,
      fun _ => List.mem_takeWhile_imp, ?_⟩
  intro c hFirst
  have hHead := List.head?_dropWhile_not isNameLetter token
  rw [hFirst] at hHead
  simpa using hHead

/- Parsing looks at the two parts of a word. -/
theorem parse_append
    {name rest : List Char}
    (hCut : NameEnds name rest) :
    parse (name ++ rest) =
      if rest = [] then
        if name = "text".toList then .ok .text
        else if name = "attr".toList then
          .error (.missingArgument "attr")
        else .error (.unsupported (String.ofList (name ++ rest)))
      else
        match argument? rest with
        | none =>
            .error (.malformed (String.ofList (name ++ rest)))
        | some arg =>
            if name = "text".toList then
              .error (.unexpectedArgument "text")
            else if name = "attr".toList then
              if arg = [] then .error (.missingArgument "attr")
              else .ok (.attribute (String.ofList arg))
            else
              .error
                (.unsupported (String.ofList (name ++ rest))) := by
  have hName (word : String) :
      String.ofList name = word ↔ name = word.toList := by
    rw [← String.toList_inj, String.toList_ofList]
  rw [parse, hCut.split.1, hCut.split.2]
  simp only [hName]
  by_cases hText : name = "text".toList
  · cases argument? rest <;> simp [hText]
  · by_cases hAttribute : name = "attr".toList
    · cases argument? rest <;> simp [hAttribute]
    · cases argument? rest <;>
        simp only [hText, hAttribute, if_false]

theorem nameEnds_text
    {rest : List Char}
    (hRest : rest = [] ∨ IsArgument rest) :
    NameEnds "text".toList rest := by
  refine ⟨List.all_eq_true.mp (by decide), ?_⟩
  rcases hRest with rfl | ⟨arg, rfl⟩
  · simp
  · simp [isNameLetter]

theorem nameEnds_attribute
    {rest : List Char}
    (hRest : rest = [] ∨ IsArgument rest) :
    NameEnds "attr".toList rest := by
  refine ⟨List.all_eq_true.mp (by decide), ?_⟩
  rcases hRest with rfl | ⟨arg, rfl⟩
  · simp
  · simp [isNameLetter]

/- What a word is read as is what it is written for. -/
theorem written_of_parse
    {token : List Char}
    {r : Reading}
    (hParse : parse token = .ok r) :
    r.Written token := by
  rcases exists_nameEnds token with ⟨name, rest, rfl, hCut⟩
  rw [parse_append hCut] at hParse
  split at hParse
  · rename_i hRest
    subst hRest
    split at hParse
    · rename_i hText
      cases hParse
      simpa [Written] using hText
    · split at hParse <;> cases hParse
  · split at hParse
    · cases hParse
    · rename_i arg hArgument
      split at hParse
      · cases hParse
      · split at hParse
        · rename_i hAttribute
          split at hParse
          · cases hParse
          · rename_i hSome
            cases hParse
            refine ⟨?_, ?_⟩
            · rwa [ne_eq, ← String.toList_inj,
                String.toList_ofList]
            · rw [argument?_eq_some_iff.mp hArgument,
                hAttribute]
              simp
        · cases hParse

/- A word is refused for the reason that it gives. -/
theorem refused_of_parse
    {token : List Char}
    {e : ExtractorError}
    (hParse : parse token = .error e) :
    Refused token e := by
  rcases exists_nameEnds token with ⟨name, rest, rfl, hCut⟩
  rw [parse_append hCut] at hParse
  split at hParse
  · rename_i hRest
    subst hRest
    split at hParse
    · cases hParse
    · rename_i hText
      split at hParse
      · rename_i hAttribute
        cases hParse
        exact .missingArgument (Or.inl (by simp [hAttribute]))
      · rename_i hAttribute
        cases hParse
        exact .unsupported hCut hText hAttribute (Or.inl rfl)
  · rename_i hSome
    split at hParse
    · rename_i hNone
      cases hParse
      exact
        .malformed hCut hSome (argument?_eq_none_iff.mp hNone)
    · rename_i arg hArgument
      have hShape := argument?_eq_some_iff.mp hArgument
      split at hParse
      · rename_i hText
        cases hParse
        rw [hText, hShape]
        exact .unexpectedArgument arg
      · rename_i hText
        split at hParse
        · rename_i hAttribute
          split at hParse
          · rename_i hEmpty
            cases hParse
            refine .missingArgument (Or.inr ?_)
            rw [hAttribute, hShape, hEmpty]
            rfl
          · cases hParse
        · rename_i hAttribute
          cases hParse
          exact
            .unsupported hCut hText hAttribute
              (Or.inr ⟨arg, hShape⟩)

theorem parse_of_written
    {token : List Char}
    {r : Reading}
    (hWritten : r.Written token) :
    parse token = .ok r := by
  cases r with
  | text =>
      rw [show token = "text".toList from hWritten]
      rfl
  | «attribute» name =>
      rcases hWritten with ⟨hSome, rfl⟩
      have hArgument : IsArgument ('(' :: (name.toList ++ [')'])) :=
        ⟨_, rfl⟩
      have hSplit :
          "attr(".toList ++ name.toList ++ [')'] =
            "attr".toList ++ '(' :: (name.toList ++ [')']) := by
        simp
      have hName : name.toList ≠ [] := by
        simpa using hSome
      rw [hSplit,
        parse_append (nameEnds_attribute (Or.inr hArgument)),
        argument?_eq_some_iff.mpr rfl]
      simp [hName]

theorem parse_of_refused
    {token : List Char}
    {e : ExtractorError}
    (hRefused : Refused token e) :
    parse token = .error e := by
  cases hRefused with
  | malformed cut more noArgument =>
      rw [parse_append cut, argument?_eq_none_iff.mpr noArgument]
      simp [more]
  | unexpectedArgument arg =>
      have hArgument : IsArgument ('(' :: (arg ++ [')'])) :=
        ⟨arg, rfl⟩
      have hSplit :
          "text(".toList ++ arg ++ [')'] =
            "text".toList ++ '(' :: (arg ++ [')']) := by
        simp
      rw [hSplit,
        parse_append (nameEnds_text (Or.inr hArgument)),
        argument?_eq_some_iff.mpr rfl]
      simp
  | missingArgument bare =>
      rcases bare with rfl | rfl <;> rfl
  | unsupported cut notText notAttribute shape =>
      rw [parse_append cut]
      rcases shape with rfl | ⟨arg, rfl⟩
      · simp only [if_true, notText, notAttribute, if_false]
      · rw [argument?_eq_some_iff.mpr rfl]
        simp only [reduceCtorEq, if_false, notText,
          notAttribute]

theorem parse_eq_ok_iff
    {token : List Char}
    {r : Reading} :
    parse token = .ok r ↔ r.Written token :=
  ⟨written_of_parse, parse_of_written⟩

theorem parse_eq_error_iff
    {token : List Char}
    {e : ExtractorError} :
    parse token = .error e ↔ Refused token e :=
  ⟨refused_of_parse, parse_of_refused⟩

/- The canonical text of a reading is its word. -/
theorem Written.render_eq
    {token : List Char}
    {r : Reading}
    (hWritten : r.Written token) :
    r.render.toList = token := by
  cases r with
  | text => exact hWritten.symm
  | «attribute» name =>
      rw [hWritten.2, render]
      simp

theorem Written.ne_nil
    {token : List Char}
    {r : Reading}
    (hWritten : r.Written token) :
    token ≠ [] := by
  rw [← hWritten.render_eq]
  cases r <;> simp [render]

end Reading

end MarkupMetrics
