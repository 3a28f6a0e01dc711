import MarkupMetrics.Proofs.Extractor.Reading

/-
  This file proves that parsing an extractor accepts exactly
  the texts of its grammar, and names the one reason why any
  other text is refused.

  The grammar speaks of a text without blanks around it.  Its
  last word says what is read; the selector stands in front
  of that word, with or without the global marker.

  Key definitions include:
    * `Extractor.Written`
    * `Extractor.Refused`

  Key theorems include:
    * `Extractor.parse_eq_ok_iff`
    * `Extractor.parse_eq_error_iff`
    * `Extractor.extractor_grammar`
-/

namespace MarkupMetrics

open Text

------------------------------------------------------------
-- Extractors
------------------------------------------------------------

namespace Extractor

/-
  A text that is an extractor: a word that says what is read,
  alone or behind a selector.
-/
inductive Written : List Char → Extractor → Prop where
  | alone
      {token : List Char}
      {reading : Reading}
      (solid : NoBlank token)
      (reads : reading.Written token) :
      Written token ⟨"", reading, false⟩
  | behind
      {front gap token selector : List Char}
      {reading : Reading}
      {global : Bool}
      (visible : ¬ AllBlank front)
      (selects : Marked front global selector)
      (trimmed : Trimmed selector)
      (apart : gap ≠ [])
      (blank : AllBlank gap)
      (solid : NoBlank token)
      (reads : reading.Written token) :
      Written (front ++ gap ++ token)
        ⟨String.ofList selector, reading, global⟩

/- Why a text is no extractor: the last word decides. -/
inductive Refused : List Char → ExtractorError → Prop where
  | empty : Refused [] .empty
  | lastWord
      {front token : List Char}
      {e : ExtractorError}
      (ended : ∀ c, front.getLast? = some c → isBlank c = true)
      (nonempty : token ≠ [])
      (solid : NoBlank token)
      (refused : Reading.Refused token e) :
      Refused (front ++ token) e

/- What parsing makes of a selector with its marker and a word. -/
def ofParts
    (front token : List Char) : Except ExtractorError Extractor :=
  match Reading.parse token with
  | .error e => .error e
  | .ok reading =>
      .ok
        ⟨String.ofList (splitMarker front).2, reading,
          (splitMarker front).1⟩

theorem parse_of_blank
    {value : String}
    (hBlank : trim value.toList = []) :
    parse value = .error .empty := by
  simp [parse, hBlank, cutLast?]

theorem parse_of_alone
    {value : String}
    (hSome : trim value.toList ≠ [])
    (hSolid : NoBlank (trim value.toList)) :
    parse value = ofParts [] (trim value.toList) := by
  simp only [parse, cutLast?_eq_none_iff.mpr hSolid, hSome,
    if_false]
  rfl

/- The last word starts after the last blank. -/
theorem parse_of_behind
    {value : String}
    {front token : List Char}
    {c : Char}
    (hSplit : trim value.toList = front ++ c :: token)
    (hC : isBlank c = true)
    (hSome : token ≠ [])
    (hSolid : NoBlank token) :
    parse value = ofParts (trim front) token := by
  have hCut := cutLast?_eq_some_iff.mpr ⟨c, hSplit, hC, hSolid⟩
  simp only [parse, hCut, hSome, if_false]
  rfl

/- A trimmed text is one word, or ends with one. -/
theorem lastWord_cases
    {s : List Char}
    (hTrimmed : Trimmed s) :
    NoBlank s ∨
      ∃ front c token,
        s = front ++ c :: token ∧ isBlank c = true ∧
          token ≠ [] ∧ NoBlank token := by
  cases hCut : cutLast? isBlank s with
  | none => exact Or.inl (cutLast?_eq_none_iff.mp hCut)
  | some cut =>
      rcases cut with ⟨front, token⟩
      rcases cutLast?_eq_some_iff.mp hCut with
        ⟨c, rfl, hC, hSolid⟩
      refine Or.inr ⟨front, c, token, rfl, hC, ?_, hSolid⟩
      rintro rfl
      have hLast := hTrimmed.2 c (by simp)
      rw [hC] at hLast
      cases hLast

theorem ofParts_eq_ok_iff
    {front token : List Char}
    {x : Extractor} :
    ofParts front token = .ok x ↔
      x.reading.Written token ∧
        splitMarker front = (x.global, x.selector.toList) := by
  rcases x with ⟨selector, reading, global⟩
  rcases hSplit : splitMarker front with ⟨marker, rest⟩
  rw [← Reading.parse_eq_ok_iff, ofParts, hSplit]
  cases Reading.parse token with
  | error e => simp
  | ok found =>
      have hText :
          String.ofList rest = selector ↔ rest = selector.toList := by
        rw [← String.toList_inj, String.toList_ofList]
      simp only [Except.ok.injEq, mk.injEq, Prod.mk.injEq, hText]
      constructor
      · rintro ⟨hSelector, hReading, hGlobal⟩
        exact ⟨hReading, hGlobal, hSelector⟩
      · rintro ⟨hReading, hGlobal, hSelector⟩
        exact ⟨hSelector, hReading, hGlobal⟩

theorem ofParts_eq_error_iff
    {front token : List Char}
    {e : ExtractorError} :
    ofParts front token = .error e ↔
      Reading.Refused token e := by
  rw [← Reading.parse_eq_error_iff, ofParts]
  cases Reading.parse token <;> simp

/- Parsing accepts what is written as an extractor. -/
theorem written_of_parse
    {value : String}
    {x : Extractor}
    (hParse : parse value = .ok x) :
    Written (trim value.toList) x := by
  have hTrimmed := trimmed_trim value.toList
  rcases Decidable.em (trim value.toList = []) with
    hBlank | hSome
  · rw [parse_of_blank hBlank] at hParse
    cases hParse
  rcases lastWord_cases hTrimmed with
    hSolid | ⟨front, c, token, hSplit, hC, hToken, hSolid⟩
  · rw [parse_of_alone hSome hSolid, ofParts_eq_ok_iff]
      at hParse
    rcases x with ⟨selector, reading, global⟩
    rcases hParse with ⟨hReads, hMarker⟩
    obtain ⟨rfl, hSelector⟩ := Prod.mk.inj hMarker
    have hNone : selector = "" :=
      String.toList_inj.mp hSelector.symm
    subst hNone
    exact .alone hSolid hReads
  · rw [parse_of_behind hSplit hC hToken hSolid,
      ofParts_eq_ok_iff] at hParse
    rcases hParse with ⟨hReads, hMarker⟩
    rcases exists_trim_of_behind (hSplit ▸ hTrimmed.1) hC with
      ⟨gap, hFront, hGap, hVisible⟩
    have hSelector := marked_splitMarker (trimmed_trim front)
    rw [hMarker] at hSelector
    have hApart : gap ++ [c] ≠ [] := by simp
    have hWritten : Written _ _ :=
      .behind
        (not_allBlank_of_noBlankFirst (trimmed_trim front).1
          hVisible)
        hSelector.1
        hSelector.2 hApart
        (fun d hMember =>
          (List.mem_append.mp hMember).elim (hGap d) fun hNew =>
            List.mem_singleton.mp hNew ▸ hC)
        hSolid hReads
    rw [String.ofList_toList] at hWritten
    rw [hSplit, hFront]
    simpa using hWritten

/- Parsing refuses a text for the reason its last word gives. -/
theorem refused_of_parse
    {value : String}
    {e : ExtractorError}
    (hParse : parse value = .error e) :
    Refused (trim value.toList) e := by
  have hTrimmed := trimmed_trim value.toList
  rcases Decidable.em (trim value.toList = []) with
    hBlank | hSome
  · rw [parse_of_blank hBlank] at hParse
    cases hParse
    rw [hBlank]
    exact .empty
  rcases lastWord_cases hTrimmed with
    hSolid | ⟨front, c, token, hSplit, hC, hToken, hSolid⟩
  · rw [parse_of_alone hSome hSolid, ofParts_eq_error_iff]
      at hParse
    have hRefused : Refused ([] ++ trim value.toList) e :=
      .lastWord (by simp) hSome hSolid hParse
    exact hRefused
  · rw [parse_of_behind hSplit hC hToken hSolid,
      ofParts_eq_error_iff] at hParse
    have hRefused : Refused ((front ++ [c]) ++ token) e :=
      .lastWord (by simpa using hC) hToken hSolid hParse
    rw [hSplit]
    simpa using hRefused

theorem parse_of_written
    {value : String}
    {x : Extractor}
    (hWritten : Written (trim value.toList) x) :
    parse value = .ok x := by
  generalize hText : trim value.toList = text at hWritten
  cases hWritten with
  | alone solid reads =>
      subst hText
      rw [parse_of_alone reads.ne_nil solid, ofParts_eq_ok_iff]
      exact ⟨reads, rfl⟩
  | @behind front gap token selector reading global
      visible selects trimmed apart blank solid reads =>
      rcases List.eq_nil_or_concat gap with rfl | ⟨gap, c, rfl⟩
      · exact absurd rfl apart
      have hSplit :
          trim value.toList = (front ++ gap) ++ c :: token := by
        rw [hText]
        simp
      have hGap : AllBlank gap := fun d hMember =>
        blank d (by simp [hMember])
      rw [parse_of_behind hSplit (blank c (by simp)) reads.ne_nil
        solid, ofParts_eq_ok_iff]
      refine ⟨reads, ?_⟩
      rw [splitMarker_trim selects trimmed hGap,
        String.toList_ofList]

theorem parse_of_refused
    {value : String}
    {e : ExtractorError}
    (hRefused : Refused (trim value.toList) e) :
    parse value = .error e := by
  generalize hText : trim value.toList = text at hRefused
  cases hRefused with
  | empty => exact parse_of_blank hText
  | @lastWord front token e ended nonempty solid refused =>
      rcases List.eq_nil_or_concat front with
        rfl | ⟨front, c, rfl⟩
      · rw [List.nil_append] at hText
        subst hText
        rw [parse_of_alone nonempty solid, ofParts_eq_error_iff]
        exact refused
      · have hSplit :
            trim value.toList = front ++ c :: token := by
          rw [hText]
          simp
        rw [parse_of_behind hSplit (ended c (by simp)) nonempty
          solid,
          ofParts_eq_error_iff]
        exact refused

theorem parse_eq_ok_iff
    {value : String}
    {x : Extractor} :
    parse value = .ok x ↔ Written (trim value.toList) x :=
  ⟨written_of_parse, parse_of_written⟩

theorem parse_eq_error_iff
    {value : String}
    {e : ExtractorError} :
    parse value = .error e ↔ Refused (trim value.toList) e :=
  ⟨refused_of_parse, parse_of_refused⟩

------------------------------------------------------------
-- Literals
------------------------------------------------------------

/- The word of a reading does not end in a quote. -/
theorem getLast?_of_written
    {text : List Char}
    {x : Extractor}
    (hWritten : Written text x) :
    text.getLast? ≠ some '\'' := by
  have hToken {token : List Char} {r : Reading}
      (hReads : r.Written token) :
      token.getLast? ≠ some '\'' := by
    cases r with
    | text =>
        rw [show token = "text".toList from hReads]
        decide
    | «attribute» name =>
        simp [hReads.2, List.getLast?_cons]
  cases hWritten with
  | alone solid reads => exact hToken reads
  | behind _ _ _ _ _ _ reads =>
      rw [List.getLast?_append_of_ne_nil _ reads.ne_nil]
      exact hToken reads

/- What is an extractor is no literal. -/
theorem literal?_of_written
    {value : String}
    {x : Extractor}
    (hWritten : Written (trim value.toList) x) :
    literal? value = none := by
  have hLast := getLast?_of_written hWritten
  unfold literal?
  split
  · rename_i rest hText
    rw [hText] at hLast
    split
    · rename_i hQuote
      exact
        absurd (by simp [List.getLast?_cons, hQuote]) hLast
    · rfl
  · rfl

------------------------------------------------------------
-- Canonical texts
------------------------------------------------------------

/- The canonical text of an extractor is written for it. -/
theorem Written.render
    {text : List Char}
    {x : Extractor}
    (hWritten : Written text x) :
    Written x.render.toList x ∧ Trimmed x.render.toList := by
  have hGap : AllBlank [' '] := by
    simp [AllBlank, isBlank, blankRanges]
  cases hWritten with
  | @alone token reading solid reads =>
      have hText :
          (Extractor.render ⟨"", reading, false⟩).toList =
            text := by
        simp [Extractor.render, reads.render_eq]
      rw [hText]
      exact ⟨.alone solid reads, solid.trimmed⟩
  | @behind front gap token selector reading global
      visible selects trimmed apart blank solid reads =>
      cases selects with
      | plain unmarked =>
          have hSome : front ≠ [] := by
            rintro rfl
            exact visible allBlank_nil
          have hText :
              (Extractor.render
                  ⟨String.ofList front, reading, false⟩).toList =
                front ++ [' '] ++ token := by
            simp [Extractor.render, reads.render_eq, hSome]
          rw [hText]
          refine
            ⟨.behind visible (.plain unmarked) trimmed (by simp) hGap
              solid reads, solid.trimmed_behind reads.ne_nil ?_⟩
          intro c hFirst
          refine trimmed.1 c ?_
          cases front with
          | nil => exact absurd rfl hSome
          | cons d rest => simpa using hFirst
      | marked hInner start =>
          rcases Decidable.em (selector = []) with rfl | hSome
          · have hText :
                (Extractor.render
                    ⟨String.ofList [], reading, true⟩).toList =
                  ['!'] ++ [' '] ++ token := by
              simp [Extractor.render, reads.render_eq]
            rw [hText]
            refine
              ⟨.behind (by simp [AllBlank, isBlank, blankRanges])
                (.marked allBlank_nil start)
                trimmed (by simp) hGap solid reads,
                solid.trimmed_behind reads.ne_nil ?_⟩
            simp [NoBlankFirst, isBlank, blankRanges]
          · have hText :
                (Extractor.render
                    ⟨String.ofList selector, reading, true⟩).toList =
                  '!' :: ([' '] ++ selector) ++ [' '] ++ token := by
              simp [Extractor.render, reads.render_eq, hSome]
            rw [hText]
            refine
              ⟨.behind (by simp [AllBlank, isBlank, blankRanges])
                (.marked hGap start) trimmed (by simp) hGap solid
                reads, solid.trimmed_behind reads.ne_nil ?_⟩
            simp [NoBlankFirst, isBlank, blankRanges]

/-
  A text stands for an extractor exactly if its grammar says
  so, is refused otherwise for the one reason that applies,
  and the canonical text of what it stands for stands for the
  same.
-/
theorem extractor_grammar
    (value : String) :
    (∀ x,
      parse value = .ok x ↔ Written (trim value.toList) x) ∧
      (∀ e,
        parse value = .error e ↔
          Refused (trim value.toList) e) ∧
      ∀ x, parse value = .ok x → parse x.render = .ok x := by
  refine
    ⟨fun x => parse_eq_ok_iff, fun e => parse_eq_error_iff, ?_⟩
  intro x hParse
  have hRender := (written_of_parse hParse).render
  apply parse_of_written
  rw [trim_of_trimmed hRender.2]
  exact hRender.1

/-
  A second marker belongs to the selector, and a parenthesis
  to the argument.
-/
theorem extractor_grammar_marked :
    let x : Extractor := ⟨"!", .attribute "b)", true⟩
    Extractor.parse " !\u3000!\tattr(b))" = .ok x ∧
      Extractor.parse x.render = .ok x := by
  intro x
  have hParse :
      Extractor.parse " !\u3000!\tattr(b))" = .ok x := by
    decide
  exact ⟨hParse, (extractor_grammar _).2.2 x hParse⟩

end Extractor

end MarkupMetrics
