import MarkupMetrics.Html.Lexer
import MarkupMetrics.Html.Source
import Mathlib.Data.List.Infix

/-
  This file proves that every step through the text of a page
  comes closer to its end: what is left to read is an end of
  what follows the first character.

  Each function that reads something gives an end of its text
  as the rest, so as much fuel as there is text is enough.
  Start tags are read only where a bracket stands.

  Key definitions include:
    * `OpensNone`

  Key theorems include:
    * `suffix_readReference?`
    * `suffix_readAttrs?`
    * `readAttrs?_congr`
    * `suffix_readDoctype`
    * `suffix_readToken`
    * `head?_of_startTag`
-/

namespace MarkupMetrics

namespace Html

open Text

------------------------------------------------------------
-- Ends of texts
------------------------------------------------------------

/- What stands behind some characters is an end of a text. -/
theorem suffix_of_dropWhile
    {p : Char → Bool}
    {s rest : List Char}
    (hDrop : s.dropWhile p = rest) :
    rest <:+ s :=
  hDrop ▸ List.dropWhile_suffix p

theorem suffix_of_dropWhile_cons
    {p : Char → Bool}
    {s rest : List Char}
    {c : Char}
    (hDrop : s.dropWhile p = c :: rest) :
    rest <:+ s :=
  (List.suffix_cons c rest).trans (suffix_of_dropWhile hDrop)

theorem suffix_skipBracket
    (s : List Char) :
    skipBracket s <:+ s :=
  (List.drop_suffix 1 _).trans (List.dropWhile_suffix _)

theorem suffix_dropWord?
    {word : String}
    {s rest : List Char}
    (hWord : dropWord? word s = some rest) :
    rest <:+ s := by
  simp only [dropWord?, Option.ite_none_right_eq_some,
    Option.some.injEq] at hWord
  exact hWord.2 ▸ List.drop_suffix _ s

theorem suffix_dropLead?
    {lead s rest : List Char}
    (hLead : dropLead? lead s = some rest) :
    rest <:+ s := by
  fun_induction dropLead? lead s with
  | case1 s =>
      cases hLead
      exact List.suffix_rfl
  | case2 => cases hLead
  | case3 ls c cs ih =>
      exact (ih hLead).trans (List.suffix_cons _ _)
  | case4 => cases hLead

------------------------------------------------------------
-- Declarations
------------------------------------------------------------

theorem suffix_readIdentifier
    {mark : Char}
    {s rest : List Char}
    (hRest : (readIdentifier mark s).2 = some rest) :
    rest <:+ s := by
  simp only [readIdentifier] at hRest
  split at hRest
  · next c after hDrop =>
      dsimp only at hRest
      by_cases hMark : c = mark
      · rw [if_pos hMark] at hRest
        cases hRest
        exact
          (List.suffix_cons c rest).trans
            (hDrop ▸ List.drop_suffix _ s)
      · rw [if_neg hMark] at hRest
        cases hRest
  · cases hRest

theorem suffix_readAfterSystem
    (d : Doctype)
    (s : List Char) :
    (readAfterSystem d s).2 <:+ s := by
  unfold readAfterSystem
  split
  · exact List.nil_suffix
  · exact
      (suffix_skipBracket _).trans (List.dropWhile_suffix _)

theorem suffix_readSystem
    (d : Doctype)
    (s : List Char) :
    (readSystem d s).2 <:+ s := by
  unfold readSystem
  split
  · next c rest hDrop =>
      have hRest := suffix_of_dropWhile_cons hDrop
      split
      · rcases hIdentifier : readIdentifier c rest with
          ⟨id, after⟩
        cases after with
        | some after =>
            have hAfter : after <:+ rest :=
              suffix_readIdentifier
                (congrArg Prod.snd hIdentifier)
            exact
              ((suffix_readAfterSystem _ after).trans hAfter).trans
                hRest
        | none => exact (suffix_skipBracket rest).trans hRest
      · exact
          (suffix_skipBracket _).trans
            (suffix_of_dropWhile hDrop)
  · exact List.nil_suffix

theorem suffix_readAfterPublic
    (d : Doctype)
    (s : List Char) :
    (readAfterPublic d s).2 <:+ s := by
  unfold readAfterPublic
  split
  · next hDrop => exact suffix_of_dropWhile_cons hDrop
  · exact
      (suffix_readSystem d _).trans (List.dropWhile_suffix _)

theorem suffix_readPublic
    (d : Doctype)
    (s : List Char) :
    (readPublic d s).2 <:+ s := by
  unfold readPublic
  split
  · next c rest hDrop =>
      have hRest := suffix_of_dropWhile_cons hDrop
      split
      · rcases hIdentifier : readIdentifier c rest with
          ⟨id, after⟩
        cases after with
        | some after =>
            have hAfter : after <:+ rest :=
              suffix_readIdentifier
                (congrArg Prod.snd hIdentifier)
            exact
              ((suffix_readAfterPublic _ after).trans hAfter).trans
                hRest
        | none => exact (suffix_skipBracket rest).trans hRest
      · exact
          (suffix_skipBracket _).trans
            (suffix_of_dropWhile hDrop)
  · exact List.nil_suffix

theorem suffix_readAfterName
    (d : Doctype)
    (s : List Char) :
    (readAfterName d s).2 <:+ s := by
  unfold readAfterName
  split
  · exact List.nil_suffix
  · next hDrop => exact suffix_of_dropWhile_cons hDrop
  · split
    · next after hWord =>
        exact
          ((suffix_readPublic d after).trans
            (suffix_dropWord? hWord)).trans
              (List.dropWhile_suffix _)
    · split
      · next after hWord =>
          exact
            ((suffix_readSystem d after).trans
              (suffix_dropWord? hWord)).trans
                (List.dropWhile_suffix _)
      · exact
          (suffix_skipBracket _).trans
            (List.dropWhile_suffix _)

theorem suffix_readDoctype
    (s : List Char) :
    (readDoctype s).2 <:+ s := by
  unfold readDoctype
  split
  · exact List.nil_suffix
  · next hDrop => exact suffix_of_dropWhile_cons hDrop
  · exact
      ((suffix_readAfterName _ _).trans
        (List.drop_suffix _ _)).trans (List.dropWhile_suffix _)

------------------------------------------------------------
-- References
------------------------------------------------------------

theorem suffix_endNumber
    (c : Char)
    (s : List Char) :
    (endNumber c s).rest <:+ s := by
  unfold endNumber
  split
  · exact List.suffix_cons _ _
  · exact List.suffix_rfl

theorem suffix_readNamed?
    {inAttribute : Bool}
    {s : List Char}
    {r : Reference}
    (hRead : readNamed? inAttribute s = some r) :
    r.rest <:+ s := by
  -- unfolded before it is applied, so that nothing looks up
  -- the text in the table
  have hBody : readNamed? = readNamed? := rfl
  conv at hBody =>
    rhs
    delta readNamed?
  rw [hBody] at hRead
  beta_reduce at hRead
  revert hRead
  generalize longestEntity? s = found
  intro hRead
  cases found with
  | none => cases hRead
  | some entity =>
      simp only [Option.ite_none_left_eq_some,
        Option.some.injEq] at hRead
      rw [← hRead.2]
      exact List.drop_suffix _ s

theorem suffix_readDecimal?
    {s : List Char}
    {r : Reference}
    (hRead : readDecimal? s = some r) :
    r.rest <:+ s := by
  simp only [readDecimal?, Option.ite_none_left_eq_some,
    Option.some.injEq] at hRead
  rw [← hRead.2]
  exact
    (suffix_endNumber _ _).trans (List.dropWhile_suffix _)

theorem suffix_readHexadecimal?
    {s : List Char}
    {r : Reference}
    (hRead : readHexadecimal? s = some r) :
    r.rest <:+ s := by
  simp only [readHexadecimal?, Option.ite_none_left_eq_some,
    Option.some.injEq] at hRead
  rw [← hRead.2]
  exact
    (suffix_endNumber _ _).trans (List.dropWhile_suffix _)

theorem suffix_readReference?
    {inAttribute : Bool}
    {s : List Char}
    {r : Reference}
    (hRead : readReference? inAttribute s = some r) :
    r.rest <:+ s := by
  unfold readReference? at hRead
  split at hRead
  · next rest =>
      exact
        (suffix_readHexadecimal? hRead).trans
          (List.suffix_append ['#', 'x'] rest)
  · next rest =>
      exact
        (suffix_readHexadecimal? hRead).trans
          (List.suffix_append ['#', 'X'] rest)
  · exact
      (suffix_readDecimal? hRead).trans (List.suffix_cons '#' _)
  · exact suffix_readNamed? hRead

------------------------------------------------------------
-- Tags
------------------------------------------------------------

theorem suffix_readValue
    (stop : Char → Bool)
    (fuel : Nat)
    (s : List Char) :
    (readValue stop fuel s).2 <:+ s := by
  fun_induction readValue stop fuel s with
  | case1 s => exact List.suffix_rfl
  | case2 => exact List.suffix_rfl
  | case3 => exact List.suffix_rfl
  | case4 fuel rest r hRead value after hMore hStop ih =>
      rw [hMore] at ih
      exact
        (ih.trans (suffix_readReference? hRead)).trans
          (List.suffix_cons _ rest)
  | case5 fuel rest hRead value after hMore hStop ih =>
      rw [hMore] at ih
      exact ih.trans (List.suffix_cons _ rest)
  | case6 fuel c rest hStop hPlain value after hMore ih =>
      rw [hMore] at ih
      exact ih.trans (List.suffix_cons c rest)

/- What stands behind a name and its blanks. -/
theorem suffix_afterName
    (n : Nat)
    (s : List Char) :
    (s.drop n).dropWhile isTagSpace <:+ s :=
  (List.dropWhile_suffix _).trans (List.drop_suffix n s)

theorem suffix_readAttrs?
    {fuel : Nat}
    {attrs : List (String × String)}
    {s : List Char}
    {e : TagEnd}
    (hRead : readAttrs? fuel attrs s = some e) :
    e.rest <:+ s := by
  fun_induction readAttrs? fuel attrs s with
  | case1 => cases hRead
  | case2 => cases hRead
  | case3 fuel attrs c rest hSpace ih =>
      exact (ih hRead).trans (List.suffix_cons c rest)
  | case4 fuel attrs rest =>
      cases hRead
      exact List.suffix_cons _ rest
  | case5 fuel attrs rest =>
      cases hRead
      exact List.suffix_append ['/', '>'] rest
  | case6 fuel attrs rest _ _ _ ih =>
      exact (ih hRead).trans (List.suffix_cons _ rest)
  | case7 => cases hRead
  | case8 fuel attrs c rest _ _ _ tail name after value hValue
      left hLeft =>
      cases hRead
      have hAfter : after <:+ rest := suffix_afterName _ rest
      have hInner : left <:+ after :=
        (suffix_of_dropWhile_cons hLeft).trans
          (hValue ▸ List.suffix_cons '=' value)
      exact (hInner.trans hAfter).trans (List.suffix_cons c rest)
  | case9 => cases hRead
  | case10 fuel attrs c rest _ _ _ tail name after value hValue
      d inner _ hInner quoted body stop read left hBody _ ih =>
      have hAfter : after <:+ rest := suffix_afterName _ rest
      have hMark : d :: inner <:+ after :=
        (suffix_of_dropWhile hInner).trans
          (hValue ▸ List.suffix_cons '=' value)
      have hText : body <:+ d :: inner := by
        by_cases hQuoted : quoted = true
        · simp only [body, if_pos hQuoted]
          exact List.suffix_cons d inner
        · simp only [body, if_neg hQuoted]
          exact List.suffix_rfl
      have hLeft : left <:+ body := by
        have hValue := suffix_readValue stop (body.length + 1) body
        rwa [hBody] at hValue
      have hRest :
          (if quoted = true then left.drop 1 else left) <:+
            left := by
        by_cases hQuoted : quoted = true
        · rw [if_pos hQuoted]
          exact List.drop_suffix 1 left
        · rw [if_neg hQuoted]
      exact
        (((((ih hRead).trans hRest).trans hLeft).trans
          hText).trans hMark).trans
            (hAfter.trans (List.suffix_cons c rest))
  | case11 fuel attrs c rest _ _ _ tail name after _ ih =>
      have hAfter : after <:+ rest := suffix_afterName _ rest
      exact
        ((ih hRead).trans hAfter).trans (List.suffix_cons c rest)

theorem suffix_readTag?
    {s rest : List Char}
    {tag : Tag}
    (hRead : readTag? s = some (tag, rest)) :
    rest <:+ s := by
  rcases Option.map_eq_some_iff.mp hRead with
    ⟨e, hAttrs, hSame⟩
  cases hSame
  exact (suffix_readAttrs? hAttrs).trans (List.drop_suffix _ s)

theorem suffix_readEndTag
    (s : List Char) :
    (readEndTag s).2 <:+ s := by
  unfold readEndTag
  split
  · next hTag => exact suffix_readTag? hTag
  · exact List.nil_suffix

------------------------------------------------------------
-- Fuel
------------------------------------------------------------

/- More fuel than there is text changes nothing. -/
theorem readValue_congr
    (stop : Char → Bool)
    {fuel other : Nat}
    {s : List Char}
    (hFuel : s.length ≤ fuel)
    (hOther : s.length ≤ other) :
    readValue stop fuel s = readValue stop other s := by
  fun_induction readValue stop fuel s generalizing other with
  | case1 s =>
      cases List.eq_nil_of_length_eq_zero (Nat.le_zero.mp hFuel)
      cases other <;> rfl
  | case2 => cases other <;> rfl
  | case3 fuel c rest hStop =>
      cases other with
      | zero => cases hOther
      | succ other => rw [readValue, if_pos hStop]
  | case4 fuel rest r hRead value after hMore hStop ih =>
      cases other with
      | zero => cases hOther
      | succ other =>
          have hLess := (suffix_readReference? hRead).length_le
          rw [List.length_cons, Nat.succ_le_succ_iff]
            at hFuel hOther
          have hSame :=
            ih (Nat.le_trans hLess hFuel)
              (Nat.le_trans hLess hOther)
          rw [hMore] at hSame
          simp only [readValue, if_neg hStop, hRead, ← hSame,
            if_true]
  | case5 fuel rest hRead value after hMore hStop ih =>
      cases other with
      | zero => cases hOther
      | succ other =>
          rw [List.length_cons, Nat.succ_le_succ_iff]
            at hFuel hOther
          have hSame := ih hFuel hOther
          rw [hMore] at hSame
          simp only [readValue, if_neg hStop, hRead, ← hSame,
            if_true]
  | case6 fuel c rest hStop hPlain value after hMore ih =>
      cases other with
      | zero => cases hOther
      | succ other =>
          rw [List.length_cons, Nat.succ_le_succ_iff]
            at hFuel hOther
          have hSame := ih hFuel hOther
          rw [hMore] at hSame
          simp only [readValue, if_neg hStop, if_neg hPlain,
            ← hSame]

theorem readAttrs?_congr
    {fuel other : Nat}
    {attrs : List (String × String)}
    {s : List Char}
    (hFuel : s.length ≤ fuel)
    (hOther : s.length ≤ other) :
    readAttrs? fuel attrs s = readAttrs? other attrs s := by
  induction fuel generalizing other attrs s with
  | zero =>
      cases List.eq_nil_of_length_eq_zero (Nat.le_zero.mp hFuel)
      cases other <;> rfl
  | succ fuel ih =>
      cases s with
      | nil => cases other <;> rfl
      | cons c rest =>
          cases other with
          | zero => cases hOther
          | succ other =>
              rw [List.length_cons, Nat.succ_le_succ_iff]
                at hFuel hOther
              have hNext :
                  ∀ attrs left, left <:+ rest →
                    readAttrs? fuel attrs left =
                      readAttrs? other attrs left :=
                fun attrs left hLeft =>
                  ih (Nat.le_trans hLeft.length_le hFuel)
                    (Nat.le_trans hLeft.length_le hOther)
              simp only [readAttrs?]
              split
              · exact hNext attrs rest List.suffix_rfl
              split
              · rfl
              split
              · split
                · rfl
                · exact hNext attrs rest List.suffix_rfl
              have hAfter :=
                suffix_afterName
                  (rest.takeWhile fun c => !endsAttrName c).length
                  rest
              split
              · next value hValue =>
                  have hInner :
                      value.dropWhile isTagSpace <:+ rest :=
                    ((List.dropWhile_suffix _).trans
                      (hValue ▸ List.suffix_cons '=' value)).trans
                        hAfter
                  split
                  · rfl
                  · rfl
                  · next d inner _ hMark =>
                      rw [hMark] at hInner
                      split
                      · rw [hNext _ _
                          (((List.drop_suffix 1 _).trans
                            (suffix_readValue _ _ inner)).trans
                              ((List.suffix_cons d inner).trans
                                hInner))]
                      · rw [hNext _ _
                          ((suffix_readValue _ _ _).trans hInner)]
              · exact hNext _ _ hAfter

------------------------------------------------------------
-- Comments and sections
------------------------------------------------------------

theorem suffix_skipCommentBody
    (s : List Char) :
    skipCommentBody s <:+ s := by
  fun_induction skipCommentBody s with
  | case1 => exact List.suffix_rfl
  | case2 rest => exact List.suffix_append ['-', '-', '>'] rest
  | case3 rest =>
      exact List.suffix_append ['-', '-', '!', '>'] rest
  | case4 c rest _ _ ih => exact ih.trans (List.suffix_cons c rest)

theorem suffix_skipComment
    (s : List Char) :
    skipComment s <:+ s := by
  unfold skipComment
  split
  · exact List.suffix_cons _ _
  · exact List.suffix_append ['-', '>'] _
  · exact suffix_skipCommentBody _

theorem suffix_readDeclaration
    (sections : Bool)
    (s : List Char) :
    (readDeclaration sections s).2 <:+ s := by
  unfold readDeclaration
  split
  · next rest =>
      exact
        (suffix_skipComment rest).trans
          (List.suffix_append ['-', '-'] rest)
  · split
    · next rest hWord =>
        exact
          (suffix_readDoctype rest).trans (suffix_dropWord? hWord)
    · split
      · split
        · next rest hLead =>
            exact
              (List.drop_suffix _ rest).trans
                (suffix_dropLead? hLead)
        · exact suffix_skipBracket _
      · exact suffix_skipBracket _

------------------------------------------------------------
-- Steps
------------------------------------------------------------

theorem suffix_readMarkup
    (s : List Char) :
    (readMarkup s).2 <:+ s := by
  unfold readMarkup
  split
  · next rest =>
      have hRest : rest <:+ '/' :: rest :=
        List.suffix_cons '/' rest
      split
      · exact List.nil_suffix
      · next rest =>
          exact List.suffix_append ['/', '>'] rest
      · split
        · exact (suffix_readEndTag _).trans hRest
        · exact (suffix_skipBracket _).trans hRest
  · next rest =>
      exact
        (suffix_skipBracket rest).trans
          (List.suffix_cons '?' rest)
  · split
    · split
      · next hTag => exact suffix_readTag? hTag
      · exact List.nil_suffix
    · exact List.suffix_rfl
  · exact List.nil_suffix

theorem suffix_referenceToken
    (s : List Char) :
    (referenceToken s).2 <:+ s := by
  unfold referenceToken
  split
  · next hRead => exact suffix_readReference? hRead
  · exact List.suffix_rfl

variable {c : Char}
variable {rest : List Char}

theorem suffix_readRun
    (stop : Char → Bool) :
    (readRun stop (c :: rest)).2 <:+ rest :=
  List.drop_suffix _ rest

theorem suffix_readData
    (sections : Bool) :
    (readData sections (c :: rest)).2 <:+ rest := by
  generalize hText : c :: rest = s
  fun_cases readData sections s with
  | case1 => cases hText
  | case2 =>
      cases hText
      exact List.suffix_rfl
  | case3 =>
      cases hText
      exact suffix_referenceToken rest
  | case4 left =>
      cases hText
      exact
        (suffix_readDeclaration sections left).trans
          (List.suffix_cons '!' left)
  | case5 =>
      cases hText
      exact suffix_readMarkup rest
  | case6 =>
      subst hText
      exact suffix_readRun _

/- The end tag of an element, or only a bracket and a slash. -/
theorem suffix_endOfElement
    (element : String)
    (left : List Char) :
    (if startsTagName element left then readEndTag left
      else (solid ['<', '/'], left)).2 <:+ left := by
  split
  · exact suffix_readEndTag left
  · exact List.suffix_rfl

theorem suffix_readRcdata
    (element : String) :
    (readRcdata element (c :: rest)).2 <:+ rest := by
  generalize hText : c :: rest = s
  unfold readRcdata
  split
  · cases hText
  · cases hText
    exact List.suffix_rfl
  · cases hText
    exact suffix_referenceToken rest
  · next left =>
      cases hText
      exact
        (suffix_endOfElement element left).trans
          (List.suffix_cons '/' left)
  · cases hText
    exact List.suffix_rfl
  · subst hText
    exact suffix_readRun _

theorem suffix_readRawtext
    (element : String) :
    (readRawtext element (c :: rest)).2 <:+ rest := by
  generalize hText : c :: rest = s
  unfold readRawtext
  split
  · cases hText
  · cases hText
    exact List.suffix_rfl
  · next left =>
      cases hText
      exact
        (suffix_endOfElement element left).trans
          (List.suffix_cons '/' left)
  · cases hText
    exact List.suffix_rfl
  · subst hText
    exact suffix_readRun _

theorem suffix_readScript :
    (readScript (c :: rest)).2 <:+ rest := by
  unfold readScript
  dsimp only
  cases scriptText .plain (c :: rest) with
  | nil =>
      exact
        (suffix_readEndTag _).trans (List.drop_suffix 1 rest)
  | cons d more => exact List.drop_suffix _ rest

/-
  Every step takes at least the first character, and leaves an
  end of the text.
-/
theorem suffix_readToken
    (around : Surroundings) :
    (readToken around (c :: rest)).2 <:+ rest := by
  rw [readToken]
  cases around.kind with
  | data => exact suffix_readData around.sections
  | rcdata => exact suffix_readRcdata around.element
  | rawtext => exact suffix_readRawtext around.element
  | script => exact suffix_readScript
  | plaintext => exact List.nil_suffix

------------------------------------------------------------
-- Start tags
------------------------------------------------------------

/- No start tag is among some tokens. -/
def OpensNone
    (tokens : List Token) : Prop :=
  ∀ tag, .startTag tag ∉ tokens

theorem opensNone_referenceToken
    (s : List Char) :
    OpensNone (referenceToken s).1 := by
  intro tag
  unfold referenceToken
  split
  · split <;> simp
  · simp [solid]

theorem opensNone_readEndTag
    (s : List Char) :
    OpensNone (readEndTag s).1 := by
  intro tag
  unfold readEndTag
  split <;> simp

theorem opensNone_readRun
    (stop : Char → Bool)
    (s : List Char) :
    OpensNone (readRun stop s).1 := by
  intro tag
  cases s <;> simp [readRun]

theorem opensNone_solid
    (s : List Char) :
    OpensNone (solid s) := by
  intro tag
  simp [solid]

theorem opensNone_endOfElement
    (element : String)
    (left : List Char) :
    OpensNone
      (if startsTagName element left then readEndTag left
        else (solid ['<', '/'], left)).1 := by
  split
  · exact opensNone_readEndTag left
  · exact opensNone_solid _

theorem opensNone_readRcdata
    (element : String)
    (s : List Char) :
    OpensNone (readRcdata element s).1 := by
  unfold readRcdata
  split
  · exact fun _ hMember => nomatch hMember
  · exact opensNone_solid _
  · exact opensNone_referenceToken _
  · exact opensNone_endOfElement element _
  · exact opensNone_solid _
  · exact opensNone_readRun _ _

theorem opensNone_readRawtext
    (element : String)
    (s : List Char) :
    OpensNone (readRawtext element s).1 := by
  unfold readRawtext
  split
  · exact fun _ hMember => nomatch hMember
  · exact opensNone_solid _
  · exact opensNone_endOfElement element _
  · exact opensNone_solid _
  · exact opensNone_readRun _ _

theorem opensNone_readScript
    (s : List Char) :
    OpensNone (readScript s).1 := by
  unfold readScript
  dsimp only
  split
  · exact opensNone_readEndTag _
  · exact opensNone_solid _

/- Ordinary text has start tags only at brackets. -/
theorem head?_of_readData
    {sections : Bool}
    {s : List Char}
    {tag : Tag}
    (hTag : .startTag tag ∈ (readData sections s).1) :
    s.head? = some '<' := by
  unfold readData at hTag
  split at hTag
  · cases hTag
  · simp at hTag
  · exact (opensNone_referenceToken _ tag hTag).elim
  · rfl
  · rfl
  · exact (opensNone_readRun _ _ tag hTag).elim

/- A start tag is read only where a bracket stands. -/
theorem head?_of_startTag
    {around : Surroundings}
    {s : List Char}
    {tag : Tag}
    (hTag : .startTag tag ∈ (readToken around s).1) :
    s.head? = some '<' := by
  rw [readToken] at hTag
  cases hKind : around.kind with
  | data =>
      rw [hKind] at hTag
      exact head?_of_readData hTag
  | rcdata =>
      rw [hKind] at hTag
      exact (opensNone_readRcdata _ s tag hTag).elim
  | rawtext =>
      rw [hKind] at hTag
      exact (opensNone_readRawtext _ s tag hTag).elim
  | script =>
      rw [hKind] at hTag
      exact (opensNone_readScript s tag hTag).elim
  | plaintext =>
      rw [hKind] at hTag
      exact (opensNone_solid _ tag hTag).elim

------------------------------------------------------------
-- Sources
------------------------------------------------------------

/- Line ends are all that is new in unified lines. -/
theorem mem_of_mem_unifyLines
    {afterReturn : Bool}
    {c : Char}
    {s : List Char}
    (hMember : c ∈ unifyLines afterReturn s)
    (hOther : c ≠ '\n') :
    c ∈ s := by
  induction s generalizing afterReturn with
  | nil => cases hMember
  | cons d rest ih =>
      unfold unifyLines at hMember
      split at hMember
      · rcases List.mem_cons.mp hMember with hSame | hRest
        · exact (hOther hSame).elim
        · exact List.mem_cons_of_mem d (ih hRest)
      · split at hMember
        · exact List.mem_cons_of_mem d (ih hMember)
        · rcases List.mem_cons.mp hMember with rfl | hRest
          · exact List.mem_cons_self
          · exact List.mem_cons_of_mem d (ih hRest)

theorem suffix_dropMark
    (s : List Char) :
    dropMark s <:+ s := by
  unfold dropMark
  split
  · exact List.drop_suffix 1 s
  · exact List.suffix_rfl

/- So the text that is read has only characters of the page. -/
theorem Source.mem_of_mem_text
    {html : String}
    {c : Char}
    (hMember : c ∈ (Source.ofText html).text)
    (hOther : c ≠ '\n') :
    c ∈ html.toList := by
  have hText :
      (Source.ofText html).text =
        unifyLines false
          ((blocksFrom {} html.toList).map dropMark).flatten :=
    flatten_unifyBlocks false _
  rw [hText] at hMember
  have hIn := mem_of_mem_unifyLines hMember hOther
  rcases List.mem_flatten.mp hIn with ⟨block, hBlock, hChar⟩
  rcases List.mem_map.mp hBlock with ⟨whole, hWhole, rfl⟩
  rw [← flatten_blocksFrom {} html.toList]
  exact
    List.mem_flatten.mpr
      ⟨whole, hWhole, (suffix_dropMark whole).subset hChar⟩

theorem Source.suffix_resume
    (source : Source)
    (rest : List Char) :
    source.resume rest <:+ rest := by
  unfold resume
  split
  · exact List.drop_suffix 1 rest
  · exact List.suffix_rfl

end Html

end MarkupMetrics
