import MarkupMetrics.Condition.Basic
import MarkupMetrics.Proofs.Extractor.Reading

/-
  This file proves that parsing a condition accepts exactly
  the texts of its grammar, and names the one reason why any
  other text is refused.

  The grammar speaks of a text without blanks around it.  The
  clause is its last parenthesised group; the selector and
  the method stand in front of it, with or without the global
  marker.

  Key definitions include:
    * `Condition.Clause`
    * `Condition.Head`
    * `Condition.Written`
    * `Condition.Refused`

  Key theorems include:
    * `Condition.parse_eq_ok_iff`
    * `Condition.parse_eq_error_iff`
    * `Condition.condition_grammar`
-/

namespace MarkupMetrics

open Text

namespace Condition

------------------------------------------------------------
-- The grammar
------------------------------------------------------------

/-
  A text ends with a clause: an inner text without opening
  parenthesis between the last two parentheses.
-/
structure Clause
    (text head inner : List Char) : Prop where
  split : text = head ++ '(' :: (inner ++ [')'])
  last : '(' ∉ inner

/- The selector and the method in front of a clause. -/
inductive Head : List Char → Option String → String → Prop where
  | alone
      {method : List Char}
      (nonempty : method ≠ [])
      (solid : NoBlank method) :
      Head method none (String.ofList method)
  | behind
      {selector gap method : List Char}
      (visible : selector ≠ [])
      (trimmed : Trimmed selector)
      (apart : gap ≠ [])
      (blank : AllBlank gap)
      (nonempty : method ≠ [])
      (solid : NoBlank method) :
      Head (selector ++ gap ++ method)
        (some (String.ofList selector)) (String.ofList method)

/- There is no method in front of a clause. -/
def NoMethod
    (head : List Char) : Prop :=
  head = [] ∨ ∃ c, head.getLast? = some c ∧ isBlank c = true

/- A text that is a condition. -/
inductive Written : List Char → Condition → Prop where
  | clause
      {text rest head inner left operator right : List Char}
      {global : Bool}
      {selector : Option String}
      {method : String}
      (selects : Marked text global rest)
      (ends : Clause rest head inner)
      (starts : Head head selector method)
      (operands : Words inner [left, operator, right]) :
      Written text
        { method
          left := String.ofList left
          right := String.ofList right
          operator := String.ofList operator
          selector
          global }

/- Why a text is no condition. -/
inductive Refused : List Char → ConditionError → Prop where
  | empty : Refused [] .empty
  | trailingInput
      {front after : List Char}
      (last : ')' ∉ after)
      (visible : ¬ AllBlank after) :
      Refused (front ++ ')' :: after) .trailingInput
  | notClosed
      {text : List Char}
      (nonempty : text ≠ [])
      (none : ')' ∉ text) :
      Refused text .missingClause
  | notOpened
      {front : List Char}
      (none : '(' ∉ front) :
      Refused (front ++ [')']) .missingClause
  | missingMethod
      {text rest head inner : List Char}
      {global : Bool}
      (selects : Marked text global rest)
      (ends : Clause rest head inner)
      (none : NoMethod head) :
      Refused text .missingMethod
  | operandCount
      {text rest head inner : List Char}
      {global : Bool}
      {found : List (List Char)}
      (selects : Marked text global rest)
      (ends : Clause rest head inner)
      (some : ¬ NoMethod head)
      (operands : Words inner found)
      (count : found.length ≠ 3) :
      Refused text (.operandCount found.length)

------------------------------------------------------------
-- Selector and method
------------------------------------------------------------

theorem splitHead_of_blank
    {before method : List Char}
    {c : Char}
    (hC : isBlank c = true)
    (hSolid : NoBlank method) :
    splitHead (before ++ c :: method) = (trim before, method) := by
  have hCut :=
    cutLast?_eq_some_iff.mpr
      ⟨c, (rfl : before ++ c :: method = _), hC, hSolid⟩
  simp [splitHead, hCut]

theorem splitHead_of_solid
    {head : List Char}
    (hSolid : NoBlank head) :
    splitHead head = ([], head) := by
  simp [splitHead, cutLast?_eq_none_iff.mpr hSolid]

/- The method is missing where nothing or a blank stands. -/
theorem method_eq_nil_iff
    {head : List Char} :
    (splitHead head).2 = [] ↔ NoMethod head := by
  cases hCut : cutLast? isBlank head with
  | none =>
      have hSolid := cutLast?_eq_none_iff.mp hCut
      rw [splitHead_of_solid hSolid]
      refine ⟨Or.inl, ?_⟩
      rintro (hNone | ⟨c, hLast, hC⟩)
      · exact hNone
      · rw [hSolid c (List.mem_of_getLast? hLast)] at hC
        cases hC
  | some cut =>
      rcases cut with ⟨before, method⟩
      rcases cutLast?_eq_some_iff.mp hCut with
        ⟨c, rfl, hC, hSolid⟩
      rw [splitHead_of_blank hC hSolid]
      constructor
      · rintro rfl
        exact Or.inr ⟨c, by simp, hC⟩
      · rintro (hNone | ⟨d, hLast, hD⟩)
        · simp at hNone
        · cases method with
          | nil => rfl
          | cons e method =>
              have hMember : d ∈ e :: method := by
                refine List.mem_of_getLast? ?_
                simpa [List.getLast?_append] using hLast
              rw [hSolid d hMember] at hD
              cases hD

/- What a condition keeps of its selector. -/
def selectorText?
    (selector : List Char) : Option String :=
  if selector = [] then none else some (String.ofList selector)

/- The text in front of a clause is split as it is written. -/
theorem head_splitHead
    {head : List Char}
    (hFirst : NoBlankFirst head)
    (hMethod : ¬ NoMethod head) :
    Head head (selectorText? (splitHead head).1)
      (String.ofList (splitHead head).2) := by
  rw [← method_eq_nil_iff] at hMethod
  cases hCut : cutLast? isBlank head with
  | none =>
      have hSolid := cutLast?_eq_none_iff.mp hCut
      rw [splitHead_of_solid hSolid] at hMethod ⊢
      exact .alone hMethod hSolid
  | some cut =>
      rcases cut with ⟨before, method⟩
      rcases cutLast?_eq_some_iff.mp hCut with
        ⟨c, rfl, hC, hSolid⟩
      rw [splitHead_of_blank hC hSolid] at hMethod ⊢
      rcases exists_trim_of_behind hFirst hC with
        ⟨gap, hBefore, hGap, hVisible⟩
      have hApart : gap ++ [c] ≠ [] := by simp
      have hHead :
          Head _ (some (String.ofList (trim before)))
            (String.ofList method) :=
        .behind hVisible (trimmed_trim before) hApart
          (fun d hMember =>
            (List.mem_append.mp hMember).elim (hGap d) fun hNew =>
              List.mem_singleton.mp hNew ▸ hC)
          hMethod hSolid
      rw [selectorText?, if_neg hVisible]
      rw [← List.append_assoc, ← hBefore] at hHead
      simpa using hHead

theorem Head.split
    {head : List Char}
    {selector : Option String}
    {method : String}
    (hHead : Head head selector method) :
    selectorText? (splitHead head).1 = selector ∧
      String.ofList (splitHead head).2 = method ∧
        ¬ NoMethod head := by
  rw [← method_eq_nil_iff]
  cases hHead with
  | alone nonempty solid =>
      rw [splitHead_of_solid solid]
      exact ⟨rfl, rfl, nonempty⟩
  | @behind selector gap method visible trimmed apart blank
      nonempty solid =>
      rcases List.eq_nil_or_concat gap with rfl | ⟨gap, c, rfl⟩
      · exact absurd rfl apart
      have hGap : AllBlank gap := fun d hMember =>
        blank d (by simp [hMember])
      have hTrim := trim_of_surrounded allBlank_nil trimmed hGap
      have hSplit :
          splitHead ((selector ++ gap) ++ c :: method) =
            (trim (selector ++ gap), method) :=
        splitHead_of_blank (blank c (by simp)) solid
      rw [List.nil_append] at hTrim
      rw [hTrim] at hSplit
      have hText :
          selector ++ gap.concat c ++ method =
            selector ++ gap ++ c :: method := by
        simp
      rw [hText, hSplit]
      exact ⟨if_neg visible, rfl, nonempty⟩

------------------------------------------------------------
-- Clauses
------------------------------------------------------------

/- What parsing makes of the two parts of a clause. -/
def ofClause
    (global : Bool)
    (head inner : List Char) : Except ConditionError Condition :=
  if (splitHead head).2 = [] then .error .missingMethod
  else
    match words inner with
    | [left, operator, right] =>
        .ok
          { method := String.ofList (splitHead head).2
            left := String.ofList left
            right := String.ofList right
            operator := String.ofList operator
            selector := selectorText? (splitHead head).1
            global }
    | tokens => .error (.operandCount tokens.length)

/- A clause that is followed by blanks is taken apart. -/
theorem parseBody_of_clause
    {global : Bool}
    {head inner after : List Char}
    (hInner : '(' ∉ inner)
    (hAfter : ')' ∉ after)
    (hBlank : AllBlank after) :
    parseBody global
        (head ++ '(' :: (inner ++ ')' :: after)) =
      ofClause global head inner := by
  have hClose :
      cutLast? (· == ')')
          (head ++ '(' :: (inner ++ ')' :: after)) =
        some (head ++ '(' :: inner, after) :=
    cutLast?_sign_eq_some_iff.mpr ⟨by simp, hAfter⟩
  have hOpen :
      cutLast? (· == '(') (head ++ '(' :: inner) =
        some (head, inner) :=
    cutLast?_sign_eq_some_iff.mpr ⟨rfl, hInner⟩
  simp only [parseBody, hClose, hOpen,
    List.all_eq_true.mpr hBlank, Bool.not_true,
    Bool.false_eq_true, if_false]
  rfl

theorem ofClause_of_head
    {global : Bool}
    {head inner left operator right : List Char}
    {selector : Option String}
    {method : String}
    (hHead : Head head selector method)
    (hOperands : Words inner [left, operator, right]) :
    ofClause global head inner =
      .ok
        { method
          left := String.ofList left
          right := String.ofList right
          operator := String.ofList operator
          selector
          global } := by
  rcases hHead.split with ⟨hSelector, hMethod, hSome⟩
  rw [ofClause, words_eq_iff.mpr hOperands,
    if_neg (mt method_eq_nil_iff.mp hSome), hSelector, hMethod]

theorem ofClause_of_noMethod
    (global : Bool)
    {head : List Char}
    (hNone : NoMethod head)
    (inner : List Char) :
    ofClause global head inner = .error .missingMethod :=
  if_pos (method_eq_nil_iff.mpr hNone)

theorem ofClause_of_count
    (global : Bool)
    {head inner : List Char}
    {found : List (List Char)}
    (hSome : ¬ NoMethod head)
    (hOperands : Words inner found)
    (hCount : found.length ≠ 3) :
    ofClause global head inner =
      .error (.operandCount found.length) := by
  rw [ofClause, words_eq_iff.mpr hOperands,
    if_neg (mt method_eq_nil_iff.mp hSome)]
  split
  · exact absurd rfl hCount
  · rfl

------------------------------------------------------------
-- Texts without a clause
------------------------------------------------------------

theorem parseBody_of_trailing
    (global : Bool)
    {front after : List Char}
    (hLast : ')' ∉ after)
    (hVisible : ¬ AllBlank after) :
    parseBody global (front ++ ')' :: after) =
      .error .trailingInput := by
  have hClose :
      cutLast? (· == ')') (front ++ ')' :: after) =
        some (front, after) :=
    cutLast?_sign_eq_some_iff.mpr ⟨rfl, hLast⟩
  have hAll : after.all isBlank = false := by
    rw [Bool.eq_false_iff]
    exact fun hBlank => hVisible (List.all_eq_true.mp hBlank)
  simp [parseBody, hClose, hAll]

theorem parseBody_of_notClosed
    (global : Bool)
    {rest : List Char}
    (hNone : ')' ∉ rest) :
    parseBody global rest = .error .missingClause := by
  have hClose : cutLast? (· == ')') rest = none :=
    cutLast?_sign_eq_none_iff.mpr hNone
  simp [parseBody, hClose]

theorem parseBody_of_notOpened
    (global : Bool)
    {front : List Char}
    (hNone : '(' ∉ front) :
    parseBody global (front ++ [')']) =
      .error .missingClause := by
  have hClose :
      cutLast? (· == ')') (front ++ [')']) = some (front, []) :=
    cutLast?_sign_eq_some_iff.mpr ⟨rfl, by simp⟩
  have hOpen : cutLast? (· == '(') front = none :=
    cutLast?_sign_eq_none_iff.mpr hNone
  simp [parseBody, hClose, hOpen]

/- How the last parentheses of a text stand. -/
inductive Shape : List Char → Prop where
  | trailing
      {front after : List Char}
      (last : ')' ∉ after)
      (visible : ¬ AllBlank after) :
      Shape (front ++ ')' :: after)
  | notClosed
      {text : List Char}
      (none : ')' ∉ text) :
      Shape text
  | notOpened
      {front : List Char}
      (none : '(' ∉ front) :
      Shape (front ++ [')'])
  | clause
      {text head inner : List Char}
      (ends : Clause text head inner) :
      Shape text

/- A text that does not end in a blank has one of the shapes. -/
theorem shape_of_noBlankLast
    {text : List Char}
    (hLast : NoBlankLast text) :
    Shape text := by
  cases hClose : cutLast? (· == ')') text with
  | none =>
      exact .notClosed (cutLast?_sign_eq_none_iff.mp hClose)
  | some cut =>
      rcases cut with ⟨front, after⟩
      rcases cutLast?_sign_eq_some_iff.mp hClose with
        ⟨rfl, hAfter⟩
      cases after with
      | cons d after =>
          refine .trailing hAfter ?_
          intro hBlank
          have hD :=
            hLast ((d :: after).getLast (by simp)) (by
              simp [List.getLast?_eq_some_getLast])
          rw [hBlank _ (List.getLast_mem _)] at hD
          cases hD
      | nil =>
          cases hOpen : cutLast? (· == '(') front with
          | none =>
              exact .notOpened
                (cutLast?_sign_eq_none_iff.mp hOpen)
          | some cut =>
              rcases cut with ⟨head, inner⟩
              rcases cutLast?_sign_eq_some_iff.mp hOpen with
                ⟨rfl, hInner⟩
              refine .clause (?_ : Clause _ head inner)
              exact ⟨by simp, hInner⟩

------------------------------------------------------------
-- Markers
------------------------------------------------------------

/-
  The marker and its blanks stand in front of what is left,
  and no parenthesis is among them.
-/
theorem exists_marker
    {text rest : List Char}
    {global : Bool}
    (hMarked : Marked text global rest) :
    ∃ front,
      text = front ++ rest ∧ '(' ∉ front ∧ ')' ∉ front := by
  cases hMarked with
  | plain => exact ⟨[], rfl, by simp, by simp⟩
  | @marked gap _ blank _ =>
      have hSign {c : Char} (hC : isBlank c = false) :
          c ∉ gap := fun hMember => by
        rw [blank c hMember] at hC
        cases hC
      refine ⟨'!' :: gap, rfl, ?_, ?_⟩
      · simpa using hSign (by decide)
      · simpa using hSign (by decide)

theorem Marked.noBlankFirst
    {text rest : List Char}
    {global : Bool}
    (hMarked : Marked text global rest)
    (hFirst : NoBlankFirst text) :
    NoBlankFirst rest := by
  cases hMarked with
  | plain => exact hFirst
  | marked _ start => exact start

theorem noBlankLast_of_append
    {front rest : List Char}
    (hLast : NoBlankLast (front ++ rest)) :
    NoBlankLast rest := by
  intro c hC
  exact hLast c (by simp [List.getLast?_append, hC])

/- The text in front of a clause starts with no blank either. -/
theorem Clause.noBlankFirst
    {text head inner : List Char}
    (hClause : Clause text head inner)
    (hFirst : NoBlankFirst text) :
    NoBlankFirst head := by
  intro c hC
  refine hFirst c ?_
  rw [hClause.split, List.head?_append, hC]
  rfl

/- A text that ends with a clause does not end in a blank. -/
theorem Clause.noBlankLast
    {text head inner : List Char}
    (hClause : Clause text head inner)
    (front : List Char) :
    NoBlankLast (front ++ text) := by
  intro c hC
  have hClose : c = ')' := by
    simpa [hClause.split, List.getLast?_append,
      List.getLast?_cons] using hC.symm
  exact hClose ▸ (by decide)

------------------------------------------------------------
-- Conditions
------------------------------------------------------------

theorem parse_of_blank
    {value : String}
    (hBlank : trim value.toList = []) :
    parse value = .error .empty := by
  simp [parse, hBlank]

theorem parse_of_marked
    {value : String}
    {rest : List Char}
    {global : Bool}
    (hSome : trim value.toList ≠ [])
    (hMarked : Marked (trim value.toList) global rest) :
    parse value = parseBody global rest := by
  simp only [parse, if_neg hSome, splitMarker_eq_iff.mpr hMarked]

theorem parse_of_clause
    {value : String}
    {rest head inner : List Char}
    {global : Bool}
    (hMarked : Marked (trim value.toList) global rest)
    (hClause : Clause rest head inner) :
    parse value = ofClause global head inner := by
  have hSome : trim value.toList ≠ [] := by
    rcases exists_marker hMarked with ⟨front, hText, _⟩
    rw [hText, hClause.split]
    simp
  rw [parse_of_marked hSome hMarked, hClause.split]
  exact
    parseBody_of_clause hClause.last (by simp) allBlank_nil

/-
  Every text is written as a condition, and parsed so, or
  refused for a reason, and parsed with that error.
-/
theorem parse_cases
    (value : String) :
    (∃ c, parse value = .ok c ∧
      Written (trim value.toList) c) ∨
      ∃ e, parse value = .error e ∧
        Refused (trim value.toList) e := by
  have hTrimmed := trimmed_trim value.toList
  rcases Decidable.em (trim value.toList = []) with
    hBlank | hSome
  · refine Or.inr ⟨.empty, parse_of_blank hBlank, ?_⟩
    rw [hBlank]
    exact .empty
  rcases hSplit : splitMarker (trim value.toList) with
    ⟨global, rest⟩
  have hMarked := splitMarker_eq_iff.mp hSplit
  have hParse := parse_of_marked hSome hMarked
  rcases exists_marker hMarked with
    ⟨marker, hText, hNoOpen, hNoClose⟩
  have hShape :=
    shape_of_noBlankLast
      (noBlankLast_of_append (hText ▸ hTrimmed.2))
  cases hShape with
  | @trailing front after last visible =>
      refine
        Or.inr
          ⟨_, hParse.trans
            (parseBody_of_trailing global last visible), ?_⟩
      rw [hText, ← List.append_assoc]
      exact .trailingInput last visible
  | notClosed none =>
      refine
        Or.inr
          ⟨_, hParse.trans (parseBody_of_notClosed global none),
            .notClosed hSome ?_⟩
      rw [hText]
      simp [hNoClose, none]
  | @notOpened front none =>
      refine
        Or.inr
          ⟨_, hParse.trans (parseBody_of_notOpened global none),
            ?_⟩
      rw [hText, ← List.append_assoc]
      exact .notOpened (by simp [hNoOpen, none])
  | @clause _ head inner ends =>
      have hParse := parse_of_clause hMarked ends
      rcases Classical.em (NoMethod head) with hNone | hMethod
      · exact
          Or.inr
            ⟨_, hParse.trans
              (ofClause_of_noMethod global hNone inner),
              .missingMethod hMarked ends hNone⟩
      have hHead :=
        head_splitHead
          (ends.noBlankFirst
            (Marked.noBlankFirst hMarked hTrimmed.1)) hMethod
      have hWords := words_spec inner
      rcases Decidable.em ((words inner).length = 3) with
        hThree | hCount
      · rcases List.length_eq_three.mp hThree with
          ⟨left, operator, right, hOperands⟩
        rw [hOperands] at hWords
        exact
          Or.inl
            ⟨_, hParse.trans (ofClause_of_head hHead hWords),
              .clause hMarked ends hHead hWords⟩
      · exact
          Or.inr
            ⟨_, hParse.trans
              (ofClause_of_count global hMethod hWords hCount),
              .operandCount hMarked ends hMethod hWords hCount⟩

theorem parse_of_written
    {value : String}
    {c : Condition}
    (hWritten : Written (trim value.toList) c) :
    parse value = .ok c := by
  cases hWritten with
  | clause selects ends starts operands =>
      rw [parse_of_clause selects ends]
      exact ofClause_of_head starts operands

/- A cut behind the marker is a cut of what is left. -/
theorem exists_rest_cut
    {text rest front after : List Char}
    {global : Bool}
    (hMarked : Marked text global rest)
    (hText : text = front ++ ')' :: after)
    (hLast : ')' ∉ after) :
    ∃ before,
      rest = before ++ ')' :: after ∧
        ('(' ∉ front → '(' ∉ before) := by
  rcases exists_marker hMarked with
    ⟨marker, hMarker, hNoOpen, hNoClose⟩
  have hCut : cutLast? (· == ')') text = some (front, after) :=
    cutLast?_sign_eq_some_iff.mpr ⟨hText, hLast⟩
  rw [hMarker, cutLast?_append (not_mem_iff_beq.mp hNoClose)]
    at hCut
  rcases Option.map_eq_some_iff.mp hCut with
    ⟨⟨before, behind⟩, hRest, hSame⟩
  obtain ⟨rfl, rfl⟩ := Prod.mk.inj hSame
  exact
    ⟨before, (cutLast?_sign_eq_some_iff.mp hRest).1,
      fun hNone hMember =>
        hNone (List.mem_append_right marker hMember)⟩

theorem parse_of_refused
    {value : String}
    {e : ConditionError}
    (hRefused : Refused (trim value.toList) e) :
    parse value = .error e := by
  rcases hSplit : splitMarker (trim value.toList) with
    ⟨global, rest⟩
  have hMarked := splitMarker_eq_iff.mp hSplit
  generalize hText : trim value.toList = text at hRefused
  cases hRefused with
  | empty => exact parse_of_blank hText
  | trailingInput last visible =>
      rcases exists_rest_cut hMarked hText last with
        ⟨before, rfl, _⟩
      rw [parse_of_marked (by simp [hText]) hMarked]
      exact parseBody_of_trailing global last visible
  | notClosed nonempty none =>
      rcases exists_marker hMarked with ⟨marker, hMarker, _⟩
      rw [parse_of_marked (hText ▸ nonempty) hMarked]
      refine parseBody_of_notClosed global ?_
      rw [← hText, hMarker] at none
      exact fun hMember =>
        none (List.mem_append_right marker hMember)
  | notOpened none =>
      rcases exists_rest_cut hMarked hText (by simp) with
        ⟨before, rfl, hOpen⟩
      rw [parse_of_marked (by simp [hText]) hMarked]
      exact parseBody_of_notOpened global (hOpen none)
  | missingMethod selects ends none =>
      rw [parse_of_clause (hText ▸ selects) ends]
      exact ofClause_of_noMethod _ none _
  | operandCount selects ends some operands count =>
      rw [parse_of_clause (hText ▸ selects) ends]
      exact ofClause_of_count _ some operands count

theorem parse_eq_ok_iff
    {value : String}
    {c : Condition} :
    parse value = .ok c ↔ Written (trim value.toList) c := by
  refine ⟨fun hParse => ?_, parse_of_written⟩
  rcases parse_cases value with
    ⟨d, hSame, hWritten⟩ | ⟨e, hError, _⟩
  · rw [hParse] at hSame
    cases hSame
    exact hWritten
  · rw [hParse] at hError
    cases hError

theorem parse_eq_error_iff
    {value : String}
    {e : ConditionError} :
    parse value = .error e ↔ Refused (trim value.toList) e := by
  refine ⟨fun hParse => ?_, parse_of_refused⟩
  rcases parse_cases value with
    ⟨c, hSome, _⟩ | ⟨f, hSame, hRefused⟩
  · rw [hParse] at hSome
    cases hSome
  · rw [hParse] at hSame
    cases hSame
    exact hRefused

------------------------------------------------------------
-- Canonical texts
------------------------------------------------------------

/- The canonical text in front of a clause. -/
def canonicalHead
    (selector : Option String)
    (method : String) : List Char :=
  match selector with
  | none => method.toList
  | some s => s.toList ++ ' ' :: method.toList

/- It is written for the same selector and method. -/
theorem Head.canonical
    {head : List Char}
    {selector : Option String}
    {method : String}
    (hHead : Head head selector method) :
    Head (canonicalHead selector method) selector method ∧
      (canonicalHead selector method).head? = head.head? ∧
        head ≠ [] := by
  cases hHead with
  | alone nonempty solid =>
      rw [canonicalHead, String.toList_ofList]
      exact ⟨.alone nonempty solid, rfl, nonempty⟩
  | @behind selector gap method visible trimmed apart blank
      nonempty solid =>
      have hCanonical :
          canonicalHead (some (String.ofList selector))
              (String.ofList method) =
            selector ++ [' '] ++ method := by
        simp [canonicalHead]
      rw [hCanonical]
      refine
        ⟨.behind visible trimmed (by simp)
          (by simpa [AllBlank] using (by decide)) nonempty solid,
          ?_, by simp [visible]⟩
      cases selector with
      | nil => exact absurd rfl visible
      | cons c rest => rfl

/- The canonical text of a condition ends with its clause. -/
theorem toList_render
    (c : Condition) :
    c.render.toList =
      (if c.global then ['!', ' '] else []) ++
        (canonicalHead c.selector c.method ++
          '(' :: (c.left.toList ++ ' ' ::
            (c.operator.toList ++ ' ' :: c.right.toList) ++
              [')'])) := by
  rcases c with
    ⟨method, left, right, operator, selector, global⟩
  cases global <;> cases selector <;>
    simp [render, canonicalHead]

/- The canonical text of a condition is written for it. -/
theorem Written.render
    {text : List Char}
    {c : Condition}
    (hTrimmed : Trimmed text)
    (hWritten : Written text c) :
    Written c.render.toList c ∧ Trimmed c.render.toList := by
  cases hWritten with
  | @clause rest head inner left operator right global selector
      method selects ends starts operands =>
      rcases starts.canonical with ⟨hHead, hFirst, hSome⟩
      have hSolid (word : List Char)
          (hMember : word ∈ [left, operator, right]) :=
        operands.solid_of_mem hMember
      have hLeft := hSolid left (by simp)
      have hOperator := hSolid operator (by simp)
      have hRight := hSolid right (by simp)
      have hWords :
          Words (left ++ ' ' :: (operator ++ ' ' :: right))
            [left, operator, right] :=
        .cons_space hLeft.1 hLeft.2
          (.cons_space hOperator.1 hOperator.2
            (.single hRight.1 hRight.2))
      have hInner :
          '(' ∉ left ++ ' ' :: (operator ++ ' ' :: right) := by
        have hNone (word : List Char)
            (hMember : word ∈ [left, operator, right]) :
            '(' ∉ word := fun hC =>
          ends.last (operands.mem_of_mem_word hMember hC)
        simp [hNone left, hNone operator, hNone right]
      let body : List Char :=
        canonicalHead selector method ++
          '(' :: (left ++ ' ' :: (operator ++ ' ' :: right) ++
            [')'])
      have hClause :
          Clause body (canonicalHead selector method)
            (left ++ ' ' :: (operator ++ ' ' :: right)) :=
        ⟨rfl, hInner⟩
      -- The text starts as it did before.
      have hBodyFirst : body.head? = rest.head? := by
        rcases List.exists_cons_of_ne_nil hSome with ⟨d, more, rfl⟩
        rw [ends.split, List.head?_append, hFirst]
        rfl
      have hRestFirst : NoBlankFirst rest :=
        Marked.noBlankFirst selects hTrimmed.1
      have hStart : NoBlankFirst body := fun d hD =>
        hRestFirst d (hBodyFirst ▸ hD)
      rw [toList_render]
      simp only [String.toList_ofList]
      cases selects with
      | plain unmarked =>
          rw [← hBodyFirst] at unmarked
          exact
            ⟨.clause (.plain unmarked) hClause hHead hWords,
              hStart, hClause.noBlankLast []⟩
      | marked blank start =>
          have hSpace : AllBlank [' '] := by
            simpa [AllBlank] using (by decide)
          refine
            ⟨.clause (.marked hSpace hStart) hClause hHead hWords,
              ?_, hClause.noBlankLast ['!', ' ']⟩
          intro d hD
          cases hD
          decide

/-
  A text stands for a condition exactly if its grammar says
  so, is refused otherwise for the one reason that applies,
  and the canonical text of what it stands for stands for the
  same.
-/
theorem condition_grammar
    (value : String) :
    (∀ c,
      parse value = .ok c ↔ Written (trim value.toList) c) ∧
      (∀ e,
        parse value = .error e ↔
          Refused (trim value.toList) e) ∧
      ∀ c, parse value = .ok c → parse c.render = .ok c := by
  refine
    ⟨fun c => parse_eq_ok_iff, fun e => parse_eq_error_iff, ?_⟩
  intro c hParse
  have hRender :=
    (parse_eq_ok_iff.mp hParse).render
      (trimmed_trim value.toList)
  apply parse_of_written
  rw [trim_of_trimmed hRender.2]
  exact hRender.1

/-
  Earlier parentheses and a second marker belong to the
  selector, and an operand may close more than was opened.
-/
theorem condition_grammar_nested :
    let c : Condition :=
      { method := "attr", left := "b)", right := "c"
        operator := "!equals", selector := some "!:not(a)"
        global := true }
    parse " !\t!:not(a)\u3000attr(b) !equals c) " = .ok c ∧
      parse c.render = .ok c := by
  intro c
  have hParse :
      parse " !\t!:not(a)\u3000attr(b) !equals c) " = .ok c := by
    decide
  exact ⟨hParse, (condition_grammar _).2.2 c hParse⟩

end Condition

end MarkupMetrics
