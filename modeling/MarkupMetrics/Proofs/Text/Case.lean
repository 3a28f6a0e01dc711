import MarkupMetrics.Text.Case

/-
  This file proves what title case makes of a name, and that
  doing it twice is the same as doing it once.

  Title case changes the first character only, and that only
  if it is not uppercase.  Upper case may have several characters, and the first of
  them need not be uppercase: the one of U+0149 starts with a
  mark that has no case.  What comes to stand in front is
  uppercase or its own upper case, and that is settled by
  going through the tables.

  Key definitions include:
    * `CodeRun.members`
    * `isSettled`

  Key theorems include:
    * `Text.exists_toUppercase`
    * `Text.titleCase_of_cons`
    * `Text.titleCase_eq_self_iff`
    * `Text.titleCase_of_ascii`
    * `Text.titleCase_titleCase`
-/

namespace MarkupMetrics.Text

------------------------------------------------------------
-- Members of runs
------------------------------------------------------------

/- The code points of a run. -/
def CodeRun.members
    (r : CodeRun) : List Nat :=
  (List.range' r.first (r.last + 1 - r.first)).filter r.contains

theorem CodeRun.mem_members_iff
    {r : CodeRun}
    {n : Nat} :
    n ∈ r.members ↔ r.contains n = true := by
  simp only [members, List.mem_filter, List.mem_range'_1,
    and_iff_right_iff_imp]
  intro hContains
  simp only [contains, Bool.and_eq_true, decide_eq_true_iff]
    at hContains
  omega

------------------------------------------------------------
-- Tables
------------------------------------------------------------

/- Whether title case leaves a character in front as it is. -/
def isSettled
    (c : Char) : Bool :=
  isUppercase c || toUppercase c == [c]

/-
  Whether all members of a run have an uppercase character at
  a distance.  It is looked for only among the runs that meet
  the moved run, which is what makes the check short.
-/
def CodeRun.isUppercaseAt
    (r : CodeRun)
    (distance : Int) : Bool :=
  let near := uppercaseRuns.filter fun u =>
    (r.first + distance).toNat ≤ u.last &&
      u.first ≤ (r.last + distance).toNat
  r.members.all fun n =>
    near.any fun u =>
      u.contains (Char.ofNat (n + distance).toNat).toNat

theorem CodeRun.isUppercase_of_isUppercaseAt
    {r : CodeRun}
    {distance : Int}
    (hAll : r.isUppercaseAt distance = true)
    {n : Nat}
    (hMember : r.contains n = true) :
    isUppercase (Char.ofNat (n + distance).toNat) = true := by
  simp only [isUppercaseAt, List.all_eq_true] at hAll
  rcases List.any_eq_true.mp
      (hAll n (mem_members_iff.mpr hMember)) with
    ⟨u, hNear, hContains⟩
  exact
    List.any_eq_true.mpr
      ⟨u, (List.mem_filter.mp hNear).1, hContains⟩

/- Upper case of one character is uppercase. -/
theorem isUppercaseAt_shifts :
    uppercaseShifts.all (fun e => e.1.isUppercaseAt e.2) =
      true := by
  decide +kernel

/- Upper case of several characters starts with a settled one. -/
theorem isSettled_expansions :
    uppercaseExpansions.all (fun e =>
        (e.2.map Char.ofNat).head?.any isSettled) =
      true := by
  decide +kernel

------------------------------------------------------------
-- Upper case
------------------------------------------------------------

/- The upper case of a character starts with a settled one. -/
theorem exists_toUppercase
    (c : Char) :
    ∃ front more,
      toUppercase c = front :: more ∧
        isSettled front = true := by
  unfold toUppercase
  split
  · rename_i e hExpansion
    have hHead :=
      List.all_eq_true.mp isSettled_expansions e
        (List.mem_of_find?_eq_some hExpansion)
    rcases (Option.any_eq_true _ _).mp hHead with
      ⟨front, hFront, hSettled⟩
    rcases List.head?_eq_some_iff.mp hFront with ⟨more, hForm⟩
    exact ⟨front, more, hForm, hSettled⟩
  · rename_i hExpansion
    split
    · rename_i e hShift
      have hAll :=
        List.all_eq_true.mp isUppercaseAt_shifts e
          (List.mem_of_find?_eq_some hShift)
      have hMember : e.1.contains c.toNat = true := by
        simpa using List.find?_some hShift
      have hUpper :=
        CodeRun.isUppercase_of_isUppercaseAt hAll hMember
      exact ⟨_, [], rfl, by simp [isSettled, hUpper]⟩
    · rename_i hShift
      have hSame : toUppercase c = [c] := by
        simp only [toUppercase, hExpansion, hShift]
      exact ⟨c, [], rfl, by simp [isSettled, hSame]⟩

------------------------------------------------------------
-- Title case
------------------------------------------------------------

/-
  The first character of a name is kept if it is uppercase,
  and else gives way to its upper case, which may have several
  characters.  All others are kept, in their order.
-/
theorem titleCase_of_cons
    {name : String}
    {first : Char}
    {rest : List Char}
    (hName : name.toList = first :: rest) :
    ∃ front,
      (titleCase name).toList = front ++ rest ∧ front ≠ [] ∧
        (isUppercase first = true → front = [first]) ∧
        (isUppercase first = false →
          front = toUppercase first) := by
  rw [titleCase, String.toList_ofList, hName, titleCaseChars]
  cases hUpper : isUppercase first with
  | true => exact ⟨[first], by simp⟩
  | false =>
      rcases exists_toUppercase first with
        ⟨c, more, hForm, _⟩
      exact ⟨toUppercase first, by simp [hForm]⟩

/- There is nothing to change in a name without characters. -/
theorem titleCase_empty : titleCase "" = "" :=
  rfl

theorem titleCaseChars_of_isSettled
    {c : Char}
    (hSettled : isSettled c = true)
    (rest : List Char) :
    titleCaseChars (c :: rest) = c :: rest := by
  simp only [isSettled, Bool.or_eq_true, beq_iff_eq]
    at hSettled
  rw [titleCaseChars]
  rcases hSettled with hUpper | hSame
  · rw [if_pos hUpper]
  · rw [hSame]
    exact ite_self _

/- Just a settled character in front is left as it is. -/
theorem titleCase_eq_self_iff
    (name : String) :
    titleCase name = name ↔
      ∀ first ∈ name.toList.head?, isSettled first = true := by
  rw [← String.toList_inj, titleCase, String.toList_ofList]
  cases name.toList with
  | nil => simp [titleCaseChars]
  | cons c rest =>
      simp only [List.head?_cons, Option.mem_some_iff,
        forall_eq']
      constructor
      · intro hSame
        cases hUpper : isUppercase c with
        | true => simp [isSettled, hUpper]
        | false =>
            rw [titleCaseChars, hUpper, if_neg (by simp),
              ← List.singleton_append, List.append_cancel_right_eq]
              at hSame
            simp [isSettled, hSame]
      · intro hSettled
        exact titleCaseChars_of_isSettled hSettled rest

/- Of ASCII characters the lower-case letters change. -/
theorem titleCaseChars_ascii :
    (List.range 128).all (fun n =>
        titleCaseChars [Char.ofNat n] ==
          [(Char.ofNat n).toUpper]) =
      true := by
  decide +kernel

theorem titleCase_of_ascii
    {name : String}
    {first : Char}
    {rest : List Char}
    (hName : name.toList = first :: rest)
    (hAscii : first.toNat < 128) :
    (titleCase name).toList = first.toUpper :: rest := by
  have hAlone : titleCaseChars [first] = [first.toUpper] := by
    have hAll :=
      List.all_eq_true.mp titleCaseChars_ascii first.toNat
        (List.mem_range.mpr hAscii)
    simpa using hAll
  rw [titleCase, String.toList_ofList, hName, titleCaseChars]
  rw [titleCaseChars] at hAlone
  cases hUpper : isUppercase first with
  | true =>
      rw [hUpper, if_pos rfl, List.cons.injEq] at hAlone
      rw [if_pos rfl, ← hAlone.1]
  | false =>
      rw [hUpper, if_neg (by simp), List.append_nil] at hAlone
      rw [if_neg (by simp), hAlone, List.singleton_append]

theorem titleCaseChars_titleCaseChars
    (name : List Char) :
    titleCaseChars (titleCaseChars name) =
      titleCaseChars name := by
  cases name with
  | nil => rfl
  | cons c rest =>
      cases hUpper : isUppercase c with
      | true =>
          have hSettled : isSettled c = true := by
            simp [isSettled, hUpper]
          rw [titleCaseChars_of_isSettled hSettled,
            titleCaseChars_of_isSettled hSettled]
      | false =>
          rcases exists_toUppercase c with
            ⟨front, more, hForm, hSettled⟩
          have hTitle :
              titleCaseChars (c :: rest) =
                front :: (more ++ rest) := by
            simp [titleCaseChars, hUpper, hForm]
          rw [hTitle, titleCaseChars_of_isSettled hSettled]

theorem titleCase_titleCase
    (name : String) :
    titleCase (titleCase name) = titleCase name := by
  simp only [titleCase, String.toList_ofList,
    titleCaseChars_titleCaseChars]

/- The mark that comes to the front has no case. -/
example :
    titleCase "\u0149ame" = "\u02bcName" ∧
      isUppercase '\u02bc' = false ∧
        titleCase "\u02bcName" = "\u02bcName" := by
  decide +kernel

end MarkupMetrics.Text
