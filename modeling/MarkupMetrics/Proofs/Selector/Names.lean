import MarkupMetrics.Proofs.Css.Lexing
import MarkupMetrics.Selector.Printer

/-
  This file shows that a name is read back from the text it
  is written as, whatever characters it has.

  Key definitions include:
    * `Css.NameStops`
    * `Selector.Spells`
    * `Selector.Opens`
    * `Selector.Breaks`

  Key theorems include:
    * `Selector.spells_renderIdent`
    * `Selector.opens_renderIdent`
    * `Selector.reads_ident`
    * `Selector.reads_idHash`
    * `Selector.reads_function`
-/

namespace MarkupMetrics

open Text Css

------------------------------------------------------------
-- Characters
------------------------------------------------------------

namespace Css

/- A name cannot go on with the text that follows. -/
def NameStops
    (rest : List Char) : Prop :=
  ∀ c ∈ rest.head?,
    isNameChar c = false ∧ c ≠ '\x00' ∧ c ≠ '\\'

theorem readName_of_stops
    {rest : List Char}
    (hStops : NameStops rest) :
    readName rest = ([], rest) := by
  cases rest with
  | nil => simp [readName]
  | cons c rest =>
      rcases hStops c rfl with ⟨hChar, hNull, hEscape⟩
      rw [readName]
      simp [hChar, hNull, hEscape]

theorem readName_nameChar
    {c : Char}
    (hChar : isNameChar c = true)
    (rest : List Char) :
    readName (c :: rest) =
      (c :: (readName rest).1, (readName rest).2) := by
  rw [readName]
  simp [hChar]

theorem readName_escape
    {s : List Char}
    (hLine : startsNewline s = false) :
    readName ('\\' :: s) =
      ((readEscape s).1 :: (readName (readEscape s).2).1,
        (readName (readEscape s).2).2) := by
  have hChar : isNameChar '\\' = false := by decide
  rw [readName]
  simp [hChar, hLine]

end Css

namespace Selector

theorem isNameChar_eq_printed
    (c : Char) :
    isNameChar c =
      (c.isAlphanum || c == '_' || c == '-' ||
        0x80 ≤ c.toNat) := by
  simp only [isNameChar, isLetter, isDigit, Char.isAlphanum,
    Char.isAlpha, Char.isUpper, Char.isLower, Char.isDigit,
    Char.le_def, ge_iff_le]
  grind

/- A property of every character in ASCII can be computed. -/
theorem forall_ascii
    {P : Char → Prop}
    (hAll : ∀ n < 0x80, P (Char.ofNat n))
    {c : Char}
    (hShort : c.toNat < 0x80) :
    P c := by
  simpa using hAll c.toNat hShort

/- Hexadecimal digits may stand in a name as they are. -/
theorem hexValue?_eq_none
    {c : Char}
    (hChar : isNameChar c = false) :
    hexValue? c = none := by
  simp only [isNameChar, isLetter, Bool.or_eq_false_iff,
    Bool.and_eq_false_iff, decide_eq_false_iff_not,
    Char.le_def] at hChar
  simp only [hexValue?, Char.le_def]
  grind

/- What is neither a name character nor a control stays visible. -/
theorem isNewline_eq_false
    {c : Char}
    (hControl : isControl c = false) :
    isNewline c = false := by
  simp only [isNewline, Bool.or_eq_false_iff, beq_eq_false_iff_ne]
  refine ⟨⟨?_, ?_⟩, ?_⟩ <;>
  · rintro rfl
    exact absurd hControl (by decide)

------------------------------------------------------------
-- Escapes
------------------------------------------------------------

theorem charOfCode_toNat
    {c : Char}
    (hNull : c ≠ '\x00') :
    charOfCode c.toNat = c := by
  have hCode : c.toNat ≠ 0 := by
    intro hZero
    exact hNull (Char.toNat_inj.mp hZero)
  have hValid : c.toNat.isValidChar := c.valid
  rw [charOfCode, if_neg hCode, dif_pos hValid]
  exact Char.ext rfl

/- A digit that spells a small number has that number as value. -/
theorem hexValue?_digitChar :
    ∀ d < 16, hexValue? d.digitChar = some d := by
  decide

theorem isNewline_digitChar :
    ∀ d < 16, isNewline d.digitChar = false := by
  decide

/- The digits of a code below 128 are one or two. -/
theorem toDigits_of_short
    {n : Nat}
    (hShort : n < 0x80) :
    (n < 16 ∧ Nat.toDigits 16 n = [n.digitChar]) ∨
      Nat.toDigits 16 n =
        [(n / 16).digitChar, (n % 16).digitChar] := by
  rcases Nat.lt_or_ge n 16 with hOne | hTwo
  · exact Or.inl ⟨hOne, Nat.toDigits_of_lt_base hOne⟩
  · right
    rw [Nat.toDigits_of_base_le (by decide) hTwo,
      Nat.toDigits_of_lt_base (by omega)]
    rfl

/- An escape by a code is read back up to the blank behind it. -/
theorem readEscape_toDigits
    {n : Nat}
    (hShort : n < 0x80)
    (rest : List Char) :
    readEscape (Nat.toDigits 16 n ++ ' ' :: rest) =
      (charOfCode n, rest) := by
  have hBlank : hexValue? ' ' = none := by decide
  rcases toDigits_of_short hShort with ⟨hOne, hDigits⟩ | hDigits
  · have hValue := hexValue?_digitChar n hOne
    simp [hDigits, readEscape, readHex, hValue, hBlank,
      dropEscapeEnd]
  · have hHigh := hexValue?_digitChar (n / 16) (by omega)
    have hLow := hexValue?_digitChar (n % 16) (by omega)
    have hSum : n / 16 * 16 + n % 16 = n := by omega
    simp [hDigits, readEscape, readHex, hHigh, hLow, hBlank,
      dropEscapeEnd, hSum]

theorem startsNewline_toDigits
    {n : Nat}
    (hShort : n < 0x80)
    (rest : List Char) :
    startsNewline (Nat.toDigits 16 n ++ rest) = false := by
  rcases toDigits_of_short hShort with ⟨hOne, hDigits⟩ | hDigits
  · rw [hDigits]
    exact isNewline_digitChar n hOne
  · rw [hDigits]
    exact isNewline_digitChar (n / 16) (by omega)

------------------------------------------------------------
-- Spelling
------------------------------------------------------------

/-
  Wherever a piece of text stands in a name, it is read as
  the given characters.
-/
def Spells
    (piece name : List Char) : Prop :=
  ∀ rest,
    readName (piece ++ rest) =
      (name ++ (readName rest).1, (readName rest).2)

theorem Spells.nil :
    Spells [] [] :=
  fun _ => rfl

theorem Spells.append
    {piece piece' name name' : List Char}
    (hFirst : Spells piece name)
    (hSecond : Spells piece' name') :
    Spells (piece ++ piece') (name ++ name') := by
  intro rest
  rw [List.append_assoc, hFirst, hSecond]
  simp

theorem Spells.readName
    {piece name : List Char}
    (hSpells : Spells piece name)
    {rest : List Char}
    (hStops : NameStops rest) :
    readName (piece ++ rest) = (name, rest) := by
  rw [hSpells, readName_of_stops hStops]
  simp

theorem spells_nameChar
    {c : Char}
    (hChar : isNameChar c = true) :
    Spells [c] [c] :=
  readName_nameChar hChar

theorem spells_nameChars
    {name : List Char}
    (hChars : ∀ c ∈ name, isNameChar c = true) :
    Spells name name := by
  induction name with
  | nil => exact Spells.nil
  | cons c name ih =>
      have hFirst := hChars c List.mem_cons_self
      exact
        (spells_nameChar hFirst).append
          (ih fun d hMem => hChars d (List.mem_cons_of_mem _ hMem))

theorem spells_hexEscape
    {c : Char}
    (hNull : c ≠ '\x00')
    (hShort : c.toNat < 0x80) :
    Spells (hexEscape c) [c] := by
  intro rest
  have hLine := startsNewline_toDigits hShort (' ' :: rest)
  have hText :
      hexEscape c ++ rest =
        '\\' :: (Nat.toDigits 16 c.toNat ++ ' ' :: rest) := by
    simp [hexEscape]
  rw [hText, readName_escape hLine, readEscape_toDigits hShort,
    charOfCode_toNat hNull]
  rfl

/- A character that is no digit of a code stands for itself. -/
theorem spells_escape
    {c : Char}
    (hNull : c ≠ '\x00')
    (hValue : hexValue? c = none)
    (hLine : isNewline c = false) :
    Spells ['\\', c] [c] := by
  intro rest
  have hRead : readEscape (c :: rest) = (c, rest) := by
    simp [readEscape, hValue, hNull]
  have hText : ['\\', c] ++ rest = '\\' :: c :: rest := rfl
  have hStarts : startsNewline (c :: rest) = false := hLine
  rw [hText, readName_escape hStarts, hRead]
  rfl

------------------------------------------------------------
-- Names
------------------------------------------------------------

theorem toNat_lt_of_isControl
    {c : Char}
    (hControl : isControl c = true) :
    c.toNat < 0x80 := by
  simp only [isControl, Bool.or_eq_true, decide_eq_true_eq,
    beq_iff_eq] at hControl
  rcases hControl with hLow | rfl
  · omega
  · decide

theorem spells_renderNameChar
    {c : Char}
    (hNull : c ≠ '\x00') :
    Spells (renderNameChar c) [c] := by
  rw [renderNameChar, ← isNameChar_eq_printed]
  cases hChar : isNameChar c with
  | true => simpa [hChar] using spells_nameChar hChar
  | false =>
      cases hControl : isControl c with
      | true =>
          simpa [hNull] using
            spells_hexEscape hNull
              (toNat_lt_of_isControl hControl)
      | false =>
          simpa [hNull] using
            spells_escape hNull (hexValue?_eq_none hChar)
              (isNewline_eq_false hControl)

theorem spells_renderName
    {name : List Char}
    (hNull : '\x00' ∉ name) :
    Spells (renderName name) name := by
  induction name with
  | nil => exact Spells.nil
  | cons c name ih =>
      simp only [List.mem_cons, not_or] at hNull
      exact
        (spells_renderNameChar (Ne.symm hNull.1)).append
          (ih hNull.2)

theorem toNat_lt_of_isDigit
    {c : Char}
    (hDigit : c.isDigit = true) :
    c.toNat < 0x80 := by
  simp only [Char.isDigit, Bool.and_eq_true, decide_eq_true_eq,
    UInt32.le_iff_toNat_le, ge_iff_le] at hDigit
  change _ ∧ c.toNat ≤ 57 at hDigit
  omega

theorem spells_renderNameStart
    {name : List Char}
    (hNull : '\x00' ∉ name) :
    Spells (renderNameStart name) name := by
  cases name with
  | nil => exact Spells.nil
  | cons c name =>
      simp only [renderNameStart]
      split
      · rename_i hDigit
        simp only [List.mem_cons, not_or] at hNull
        exact
          (spells_hexEscape (Ne.symm hNull.1)
            (toNat_lt_of_isDigit hDigit)).append
            (spells_renderName hNull.2)
      · exact spells_renderName hNull

/- An identifier is read back from what is written for it. -/
theorem spells_renderIdent
    {name : List Char}
    (hNull : '\x00' ∉ name) :
    Spells (renderIdent name) name := by
  have hMinus : Spells ['-'] ['-'] :=
    spells_nameChar (by decide)
  unfold renderIdent
  split
  · simp only [List.mem_cons, not_or] at hNull
    exact
      hMinus.append
        (hMinus.append (spells_renderName hNull.2.2))
  · exact
      spells_escape (by decide) (by decide) (by decide)
  · simp only [List.mem_cons, not_or] at hNull
    exact hMinus.append (spells_renderNameStart hNull.2)
  · exact spells_renderNameStart hNull

------------------------------------------------------------
-- Starts of names
------------------------------------------------------------

/- A text that starts with an identifier and nothing else. -/
inductive Opens : List Char → Prop where
  | letter
      {c : Char}
      {rest : List Char}
      (hStart : isNameStart c = true) :
      Opens (c :: rest)
  | escape
      {rest : List Char}
      (hLine : startsNewline rest = false) :
      Opens ('\\' :: rest)
  | minus
      {c : Char}
      {rest : List Char}
      (hStart : isNameStart c = true ∨ c = '\\') :
      Opens ('-' :: c :: rest)
  | minuses
      {rest : List Char}
      (hClose : rest.head? ≠ some '>') :
      Opens ('-' :: '-' :: rest)

theorem Opens.startsName
    {s : List Char}
    (hOpens : Opens s) :
    startsName s = true := by
  cases hOpens with
  | @letter c rest hStart =>
      have hMinus : c ≠ '-' := by
        rintro rfl
        exact absurd hStart (by decide)
      have hEscape : c ≠ '\\' := by
        rintro rfl
        exact absurd hStart (by decide)
      unfold Css.startsName
      split
      · rename_i hText
        exact absurd (List.cons.inj hText).1 hMinus
      · rename_i hText
        exact absurd (List.cons.inj hText).1 hEscape
      · rename_i hText
        rw [← (List.cons.inj hText).1, hStart, Bool.true_or]
      · rename_i hText
        exact absurd hText (by simp)
  | escape hLine => simp [Css.startsName, hLine]
  | minus hStart =>
      rcases hStart with hStart | rfl
      · simp [Css.startsName, hStart]
      · rfl
  | minuses hClose => rfl

theorem isDigit_eq_false_of_isNameStart
    {c : Char}
    (hStart : isNameStart c = true) :
    isDigit c = false := by
  cases hDigit : isDigit c with
  | false => rfl
  | true =>
      have hNever : (isNameStart c && isDigit c) = false :=
        forall_ascii (P := fun c => (isNameStart c && isDigit c) = false)
          (by decide) (toNat_lt_of_isDigit hDigit)
      rw [hStart, hDigit] at hNever
      exact hNever

theorem isSpace_eq_false_of_isNameStart
    {c : Char}
    (hStart : isNameStart c = true) :
    isSpace c = false := by
  cases hSpace : isSpace c with
  | false => rfl
  | true =>
      simp only [isSpace, isNewline, Bool.or_eq_true,
        beq_iff_eq] at hSpace
      rcases hSpace with (rfl | rfl) | (rfl | rfl) | rfl <;>
      · exact absurd hStart (by decide)

/- A minus before a name is no number and closes nothing. -/
theorem readMinus_of_startsName
    {c : Char}
    {rest : List Char}
    (hSign : isDigit c = false ∧ c ≠ '.')
    (hClose : ∀ after, c :: rest ≠ '-' :: '>' :: after)
    (hStarts : startsName ('-' :: c :: rest) = true) :
    readMinus (c :: rest) = readIdentLike ('-' :: c :: rest) := by
  have hNumber : startsUnsigned (c :: rest) = false := by
    unfold startsUnsigned
    split
    · rename_i hText
      exact absurd (List.cons.inj hText).1 hSign.2
    · exact hSign.1
  rw [readMinus, if_neg (by simp [hNumber]), if_pos hStarts]
  exact hClose

/- An opened identifier is read as one, or as a function. -/
theorem Opens.readToken
    {c : Char}
    {s : List Char}
    (hOpens : Opens (c :: s)) :
    readToken c s = readIdentLike (c :: s) := by
  have hStarts := hOpens.startsName
  cases hOpens with
  | letter hStart =>
      have hSpace := isSpace_eq_false_of_isNameStart hStart
      simp [Css.readToken, hSpace, hStart]
  | escape hLine =>
      have hToken :
          Css.readToken '\\' s =
            if startsNewline s then (.delim '\\', s)
            else readIdentLike ('\\' :: s) :=
        rfl
      simp [hToken, hLine]
  | @minus c rest hStart =>
      have hSign : isDigit c = false ∧ c ≠ '.' ∧ c ≠ '-' := by
        rcases hStart with hStart | rfl
        · refine
            ⟨isDigit_eq_false_of_isNameStart hStart, ?_, ?_⟩ <;>
          · rintro rfl
            exact absurd hStart (by decide)
        · decide
      refine
        readMinus_of_startsName ⟨hSign.1, hSign.2.1⟩ ?_ hStarts
      intro after hText
      exact hSign.2.2 (List.cons.inj hText).1
  | @minuses rest hClose =>
      refine readMinus_of_startsName (by decide) ?_ hStarts
      intro after hText
      exact hClose (by rw [(List.cons.inj hText).2]; rfl)

------------------------------------------------------------
-- Written names
------------------------------------------------------------

/-
  The first character of a name that is no minus stands there
  as it is, or escaped.
-/
theorem renderNameStart_cases
    {c : Char}
    (hNull : c ≠ '\x00')
    (hMinus : c ≠ '-')
    (name : List Char) :
    (isNameStart c = true ∧
        ∃ tail, renderNameStart (c :: name) = c :: tail) ∨
      ∃ tail,
        renderNameStart (c :: name) = '\\' :: tail ∧
          ∀ rest, startsNewline (tail ++ rest) = false := by
  cases hDigit : c.isDigit with
  | true =>
      have hShort := toNat_lt_of_isDigit hDigit
      refine
        Or.inr
          ⟨Nat.toDigits 16 c.toNat ++ ' ' :: renderName name,
            by simp [renderNameStart, hDigit, hexEscape], ?_⟩
      intro rest
      rw [List.append_assoc]
      exact startsNewline_toDigits hShort _
  | false =>
      have hText :
          renderNameStart (c :: name) =
            renderNameChar c ++ renderName name := by
        simp [renderNameStart, hDigit, renderName]
      rw [hText, renderNameChar, ← isNameChar_eq_printed]
      cases hChar : isNameChar c with
      | true =>
          left
          refine ⟨?_, renderName name, by simp⟩
          have hDigit : isDigit c = false := hDigit
          simpa [isNameChar, isNameStart, hDigit, hMinus] using hChar
      | false =>
          right
          cases hControl : isControl c with
          | true =>
              have hShort := toNat_lt_of_isControl hControl
              refine
                ⟨Nat.toDigits 16 c.toNat ++ ' ' :: renderName name,
                  by simp [hNull, hexEscape], ?_⟩
              intro rest
              rw [List.append_assoc]
              exact startsNewline_toDigits hShort _
          | false =>
              exact
                ⟨c :: renderName name, by simp [hNull],
                  fun _ => isNewline_eq_false hControl⟩

/- No name is written with a closing angle at its front. -/
theorem head?_renderName
    {name rest : List Char}
    (hRest : rest.head? ≠ some '>') :
    (renderName name ++ rest).head? ≠ some '>' := by
  cases name with
  | nil => exact hRest
  | cons c name =>
      simp only [renderName, List.flatMap_cons, renderNameChar,
        ← isNameChar_eq_printed]
      split
      · rename_i hChar
        intro hFirst
        have hAngle : c = '>' := by simpa using hFirst
        rw [hAngle] at hChar
        exact absurd hChar (by decide)
      · split
        · simp
        · split
          · simp [hexEscape]
          · simp

/- A written identifier is opened where it stands. -/
theorem opens_renderIdent
    {name : String}
    (hName : IsName name)
    {rest : List Char}
    (hRest : rest.head? ≠ some '>') :
    Opens (renderIdent name.toList ++ rest) := by
  rcases hName with ⟨hSome, hNull⟩
  generalize name.toList = name at hSome hNull
  unfold renderIdent
  split
  · exact Opens.minuses (head?_renderName hRest)
  · exact Opens.escape rfl
  · rename_i after hMinuses hAlone
    cases after with
    | nil => exact absurd rfl hAlone
    | cons c after =>
        simp only [List.mem_cons, not_or] at hNull
        have hMinus : c ≠ '-' := by
          rintro rfl
          exact hMinuses after rfl
        rcases renderNameStart_cases (Ne.symm hNull.2.1) hMinus after with
          ⟨hStart, tail, hText⟩ | ⟨tail, hText, hLine⟩
        · rw [hText]
          exact Opens.minus (Or.inl hStart)
        · rw [hText]
          exact Opens.minus (Or.inr rfl)
  · rename_i hMinuses hAlone hMinus
    cases name with
    | nil => exact absurd rfl hSome
    | cons c after =>
        simp only [List.mem_cons, not_or] at hNull
        have hFirst : c ≠ '-' := by
          rintro rfl
          exact hMinus after rfl
        rcases renderNameStart_cases (Ne.symm hNull.1) hFirst after with
          ⟨hStart, tail, hText⟩ | ⟨tail, hText, hLine⟩
        · rw [hText]
          exact Opens.letter hStart
        · rw [hText]
          exact Opens.escape (hLine rest)

------------------------------------------------------------
-- Tokens
------------------------------------------------------------

/- What may follow a written name directly. -/
def Breaks
    (rest : List Char) : Prop :=
  ∀ c ∈ rest.head?,
    c ∈ ['.', '#', '[', ']', ':', ' ', ',', ')']

theorem Breaks.nameStops
    {rest : List Char}
    (hBreaks : Breaks rest) :
    NameStops rest := by
  intro c hFirst
  have hAll :
      ∀ c ∈ ['.', '#', '[', ']', ':', ' ', ',', ')'],
        isNameChar c = false ∧ c ≠ '\x00' ∧ c ≠ '\\' :=
    List.all_iff_forall_prop.mp (by decide)
  exact hAll c (hBreaks c hFirst)

theorem Breaks.head?_ne
    {rest : List Char}
    (hBreaks : Breaks rest)
    {c : Char}
    (hOther : c ∉ ['.', '#', '[', ']', ':', ' ', ',', ')']) :
    rest.head? ≠ some c :=
  fun hFirst => hOther (hBreaks c hFirst)

/- An opened piece is an identifier, if it is no function. -/
theorem reads_ident_of_spells
    {piece name rest : List Char}
    (hSpells : Spells piece name)
    (hOpens : Opens (piece ++ rest))
    (hSome : piece ≠ [])
    (hStops : NameStops rest)
    (hParen : rest.head? ≠ some '(') :
    Reads (piece ++ rest) (.ident (String.ofList name)) rest := by
  cases piece with
  | nil => exact absurd rfl hSome
  | cons c piece =>
      have hName :
          readName (c :: (piece ++ rest)) = (name, rest) :=
        hSpells.readName hStops
      have hOpens : Opens (c :: (piece ++ rest)) := hOpens
      refine ⟨c, piece ++ rest, rfl, ?_, by simp⟩
      rw [hOpens.readToken, readIdentLike, hName]
      simp only
      split
      · exact absurd rfl hParen
      · rfl

/- A plain word before a parenthesis is a function. -/
theorem reads_function
    {c : Char}
    {name : List Char}
    (hStart : isNameStart c = true)
    (hChars : ∀ d ∈ name, isNameChar d = true)
    (hUrl : (c :: name).map Char.toLower ≠ ['u', 'r', 'l'])
    (rest : List Char) :
    Reads (c :: (name ++ '(' :: rest))
      (.function (String.ofList (c :: name))) rest := by
  have hSpells : Spells (c :: name) (c :: name) := by
    refine spells_nameChars ?_
    intro d hMem
    rcases List.mem_cons.mp hMem with rfl | hLater
    · exact isNameChar_of_isNameStart hStart
    · exact hChars d hLater
  have hStops : NameStops ('(' :: rest) := by
    intro d hFirst
    cases hFirst
    decide
  have hName :
      readName (c :: (name ++ '(' :: rest)) =
        (c :: name, '(' :: rest) :=
    hSpells.readName hStops
  have hOpens : Opens (c :: (name ++ '(' :: rest)) :=
    Opens.letter hStart
  refine ⟨c, name ++ '(' :: rest, rfl, ?_, by simp; omega⟩
  rw [hOpens.readToken, readIdentLike, hName]
  simp only [if_neg hUrl]

theorem renderIdent_ne_nil
    {name : String}
    (hName : IsName name) :
    renderIdent name.toList ≠ [] := by
  intro hNone
  have hSpells := spells_renderIdent hName.2 []
  rw [hNone] at hSpells
  exact hName.1 (by simpa [readName] using hSpells)

/- A written identifier is read back. -/
theorem reads_ident
    {name : String}
    (hName : IsName name)
    {rest : List Char}
    (hBreaks : Breaks rest) :
    Reads (renderIdent name.toList ++ rest) (.ident name) rest := by
  have hAngle := hBreaks.head?_ne (c := '>') (by decide)
  have hReads :=
    reads_ident_of_spells (spells_renderIdent hName.2)
      (opens_renderIdent hName hAngle)
      (renderIdent_ne_nil hName) hBreaks.nameStops
      (hBreaks.head?_ne (by decide))
  rwa [String.ofList_toList] at hReads

/- Behind a number sign it is read back as well. -/
theorem reads_idHash
    {name : String}
    (hName : IsName name)
    {rest : List Char}
    (hBreaks : Breaks rest) :
    Reads ('#' :: (renderIdent name.toList ++ rest))
      (.idHash name) rest := by
  have hAngle := hBreaks.head?_ne (c := '>') (by decide)
  have hOpens := opens_renderIdent hName hAngle
  have hRead :=
    (spells_renderIdent hName.2).readName hBreaks.nameStops
  have hToken :
      readToken '#' (renderIdent name.toList ++ rest) =
        readHash (renderIdent name.toList ++ rest) :=
    rfl
  refine ⟨'#', _, rfl, ?_, by simp⟩
  rw [hToken, readHash.eq_def, if_pos hOpens.startsName, hRead]
  simp only [String.ofList_toList]

end Selector

end MarkupMetrics
