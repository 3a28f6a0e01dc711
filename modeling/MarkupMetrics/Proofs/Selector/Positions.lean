import MarkupMetrics.Proofs.Css.Streams
import MarkupMetrics.Proofs.Outcome
import MarkupMetrics.Proofs.Selector.Formed
import MarkupMetrics.Proofs.Selector.Names

/-
  This file shows that the coefficients of a position are
  read back from the text they are written as.

  Key definitions include:
    * `Selector.digitsOf`
    * `Selector.numeralOf`
    * `Selector.nthTokens`

  Key theorems include:
    * `Selector.lexed_affineText`
    * `Selector.readNth_nthTokens`
    * `Selector.soundRead_readNth`
-/

namespace MarkupMetrics.Selector

open Css Text

------------------------------------------------------------
-- Digits
------------------------------------------------------------

/- The values of the decimal digits of a number. -/
def digitsOf
    (n : Nat) : List Nat :=
  (Nat.toDigits 10 n).map fun c => c.toNat - 48

theorem ofDigits_digitsOf
    (n : Nat) :
    ofDigits 10 (digitsOf n) = n := by
  have hRead :=
    Nat.ofDigitChars_toDigits (b := 10) (n := n) (by decide)
      (by decide)
  simp only [ofDigits, digitsOf, List.foldl_map]
  simp only [Nat.ofDigitChars, Nat.mul_comm 10] at hRead
  exact hRead

theorem isDigit_toDigits
    (n : Nat) :
    ∀ c ∈ Nat.toDigits 10 n, isDigit c = true := by
  intro c hMem
  exact Nat.isDigit_of_mem_toDigits (by decide) (by decide) hMem

theorem exists_toDigits
    (n : Nat) :
    ∃ d tail,
      Nat.toDigits 10 n = d :: tail ∧ isDigit d = true := by
  have hDigits := isDigit_toDigits n
  cases hText : Nat.toDigits 10 n with
  | nil =>
      have hSome := Nat.length_toDigits_pos (b := 10) (n := n)
      rw [hText] at hSome
      exact absurd hSome (by decide)
  | cons d tail =>
      exact ⟨d, tail, rfl, hDigits d (by simp [hText])⟩

theorem leadingDigits_toDigits
    (n : Nat)
    {rest : List Char}
    (hRest : startsDigit rest = false) :
    leadingDigits (Nat.toDigits 10 n ++ rest) = digitsOf n ∧
      afterDigits (Nat.toDigits 10 n ++ rest) = rest := by
  have hDigits := isDigit_toDigits n
  have hStop : rest.takeWhile isDigit = [] ∧
      rest.dropWhile isDigit = rest := by
    cases rest with
    | nil => exact ⟨rfl, rfl⟩
    | cons c rest =>
        have hSign : isDigit c = false := hRest
        simp [hSign]
  refine ⟨?_, ?_⟩
  · rw [leadingDigits, List.takeWhile_append_of_pos hDigits,
      hStop.1, List.append_nil]
    rfl
  · rw [afterDigits, List.dropWhile_append_of_pos hDigits, hStop.2]

------------------------------------------------------------
-- Numbers
------------------------------------------------------------

/- An integer as it is written, with a plus if asked for. -/
def writeInt
    (plus : Bool)
    (n : Int) : List Char :=
  (if n < 0 then ['-'] else if plus then ['+'] else []) ++
    Nat.toDigits 10 n.natAbs

/- What is read of a written integer. -/
def numeralOf
    (plus : Bool)
    (n : Int) : Numeral :=
  ⟨plus || decide (n < 0), decide (n < 0), digitsOf n.natAbs,
    none, none⟩

theorem toList_integerText
    (n : Int) :
    (integerText n).toList = writeInt false n := by
  unfold integerText writeInt
  simp only [String.toList_ofList]
  split <;> simp

theorem toList_signedText
    (n : Int) :
    (signedText n).toList = writeInt true n := by
  unfold signedText
  split
  · rename_i hNegative
    rw [toList_integerText]
    simp [writeInt, hNegative]
  · rename_i hNegative
    rw [String.toList_append, toList_integerText]
    simp [writeInt, hNegative]

theorem saturate_of_inRange
    {n : Int}
    (hRange : InRange n) :
    Numeral.saturate n = n := by
  unfold Numeral.saturate
  unfold InRange at hRange
  omega

theorem intValue?_numeralOf
    {n : Int}
    (hRange : InRange n)
    (plus : Bool) :
    (numeralOf plus n).intValue? = some n := by
  have hSize :
      (if decide (n < 0) = true then -(n.natAbs : Int)
        else n.natAbs) = n := by
    split <;> rename_i hNegative <;>
    · simp only [decide_eq_true_eq] at hNegative
      omega
  simp only [numeralOf, Numeral.intValue?, Option.isNone_none,
    Bool.and_self, if_true, ofDigits_digitsOf, hSize,
    saturate_of_inRange hRange]

/- What ends a written number. -/
def NumberStops
    (rest : List Char) : Prop :=
  ∀ c ∈ rest.head?, c = ')' ∨ c = 'n'

theorem readSign_writeInt
    (plus : Bool)
    (n : Int)
    (rest : List Char) :
    readSign (writeInt plus n ++ rest) =
      (plus || decide (n < 0), decide (n < 0),
        Nat.toDigits 10 n.natAbs ++ rest) := by
  unfold writeInt
  by_cases hNegative : n < 0
  · simp [hNegative, readSign]
  · cases plus with
    | true => simp [hNegative, readSign]
    | false =>
        rcases exists_toDigits n.natAbs with ⟨d, tail, hText, hDigit⟩
        have hPlain :
            readSign (d :: (tail ++ rest)) =
              (false, false, d :: (tail ++ rest)) := by
          unfold readSign
          split
          · rename_i hSign
            rw [(List.cons.inj hSign).1] at hDigit
            exact absurd hDigit (by decide)
          · rename_i hSign
            rw [(List.cons.inj hSign).1] at hDigit
            exact absurd hDigit (by decide)
          · rfl
        simp [hNegative, hText, hPlain]

/- Behind a number there is neither fraction nor exponent. -/
theorem NumberStops.plain
    {rest : List Char}
    (hRest : NumberStops rest) :
    startsDigit rest = false ∧ readFraction rest = (none, rest) ∧
      readExponent rest = (none, rest) := by
  cases rest with
  | nil => exact ⟨rfl, rfl, rfl⟩
  | cons c rest =>
      rcases hRest c rfl with rfl | rfl <;> exact ⟨rfl, rfl, rfl⟩

theorem readNumeral_writeInt
    (plus : Bool)
    (n : Int)
    {rest : List Char}
    (hRest : NumberStops rest) :
    readNumeral (writeInt plus n ++ rest) =
      (numeralOf plus n, rest) := by
  rcases hRest.plain with ⟨hDigit, hFraction, hExponent⟩
  rcases leadingDigits_toDigits n.natAbs hDigit with
    ⟨hWhole, hAfter⟩
  simp only [readNumeral, readSign_writeInt, hWhole, hAfter,
    hFraction, hExponent, numeralOf]

theorem readToken_digit
    {c : Char}
    (hDigit : isDigit c = true)
    (rest : List Char) :
    readToken c rest = readNumeric (c :: rest) := by
  have hOther :
      isDigit c = true →
        isSpace c = false ∧
          (isNameStart c || c == '\x00') = false :=
    forall_ascii
      (P := fun c =>
        isDigit c = true →
          isSpace c = false ∧
            (isNameStart c || c == '\x00') = false)
      (by decide) (toNat_lt_of_isDigit hDigit)
  rcases hOther hDigit with ⟨hSpace, hName⟩
  simp [readToken, hSpace, hName, hDigit]

/- A token that starts like a written integer is a number. -/
theorem exists_readToken_writeInt
    (plus : Bool)
    (n : Int)
    (rest : List Char) :
    ∃ c tail,
      writeInt plus n ++ rest = c :: (tail ++ rest) ∧
        readToken c (tail ++ rest) =
          readNumeric (writeInt plus n ++ rest) := by
  rcases exists_toDigits n.natAbs with ⟨d, tail, hText, hDigit⟩
  have hStarts : startsUnsigned (d :: (tail ++ rest)) = true := by
    unfold startsUnsigned
    split
    · rename_i hPoint
      rw [(List.cons.inj hPoint).1] at hDigit
      exact absurd hDigit (by decide)
    · exact hDigit
  by_cases hNegative : n < 0
  · refine ⟨'-', d :: tail, by simp [writeInt, hNegative, hText], ?_⟩
    have hToken :
        readToken '-' (d :: (tail ++ rest)) =
          readMinus (d :: (tail ++ rest)) :=
      rfl
    rw [List.cons_append, hToken, readMinus.eq_def,
      if_pos hStarts]
    simp [writeInt, hNegative, hText]
  · cases plus with
    | true =>
        refine
          ⟨'+', d :: tail, by simp [writeInt, hNegative, hText], ?_⟩
        have hToken :
            readToken '+' (d :: (tail ++ rest)) =
              if startsUnsigned (d :: (tail ++ rest)) then
                readNumeric ('+' :: d :: (tail ++ rest))
              else (.delim '+', d :: (tail ++ rest)) :=
          rfl
        rw [List.cons_append, hToken, if_pos hStarts]
        simp [writeInt, hNegative, hText]
    | false =>
        refine ⟨d, tail, by simp [writeInt, hNegative, hText], ?_⟩
        rw [readToken_digit hDigit]
        simp [writeInt, hNegative, hText]

/- A written integer before a parenthesis is a number. -/
theorem reads_number
    (plus : Bool)
    (n : Int)
    (rest : List Char) :
    Reads (writeInt plus n ++ ')' :: rest)
      (.number (numeralOf plus n)) (')' :: rest) := by
  rcases exists_readToken_writeInt plus n (')' :: rest) with
    ⟨c, tail, hText, hToken⟩
  have hStops : NumberStops (')' :: rest) := by
    intro d hFirst
    cases hFirst
    exact Or.inl rfl
  refine ⟨c, _, hText, ?_, by simp⟩
  rw [hToken, readNumeric, readNumeral_writeInt plus n hStops]
  rfl

------------------------------------------------------------
-- Coefficients
------------------------------------------------------------

/- The unit of a first coefficient, with a negative second. -/
def unitText
    (b : Int) : List Char :=
  'n' :: if b < 0 then writeInt false b else []

theorem isNameChar_writeInt
    {b : Int}
    (hNegative : b < 0) :
    ∀ c ∈ writeInt false b, isNameChar c = true := by
  intro c hMem
  simp only [writeInt, if_pos hNegative, List.mem_append,
    List.mem_singleton] at hMem
  rcases hMem with rfl | hDigit
  · decide
  · simp [isNameChar, isDigit_toDigits _ c hDigit]

theorem isNameChar_unitText
    (b : Int) :
    ∀ c ∈ unitText b, isNameChar c = true := by
  intro c hMem
  rcases List.mem_cons.mp hMem with rfl | hLater
  · decide
  · split at hLater
    · rename_i hNegative
      exact isNameChar_writeInt hNegative c hLater
    · exact absurd hLater (by simp)

/- A written integer before a unit is a dimension. -/
theorem reads_dimension
    (a b : Int)
    {rest : List Char}
    (hRest : NameStops rest) :
    Reads (writeInt false a ++ (unitText b ++ rest))
      (.dimension (numeralOf false a) (String.ofList (unitText b)))
      rest := by
  rcases exists_readToken_writeInt false a (unitText b ++ rest)
    with ⟨c, tail, hText, hToken⟩
  have hStops : NumberStops (unitText b ++ rest) := by
    intro d hFirst
    cases hFirst
    exact Or.inr rfl
  have hRead : readName (unitText b ++ rest) = (unitText b, rest) :=
    (spells_nameChars (isNameChar_unitText b)).readName hRest
  refine ⟨c, _, hText, ?_, by simp; omega⟩
  rw [hToken, readNumeric, readNumeral_writeInt false a hStops]
  have hStarts : startsName (unitText b ++ rest) = true := rfl
  simp only
  split
  · rename_i hPercent
    exact absurd hPercent (by simp [unitText])
  · rw [if_pos hStarts, hRead]

/- The tokens of written coefficients. -/
def nthTokens
    (a b : Int) : List Token :=
  if a = 0 then [.number (numeralOf false b)]
  else
    (if a = 1 then .ident (String.ofList (unitText b))
      else if a = -1 then
        .ident (String.ofList ('-' :: unitText b))
      else
        .dimension (numeralOf false a)
          (String.ofList (unitText b))) ::
      (if 0 < b then [.number (numeralOf true b)] else [])

theorem toList_affineText
    {a : Int}
    (hUnit : a ≠ 0)
    (b : Int) :
    (affineText a b).toList =
      (if a = 1 then [] else if a = -1 then ['-']
        else writeInt false a) ++
        (unitText b ++
          if 0 < b then writeInt true b else []) := by
  have hFront :
      (if a = 1 then "n" else if a = -1 then "-n"
        else integerText a ++ "n").toList =
        (if a = 1 then [] else if a = -1 then ['-']
          else writeInt false a) ++ ['n'] := by
    split
    · rfl
    · split
      · rfl
      · rw [String.toList_append, toList_integerText]
        rfl
  unfold affineText unitText
  rw [if_neg hUnit]
  simp only
  split
  · rename_i hZero
    subst hZero
    simp [hFront]
  · rename_i hSome
    rw [String.toList_append, hFront, toList_signedText]
    by_cases hNegative : b < 0
    · have hOther : ¬ 0 < b := by omega
      simp [hNegative, hOther, writeInt]
    · have hOther : 0 < b := by omega
      simp [hNegative, hOther]

/- The unit of a first coefficient ends before the second. -/
theorem nameStops_second
    (b : Int)
    (rest : List Char) :
    NameStops
        ((if 0 < b then writeInt true b else []) ++ ')' :: rest) ∧
      ((if 0 < b then writeInt true b else []) ++
          ')' :: rest).head? ≠
        some '(' := by
  have hFirst :
      ∃ c,
        ((if 0 < b then writeInt true b else []) ++
            ')' :: rest).head? =
          some c ∧
          (c = '+' ∨ c = ')') := by
    split
    · rename_i hPositive
      have hOther : ¬ b < 0 := by omega
      simp [writeInt, hOther]
    · exact ⟨')', rfl, Or.inr rfl⟩
  rcases hFirst with ⟨c, hHead, hSign⟩
  constructor
  · intro d hMem
    rw [hHead] at hMem
    cases hMem
    rcases hSign with rfl | rfl <;> decide
  · rw [hHead]
    rcases hSign with rfl | rfl <;> decide

/- Written coefficients have their tokens. -/
theorem lexed_affineText
    (a b : Int)
    {rest : List Char}
    {ts : List Token}
    (hRest : Lexed (')' :: rest) ts) :
    Lexed ((affineText a b).toList ++ ')' :: rest)
      (nthTokens a b ++ ts) := by
  by_cases hZero : a = 0
  · subst hZero
    have hText : (affineText 0 b).toList = writeInt false b :=
      toList_integerText b
    rw [hText]
    exact Lexed.cons (reads_number false b rest) hRest
  · have hTail :
        Lexed
          ((if 0 < b then writeInt true b else []) ++ ')' :: rest)
          ((if 0 < b then [.number (numeralOf true b)] else []) ++
            ts) := by
      split
      · exact Lexed.cons (reads_number true b rest) hRest
      · exact hRest
    rcases nameStops_second b rest with ⟨hStops, hParen⟩
    rw [toList_affineText hZero, List.append_assoc,
      List.append_assoc]
    simp only [nthTokens, if_neg hZero, List.cons_append]
    refine Lexed.cons ?_ hTail
    have hSpells := spells_nameChars (isNameChar_unitText b)
    split
    · exact
        reads_ident_of_spells hSpells
          (Opens.letter (by decide)) (by simp [unitText])
          hStops hParen
    · split
      · have hMinus : Spells ['-'] ['-'] :=
          spells_nameChar (by decide)
        exact
          reads_ident_of_spells (hMinus.append hSpells)
            (Opens.minus (Or.inl (by decide))) (by simp)
            hStops hParen
      · exact reads_dimension a b hStops

------------------------------------------------------------
-- Reading coefficients
------------------------------------------------------------

theorem toList_lower
    (s : String) :
    (lower s).toList = s.toList.map Char.toLower :=
  String.toList_ofList

/- Texts with different characters in lower case differ. -/
theorem lower_ne
    {s : List Char}
    {other : String}
    (hOther : s.map Char.toLower ≠ other.toList) :
    lower (String.ofList s) ≠ other := by
  intro hSame
  refine hOther ?_
  rw [← hSame, toList_lower, String.toList_ofList]

theorem dashDigits?_unitText
    {b : Int}
    (hRange : InRange b)
    (hNegative : b < 0) :
    dashDigits? (String.ofList (unitText b)) = some b := by
  obtain ⟨n, rfl⟩ : ∃ n : Nat, b = -(n : Int) :=
    ⟨b.natAbs, by omega⟩
  rcases exists_toDigits n with ⟨d, tail, hText, _⟩
  have hUnit :
      unitText (-(n : Int)) = 'n' :: '-' :: Nat.toDigits 10 n := by
    simp only [unitText, writeInt, if_pos hNegative,
      Int.natAbs_neg, Int.natAbs_natCast, List.cons_append,
      List.nil_append]
  have hAll := isDigit_toDigits n
  have hSome : Nat.toDigits 10 n ≠ [] := by simp [hText]
  have hStops : startsDigit [] = false := rfl
  have hWhole := (leadingDigits_toDigits n hStops).1
  rw [List.append_nil] at hWhole
  simp [dashDigits?, hUnit, hSome, List.all_eq_true.mpr hAll,
    hWhole, ofDigits_digitsOf, saturate_of_inRange hRange]

/- The unit and what follows it give both coefficients. -/
theorem readUnit_unitText
    (a : Int)
    {b : Int}
    (hRange : InRange b)
    (word : String)
    {s : Stream}
    (hTokens :
      s.tokens =
        if 0 < b then [.number (numeralOf true b)] else []) :
    ∃ s',
      readUnit a (String.ofList (unitText b)) word s =
          .ok ((a, b), s') ∧
        s'.tokens = [] := by
  rcases Int.lt_trichotomy b 0 with hNegative | rfl | hPositive
  · have hOther : ¬ 0 < b := by omega
    have hUnit :
        unitText b = 'n' :: '-' :: Nat.toDigits 10 b.natAbs := by
      simp [unitText, writeInt, hNegative]
    have hPlain : lower (String.ofList (unitText b)) ≠ "n" :=
      lower_ne (by simp [hUnit])
    have hDash : lower (String.ofList (unitText b)) ≠ "n-" := by
      rcases exists_toDigits b.natAbs with ⟨d, tail, hText, _⟩
      exact lower_ne (by simp [hUnit, hText])
    rw [if_neg hOther] at hTokens
    refine ⟨s, ?_, hTokens⟩
    simp only [readUnit, if_neg hPlain, if_neg hDash,
      dashDigits?_unitText hRange hNegative]
  · have hPlain : lower (String.ofList (unitText 0)) = "n" := by
      decide
    have hNext := Stream.next?_eq_none hTokens
    refine ⟨s, ?_, hTokens⟩
    simp only [readUnit, if_pos hPlain, readOffset, hNext]
  · have hOther : ¬ b < 0 := by omega
    have hPlain : lower (String.ofList (unitText b)) = "n" := by
      simp only [unitText, if_neg hOther]
      decide
    rw [if_pos hPositive] at hTokens
    rcases
      Stream.next?_of_tokens (s := s) (by rw [hTokens]; rfl) with
      ⟨s', hNext, hRest⟩
    have hSigned : (numeralOf true b).signed = true := rfl
    refine ⟨s', ?_, hRest⟩
    simp only [readUnit, if_pos hPlain, readOffset, hNext,
      hSigned, intValue?_numeralOf hRange]

/- Coefficients are read back from their tokens. -/
theorem readNth_nthTokens
    {a b : Int}
    (hFirst : InRange a)
    (hSecond : InRange b)
    {s : Stream}
    (hTokens : s.tokens = nthTokens a b) :
    ∃ s', readNth s = .ok ((a, b), s') ∧ s'.tokens = [] := by
  unfold nthTokens at hTokens
  split at hTokens
  · rename_i hZero
    rcases
      Stream.next?_of_tokens (s := s) (by rw [hTokens]; rfl) with
      ⟨s', hNext, hRest⟩
    refine ⟨s', ?_, hRest⟩
    simp only [readNth, hNext, intValue?_numeralOf hSecond, hZero]
  · have hHead :
        unitText b = 'n' :: if b < 0 then writeInt false b else [] :=
      rfl
    split at hTokens
    · rename_i hOne
      rcases
        Stream.next?_of_tokens (s := s) (by rw [hTokens]; rfl) with
        ⟨s', hNext, hRest⟩
      have hEven : lower (String.ofList (unitText b)) ≠ "even" :=
        lower_ne (by simp [hHead])
      have hOdd : lower (String.ofList (unitText b)) ≠ "odd" :=
        lower_ne (by simp [hHead])
      have hRead := readUnit_unitText 1 hSecond
          (String.ofList (unitText b)) hRest
      simp only [readNth, hNext, readNthWord, if_neg hEven,
        if_neg hOdd, String.toList_ofList, hOne]
      split
      · rename_i hMinus
        exact absurd hMinus (by simp [hHead])
      · exact hRead
    · split at hTokens
      · rename_i hMinus
        rcases
          Stream.next?_of_tokens (s := s) (by rw [hTokens]; rfl) with
          ⟨s', hNext, hRest⟩
        have hEven :
            lower (String.ofList ('-' :: unitText b)) ≠ "even" :=
          lower_ne (by simp)
        have hOdd :
            lower (String.ofList ('-' :: unitText b)) ≠ "odd" :=
          lower_ne (by simp)
        have hRead :=
          readUnit_unitText (-1) hSecond
            (String.ofList ('-' :: unitText b)) hRest
        simp only [readNth, hNext, readNthWord, if_neg hEven,
          if_neg hOdd, String.toList_ofList, hMinus]
        exact hRead
      · rcases
          Stream.next?_of_tokens (s := s) (by rw [hTokens]; rfl) with
          ⟨s', hNext, hRest⟩
        have hRead :=
          readUnit_unitText a hSecond
            (String.ofList (unitText b)) hRest
        simp only [readNth, hNext, intValue?_numeralOf hFirst]
        exact hRead

------------------------------------------------------------
-- Ranges of coefficients
------------------------------------------------------------

theorem inRange_saturate
    (n : Int) :
    InRange (Numeral.saturate n) := by
  unfold InRange Numeral.saturate
  omega

theorem inRange_intValue?
    {n : Numeral}
    {i : Int}
    (hValue : n.intValue? = some i) :
    InRange i := by
  unfold Numeral.intValue? at hValue
  split at hValue
  · simp only [Option.some.injEq] at hValue
    rw [← hValue]
    exact inRange_saturate _
  · exact absurd hValue (by simp)

theorem intValue?_nonneg
    {n : Numeral}
    (hPositive : n.negative = false)
    {i : Int}
    (hValue : n.intValue? = some i) :
    0 ≤ i := by
  unfold Numeral.intValue? at hValue
  split at hValue
  · simp only [hPositive, Bool.false_eq_true, if_false,
      Option.some.injEq] at hValue
    rw [← hValue]
    unfold Numeral.saturate
    omega
  · exact absurd hValue (by simp)

/- Two coefficients in range, and sound tokens after them. -/
def SoundRead
    (r : (Int × Int) × Stream) : Prop :=
  InRange r.1.1 ∧ InRange r.1.2 ∧ r.2.Sound

theorem soundRead_readUnsigned
    {a sign : Int}
    (hFirst : InRange a)
    (hSign : sign = 1 ∨ sign = -1)
    {s : Stream}
    (hSound : s.Sound)
    {r : (Int × Int) × Stream}
    (hRead : readUnsigned a sign s = .ok r) :
    SoundRead r := by
  unfold readUnsigned at hRead
  split at hRead
  · exact absurd hRead (by simp [failAt])
  · rename_i n s' hNext
    rcases hSound.next? hNext with ⟨hNumber, hAfter⟩
    split at hRead
    · rename_i b hSigned hValue
      cases hRead
      have hNonneg := intValue?_nonneg (hNumber hSigned) hValue
      have hRange := inRange_intValue? hValue
      refine ⟨hFirst, ?_, hAfter⟩
      unfold InRange at hRange ⊢
      rcases hSign with rfl | rfl
      · simp only [Int.one_mul]
        exact hRange
      · simp only
        omega
    · exact absurd hRead (by simp [failAt])
  · exact absurd hRead (by simp [failAt])

theorem soundRead_readOffset
    {a : Int}
    (hFirst : InRange a)
    {s : Stream}
    (hSound : s.Sound)
    {r : (Int × Int) × Stream}
    (hRead : readOffset a s = .ok r) :
    SoundRead r := by
  have hZero : InRange 0 := by decide
  unfold readOffset at hRead
  split at hRead
  · rename_i s' hNext
    exact
      soundRead_readUnsigned hFirst (Or.inl rfl)
        (hSound.next? hNext).2 hRead
  · rename_i s' hNext
    exact
      soundRead_readUnsigned hFirst (Or.inr rfl)
        (hSound.next? hNext).2 hRead
  · rename_i n s' hNext
    split at hRead
    · rename_i b _ hValue
      cases hRead
      exact
        ⟨hFirst, inRange_intValue? hValue,
          (hSound.next? hNext).2⟩
    · cases hRead
      exact ⟨hFirst, hZero, hSound⟩
  · cases hRead
    exact ⟨hFirst, hZero, hSound⟩

theorem inRange_dashDigits?
    {unit : String}
    {b : Int}
    (hDash : dashDigits? unit = some b) :
    InRange b := by
  unfold dashDigits? at hDash
  split at hDash
  · split at hDash
    · simp only [Option.some.injEq] at hDash
      rw [← hDash]
      exact inRange_saturate _
    · exact absurd hDash (by simp)
  · exact absurd hDash (by simp)

theorem soundRead_readUnit
    {a : Int}
    (hFirst : InRange a)
    {unit word : String}
    {s : Stream}
    (hSound : s.Sound)
    {r : (Int × Int) × Stream}
    (hRead : readUnit a unit word s = .ok r) :
    SoundRead r := by
  unfold readUnit at hRead
  split at hRead
  · exact soundRead_readOffset hFirst hSound hRead
  split at hRead
  · exact
      soundRead_readUnsigned hFirst (Or.inr rfl) hSound hRead
  split at hRead
  · rename_i b hDash
    cases hRead
    exact ⟨hFirst, inRange_dashDigits? hDash, hSound⟩
  · exact absurd hRead (by simp [failAt])

/- Coefficients that are read are in range. -/
theorem soundRead_readNth
    {s : Stream}
    (hSound : s.Sound)
    {r : (Int × Int) × Stream}
    (hRead : readNth s = .ok r) :
    SoundRead r := by
  have hZero : InRange 0 := by decide
  have hOne : InRange 1 := by decide
  have hTwo : InRange 2 := by decide
  unfold readNth at hRead
  split at hRead
  · exact absurd hRead (by simp [failAt])
  · rename_i n s' hNext
    split at hRead
    · rename_i b hValue
      cases hRead
      exact
        ⟨hZero, inRange_intValue? hValue,
          (hSound.next? hNext).2⟩
    · exact absurd hRead (by simp [failAt])
  · rename_i n unit s' hNext
    split at hRead
    · rename_i a hValue
      exact
        soundRead_readUnit (inRange_intValue? hValue)
          (hSound.next? hNext).2 hRead
    · exact absurd hRead (by simp [failAt])
  · rename_i word s' hNext
    have hAfter := (hSound.next? hNext).2
    unfold readNthWord at hRead
    split at hRead
    · cases hRead
      exact ⟨hTwo, hZero, hAfter⟩
    split at hRead
    · cases hRead
      exact ⟨hTwo, hOne, hAfter⟩
    split at hRead
    · exact soundRead_readUnit (by decide) hAfter hRead
    · exact soundRead_readUnit hOne hAfter hRead
  · rename_i s' hNext
    have hAfter := (hSound.next? hNext).2
    split at hRead
    · exact absurd hRead (by simp [failAt])
    · rename_i word s'' hNext'
      exact
        soundRead_readUnit hOne (hAfter.nextAny? hNext').2 hRead
    · exact absurd hRead (by simp [failAt])
  · exact absurd hRead (by simp [failAt])

end MarkupMetrics.Selector
