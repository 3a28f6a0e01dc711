import MarkupMetrics.Proofs.Selector.Positions

/-
  This file gives the tokens of a written selector: what the
  lexer finds in the text of a well-formed list is the tokens
  of what is left of the list without needless parts.

  Key definitions include:
    * `Selector.Simple.tokens`
    * `Selector.Complex.tokens`
    * `Selector.listTokens`
    * `Selector.PlainWord`

  Key theorems include:
    * `Selector.renderCompound_eq`
    * `Selector.ListFormed.lexed`
    * `Selector.tokens_renderList`
-/

namespace MarkupMetrics.Selector

open Css Text

------------------------------------------------------------
-- Tokens
------------------------------------------------------------

/- The word behind the colon of a position. -/
def nthWord : NthKind → Bool → String
  | .onlyChild, _ => "only-child"
  | .onlyOfType, _ => "only-of-type"
  | .child, false => "first-child"
  | .lastChild, false => "last-child"
  | .ofType, false => "first-of-type"
  | .lastOfType, false => "last-of-type"
  | .child, true => "nth-child"
  | .lastChild, true => "nth-last-child"
  | .ofType, true => "nth-of-type"
  | .lastOfType, true => "nth-last-of-type"

/- The tokens of a position. -/
def Nth.tokens
    (n : Nth) : List Token :=
  match n.functional with
  | true =>
      .colon :: .function (nthWord n.kind true) ::
        (nthTokens n.a n.b ++ [.closeParenthesis])
  | false => [.colon, .ident (nthWord n.kind false)]

/- The tokens inside the brackets of a test without comparison. -/
def attrTokens
    (anySpace : Bool)
    (name : String) : List Token :=
  (if anySpace then [.delim '*', .delim '|'] else []) ++
    [.ident name]

/- The tokens of a combinator, with the blanks around it. -/
def Combinator.tokens : Combinator → List Token
  | .descendant => [.whiteSpace " "]
  | .child => [.whiteSpace " ", .delim '>', .whiteSpace " "]
  | .nextSibling => [.whiteSpace " ", .delim '+', .whiteSpace " "]
  | .laterSibling => [.whiteSpace " ", .delim '~', .whiteSpace " "]

mutual

/- The tokens of a simple selector. -/
def Simple.tokens : Simple → List Token
  | .anyName => [.delim '*']
  | .noSpace => [.delim '|']
  | .localName name => [.ident name]
  | .id name => [.idHash name]
  | .className name => [.delim '.', .ident name]
  | .attribute test =>
      .squareBracketBlock ::
        (attrTokens test.anySpace test.name ++
          [.closeSquareBracket])
  | .nth test => test.tokens
  | .root => [.colon, .ident "root"]
  | .empty => [.colon, .ident "empty"]
  | .scope => [.colon, .ident "scope"]
  | .negation list =>
      .colon :: .function "not" ::
        (listTokens list ++ [.closeParenthesis])
  | .host inner =>
      .colon :: .function "host" ::
        (inner.tokens ++ [.closeParenthesis])

/- The tokens of simple selectors in a row. -/
def partsTokens : List Simple → List Token
  | [] => []
  | s :: rest => s.tokens ++ partsTokens rest

/- The tokens of a complex selector. -/
def Complex.tokens : Complex → List Token
  | .compound parts => partsTokens parts
  | .join left k parts =>
      left.tokens ++ (k.tokens ++ partsTokens parts)

/- The tokens of alternatives. -/
def listTokens : List Complex → List Token
  | [] => []
  | [c] => c.tokens
  | c :: rest =>
      c.tokens ++ .comma :: .whiteSpace " " :: listTokens rest

end

theorem partsTokens_append
    (front rest : List Simple) :
    partsTokens (front ++ rest) =
      partsTokens front ++ partsTokens rest := by
  induction front with
  | nil => rfl
  | cons s front ih =>
      simp only [List.cons_append, partsTokens, ih,
        List.append_assoc]

------------------------------------------------------------
-- Signs
------------------------------------------------------------

/- A text does not go on with a blank. -/
def Solid
    (text : List Char) : Prop :=
  ∀ c ∈ text.head?, isSpace c = false

/- An identifier starts with neither blank, digit nor equals. -/
theorem Opens.first
    {text : List Char}
    (hOpens : Opens text) :
    ∀ c ∈ text.head?,
      isSpace c = false ∧ isDigit c = false ∧ c ≠ '=' := by
  intro c hFirst
  cases hOpens with
  | letter hStart =>
      cases hFirst
      refine
        ⟨isSpace_eq_false_of_isNameStart hStart,
          isDigit_eq_false_of_isNameStart hStart, ?_⟩
      rintro rfl
      exact absurd hStart (by decide)
  | escape _ =>
      cases hFirst
      decide
  | minus _ =>
      cases hFirst
      decide
  | minuses _ =>
      cases hFirst
      decide

theorem reads_blank
    {rest : List Char}
    (hSolid : Solid rest) :
    Reads (' ' :: rest) (.whiteSpace " ") rest := by
  have hToken :
      readToken ' ' rest =
        (.whiteSpace
            (String.ofList (' ' :: rest.takeWhile isSpace)),
          rest.dropWhile isSpace) :=
    rfl
  have hNone :
      rest.takeWhile isSpace = [] ∧
        rest.dropWhile isSpace = rest := by
    cases rest with
    | nil => exact ⟨rfl, rfl⟩
    | cons c rest =>
        have hSign : isSpace c = false := hSolid c rfl
        simp [hSign]
  refine ⟨' ', rest, rfl, ?_, Nat.le_refl _⟩
  rw [hToken, hNone.1, hNone.2]

/- A star or a bar, if no equals sign follows. -/
theorem reads_mark
    {c : Char}
    (hMark : c = '*' ∨ c = '|')
    {rest : List Char}
    (hRest : rest.head? ≠ some '=') :
    Reads (c :: rest) (.delim c) rest := by
  refine ⟨c, rest, rfl, ?_, Nat.le_refl _⟩
  cases rest with
  | nil => rcases hMark with rfl | rfl <;> rfl
  | cons d rest =>
      have hOther : d ≠ '=' := by
        rintro rfl
        exact hRest rfl
      rcases hMark with rfl | rfl <;>
      · unfold readToken
        simp [isSpace, isNewline, isNameStart, isLetter, isDigit,
          hOther]

theorem reads_point
    {rest : List Char}
    (hRest : startsDigit rest = false) :
    Reads ('.' :: rest) (.delim '.') rest := by
  have hToken :
      readToken '.' rest =
        if startsDigit rest then readNumeric ('.' :: rest)
        else (.delim '.', rest) :=
    rfl
  exact ⟨'.', rest, rfl, by simp [hToken, hRest], Nat.le_refl _⟩

/- Signs that are tokens of their own before a blank. -/
theorem reads_sign
    {c : Char}
    (hSign : c = '>' ∨ c = '+' ∨ c = '~')
    (rest : List Char) :
    Reads (c :: ' ' :: rest) (.delim c) (' ' :: rest) := by
  refine ⟨c, ' ' :: rest, rfl, ?_, Nat.le_refl _⟩
  rcases hSign with rfl | rfl | rfl <;> rfl

------------------------------------------------------------
-- Words
------------------------------------------------------------

/- A word that is written as it is and starts no address. -/
def PlainWord
    (word : String) : Prop :=
  word.toList.head?.any isNameStart = true ∧
    word.toList.all isNameChar = true ∧
    word.toList.map Char.toLower ≠ ['u', 'r', 'l']

instance
    (word : String) :
    Decidable (PlainWord word) :=
  inferInstanceAs (Decidable (_ ∧ _ ∧ _))

theorem PlainWord.spelled
    {word : String}
    (hWord : PlainWord word) :
    ∃ c tail,
      word.toList = c :: tail ∧ isNameStart c = true ∧
        ∀ d ∈ c :: tail, isNameChar d = true := by
  rcases hWord with ⟨hStart, hChars, _⟩
  cases hText : word.toList with
  | nil => simp [hText] at hStart
  | cons c tail =>
      rw [hText] at hStart hChars
      exact ⟨c, tail, rfl, hStart, List.all_eq_true.mp hChars⟩

/- A colon and a word. -/
theorem lexed_pseudo
    {word : String}
    (hWord : PlainWord word)
    {rest : List Char}
    {ts : List Token}
    (hBreaks : Breaks rest)
    (hRest : Lexed rest ts) :
    Lexed (':' :: (word.toList ++ rest))
      (.colon :: .ident word :: ts) := by
  rcases hWord.spelled with ⟨c, tail, hText, hStart, hChars⟩
  have hReads :=
    reads_ident_of_spells (spells_nameChars hChars)
      (Opens.letter hStart) (List.cons_ne_nil c tail)
      hBreaks.nameStops (hBreaks.head?_ne (by decide))
  rw [← hText, String.ofList_toList] at hReads
  exact
    Lexed.cons ⟨':', _, rfl, rfl, Nat.le_refl _⟩
      (Lexed.cons hReads hRest)

/- A colon, a word and a parenthesis. -/
theorem lexed_function
    {word : String}
    (hWord : PlainWord word)
    {rest : List Char}
    {ts : List Token}
    (hRest : Lexed rest ts) :
    Lexed (':' :: (word.toList ++ '(' :: rest))
      (.colon :: .function word :: ts) := by
  rcases hWord.spelled with ⟨c, tail, hText, hStart, hChars⟩
  have hTail : ∀ d ∈ tail, isNameChar d = true :=
    fun d hMem => hChars d (List.mem_cons_of_mem c hMem)
  have hReads :=
    reads_function hStart hTail (by rw [← hText]; exact hWord.2.2)
      rest
  rw [← hText, String.ofList_toList] at hReads
  refine
    Lexed.cons ⟨':', _, rfl, rfl, Nat.le_refl _⟩
      (Lexed.cons ?_ hRest)
  rw [hText]
  exact hReads

theorem plainWord_nthWord
    (kind : NthKind)
    (functional : Bool) :
    PlainWord (nthWord kind functional) := by
  cases kind <;> cases functional <;> decide

------------------------------------------------------------
-- Simple selectors
------------------------------------------------------------

/- A parenthesis ends what is inside a function. -/
theorem lexed_close
    {rest : List Char}
    {ts : List Token}
    (hRest : Lexed rest ts) :
    Lexed (')' :: rest) (.closeParenthesis :: ts) :=
  Lexed.cons ⟨')', rest, rfl, rfl, Nat.le_refl _⟩ hRest

theorem Nth.Formed.render
    {n : Nth}
    (hFormed : n.Formed) :
    n.render.toList =
      ':' :: ((nthWord n.kind n.functional).toList ++
        if n.functional then
          '(' :: ((affineText n.a n.b).toList ++ [')'])
        else []) := by
  rcases n with ⟨kind, functional, a, b⟩
  cases functional with
  | false => cases kind <;> simp [Nth.render, nthWord]
  | true =>
      rcases hFormed with ⟨hChild, hType, _⟩
      cases kind with
      | onlyChild => exact absurd rfl hChild
      | onlyOfType => exact absurd rfl hType
      | _ => simp [Nth.render, nthWord]

/- A written position has its tokens. -/
theorem Nth.Formed.lexed
    {n : Nth}
    (hFormed : n.Formed)
    {rest : List Char}
    {ts : List Token}
    (hBreaks : Breaks rest)
    (hRest : Lexed rest ts) :
    Lexed (n.render.toList ++ rest) (n.tokens ++ ts) := by
  have hWord := plainWord_nthWord n.kind n.functional
  rw [hFormed.render, Nth.tokens]
  cases hFunctional : n.functional with
  | false =>
      rw [hFunctional] at hWord
      simpa using lexed_pseudo hWord hBreaks hRest
  | true =>
      rw [hFunctional] at hWord
      simpa using
        lexed_function hWord
          (lexed_affineText n.a n.b (lexed_close hRest))

theorem toList_identText
    (name : String) :
    (identText name).toList = renderIdent name.toList :=
  String.toList_ofList

/- A test of an attribute has its tokens. -/
theorem lexed_attribute
    (anySpace : Bool)
    {name : String}
    (hName : IsName name)
    {rest : List Char}
    {ts : List Token}
    (hRest : Lexed rest ts) :
    Lexed
      ((Simple.attribute ⟨anySpace, name, none⟩).render.toList ++
        rest)
      ((Simple.attribute ⟨anySpace, name, none⟩).tokens ++ ts) := by
  have hBreaks : Breaks (']' :: rest) := by
    intro c hFirst
    cases hFirst
    decide
  have hClose :
      Lexed (']' :: rest) (.closeSquareBracket :: ts) :=
    Lexed.cons ⟨']', rest, rfl, rfl, Nat.le_refl _⟩ hRest
  have hIdent := Lexed.cons (reads_ident hName hBreaks) hClose
  have hOpens :=
    opens_renderIdent hName (hBreaks.head?_ne (by decide))
  have hEquals :
      (renderIdent name.toList ++ ']' :: rest).head? ≠ some '=' := by
    intro hFirst
    exact (hOpens.first '=' hFirst).2.2 rfl
  have hBody :
      Lexed
        ((if anySpace then ['*', '|'] else []) ++
          (renderIdent name.toList ++ ']' :: rest))
        ((if anySpace then [.delim '*', .delim '|'] else []) ++
          .ident name :: .closeSquareBracket :: ts) := by
    cases anySpace with
    | false => exact hIdent
    | true =>
        exact
          Lexed.cons (reads_mark (Or.inl rfl) (by simp))
            (Lexed.cons (reads_mark (Or.inr rfl) hEquals) hIdent)
  have hWhole :=
    Lexed.cons (t := .squareBracketBlock)
      ⟨'[', _, rfl, rfl, Nat.le_refl _⟩ hBody
  cases anySpace <;>
    simpa [Simple.render, AttrTest.render, Simple.tokens,
      attrTokens, toList_identText] using hWhole

theorem Simple.Formed.first
    {joins : Bool}
    {s : Simple}
    (hFormed : s.Formed joins) :
    ∃ c tail,
      s.render.toList = c :: tail ∧ c ∈ ['.', '#', '[', ':'] := by
  cases hFormed with
  | @id _ name hName =>
      exact
        ⟨'#', (identText name).toList, by simp [Simple.render],
          by decide⟩
  | @className _ name hName =>
      exact
        ⟨'.', (identText name).toList, by simp [Simple.render],
          by decide⟩
  | @attr _ name anySpace hName =>
      exact
        ⟨'[', _,
          by
            simp only [Simple.render, AttrTest.render,
              String.append_assoc, String.toList_append]
            rfl,
          by decide⟩
  | nth hTest =>
      exact
        ⟨':', _, by rw [Simple.render, hTest.render], by decide⟩
  | root =>
      exact
        ⟨':', "root".toList, by simp [Simple.render], by decide⟩
  | empty =>
      exact
        ⟨':', "empty".toList, by simp [Simple.render], by decide⟩
  | scope =>
      exact
        ⟨':', "scope".toList, by simp [Simple.render], by decide⟩
  | @negation _ list hList =>
      exact
        ⟨':', ("not(" ++ (renderList list ++ ")")).toList,
          by simp [Simple.render], by decide⟩
  | @host _ inner hInner =>
      exact
        ⟨':', ("host(" ++ (inner.render ++ ")")).toList,
          by simp [Simple.render], by decide⟩

/- Parts behind a type do not continue its name. -/
theorem PartsFormed.breaks
    {joins : Bool}
    {parts : List Simple}
    (hParts : PartsFormed joins parts)
    {rest : List Char}
    (hBreaks : Breaks rest) :
    Breaks ((renderAll parts).toList ++ rest) := by
  cases hParts with
  | nil => simpa [renderAll] using hBreaks
  | cons hFirst _ =>
      rcases hFirst.first with ⟨c, tail, hText, hSign⟩
      intro d hHead
      simp only [renderAll, String.toList_append, hText,
        List.cons_append, List.head?_cons, Option.mem_def,
        Option.some.injEq] at hHead
      subst hHead
      have hAll :
          ∀ c ∈ ['.', '#', '[', ':'],
            c ∈ ['.', '#', '[', ']', ':', ' ', ',', ')'] :=
        List.all_iff_forall_prop.mp (by decide)
      exact hAll c hSign

/- They do not start with a blank either. -/
theorem PartsFormed.solid
    {joins : Bool}
    {parts : List Simple}
    (hParts : PartsFormed joins parts)
    (hSome : parts ≠ [])
    {rest : List Char} :
    Solid ((renderAll parts).toList ++ rest) := by
  cases hParts with
  | nil => exact absurd rfl hSome
  | cons hFirst _ =>
      rcases hFirst.first with ⟨c, tail, hText, hSign⟩
      intro d hHead
      simp only [renderAll, String.toList_append, hText,
        List.cons_append, List.head?_cons, Option.mem_def,
        Option.some.injEq] at hHead
      subst hHead
      have hAll :
          ∀ c ∈ ['.', '#', '[', ':'], isSpace c = false :=
        List.all_iff_forall_prop.mp (by decide)
      exact hAll c hSign

------------------------------------------------------------
-- Compounds
------------------------------------------------------------

theorem renderAll_append
    (front rest : List Simple) :
    renderAll (front ++ rest) =
      renderAll front ++ renderAll rest := by
  induction front with
  | nil => simp [renderAll]
  | cons s front ih =>
      simp only [List.cons_append, renderAll, ih,
        String.append_assoc]

/- Behind a type there is no universal selector to leave out. -/
theorem PartsFormed.renderNamed_eq
    {joins : Bool}
    {parts : List Simple}
    (hParts : PartsFormed joins parts) :
    renderNamed parts = renderAll parts := by
  induction parts with
  | nil => rw [renderNamed, renderAll]
  | cons part parts ih =>
      cases hParts with
      | cons hFirst hRest =>
          cases hFirst <;>
            simp only [renderNamed, renderAll, ih hRest]

/- A compound is written without a needless universal selector. -/
theorem renderCompound_eq
    {joins : Bool}
    {front rest : List Simple}
    (hFront : Front front)
    (hRest : PartsFormed joins rest) :
    renderCompound (front ++ rest) =
      renderAll (elide (front ++ rest)) := by
  have hNamed := hRest.renderNamed_eq
  cases hFront with
  | nothing =>
      rw [List.nil_append]
      cases hRest with
      | nil => simp [renderCompound, renderNamed, elide, renderAll]
      | cons hFirst hLater =>
          rw [elide_of_ne hFirst.ne_anyName, ← hNamed]
          cases hFirst <;> simp only [renderCompound]
  | any =>
      cases rest with
      | nil =>
          simp [renderCompound, elide, renderAll, Simple.render]
      | cons s rest =>
          simp [renderCompound, elide, renderNamed, hNamed]
  | name hName =>
      simp [renderCompound, renderNamed, elide, renderAll, hNamed]
  | noSpaceAny =>
      simp [renderCompound, elide, renderAll, Simple.render]
  | noSpaceName hName =>
      simp [renderCompound, elide, renderAll, Simple.render]

/- What stands for a type has its tokens. -/
theorem Front.lexed
    {front : List Simple}
    (hFront : Front front)
    {rest : List Char}
    {ts : List Token}
    (hBreaks : Breaks rest)
    (hRest : Lexed rest ts) :
    Lexed ((renderAll front).toList ++ rest)
      (partsTokens front ++ ts) := by
  have hEquals := hBreaks.head?_ne (c := '=') (by decide)
  have hName
      {name : String}
      (hName : IsName name) :
      (renderIdent name.toList ++ rest).head? ≠ some '=' := by
    intro hFirst
    have hOpens :=
      opens_renderIdent hName
        (hBreaks.head?_ne (c := '>') (by decide))
    exact (hOpens.first '=' hFirst).2.2 rfl
  cases hFront with
  | nothing => simpa [renderAll, partsTokens] using hRest
  | any =>
      simpa [renderAll, Simple.render, partsTokens, Simple.tokens]
        using Lexed.cons (reads_mark (Or.inl rfl) hEquals) hRest
  | name hIdent =>
      simpa [renderAll, Simple.render, partsTokens, Simple.tokens,
        toList_identText] using
        Lexed.cons (reads_ident hIdent hBreaks) hRest
  | noSpaceAny =>
      simpa [renderAll, Simple.render, partsTokens, Simple.tokens]
        using
        Lexed.cons (reads_mark (Or.inr rfl) (by simp))
          (Lexed.cons (reads_mark (Or.inl rfl) hEquals) hRest)
  | noSpaceName hIdent =>
      simpa [renderAll, Simple.render, partsTokens, Simple.tokens,
        toList_identText] using
        Lexed.cons (reads_mark (Or.inr rfl) (hName hIdent))
          (Lexed.cons (reads_ident hIdent hBreaks) hRest)

/- A written compound does not start with a blank. -/
theorem solid_renderCompound
    {joins : Bool}
    {front rest : List Simple}
    (hFront : Front front)
    (hRest : PartsFormed joins rest)
    (hSome : front ++ rest ≠ [])
    {after : List Char}
    (hBreaks : Breaks after) :
    Solid ((renderCompound (front ++ rest)).toList ++ after) := by
  rcases elide_of_front hFront hRest with
    ⟨front', hFront', hElide, _⟩
  have hSome' : front' ++ rest ≠ [] := by
    rw [← hElide]
    exact elide_ne_nil hSome
  have hAfter := hRest.breaks hBreaks
  rw [renderCompound_eq hFront hRest, hElide, renderAll_append,
    String.toList_append, List.append_assoc]
  cases hFront' with
  | nothing =>
      rw [renderAll, String.toList_empty, List.nil_append]
      exact hRest.solid hSome'
  | any =>
      intro c hFirst
      have hStar : c = '*' := by
        simpa [renderAll, Simple.render] using hFirst.symm
      rw [hStar]
      decide
  | name hName =>
      intro c hFirst
      have hOpens :=
        opens_renderIdent hName (hAfter.head?_ne (by decide))
      refine (hOpens.first c ?_).1
      simpa [renderAll, Simple.render, toList_identText] using
        hFirst
  | noSpaceAny =>
      intro c hFirst
      have hBar : c = '|' := by
        simpa [renderAll, Simple.render] using hFirst.symm
      rw [hBar]
      decide
  | noSpaceName _ =>
      intro c hFirst
      have hBar : c = '|' := by
        simpa [renderAll, Simple.render] using hFirst.symm
      rw [hBar]
      decide

/-
  A compound has the tokens of what is left of it, if its
  parts behind the type have theirs.
-/
theorem lexed_compound
    {joins : Bool}
    {front rest : List Simple}
    (hFront : Front front)
    (hRest : PartsFormed joins rest)
    {after : List Char}
    {ts : List Token}
    (hBreaks : Breaks after)
    (hParts :
      Lexed ((renderAll rest).toList ++ after)
        (partsTokens (bareParts rest) ++ ts)) :
    Lexed ((renderCompound (front ++ rest)).toList ++ after)
      (partsTokens (elide (bareParts (front ++ rest))) ++ ts) := by
  rcases elide_of_front hFront hRest with
    ⟨front', hFront', hElide, _⟩
  have hLexed := hFront'.lexed (hRest.breaks hBreaks) hParts
  rw [renderCompound_eq hFront hRest, elide_bareParts, hElide,
    bareParts_append, bareParts_of_front hFront',
    renderAll_append, partsTokens_append, String.toList_append,
    List.append_assoc, List.append_assoc]
  exact hLexed

/- A combinator has its tokens, if a compound follows. -/
theorem Combinator.lexed
    (k : Combinator)
    {rest : List Char}
    {ts : List Token}
    (hSolid : Solid rest)
    (hRest : Lexed rest ts) :
    Lexed (k.render.toList ++ rest) (k.tokens ++ ts) := by
  have hBlank := Lexed.cons (reads_blank hSolid) hRest
  have hSigned
      {c : Char}
      (hSign : c = '>' ∨ c = '+' ∨ c = '~') :
      Lexed (' ' :: c :: ' ' :: rest)
        (.whiteSpace " " :: .delim c :: .whiteSpace " " :: ts) := by
    refine
      Lexed.cons (reads_blank ?_)
        (Lexed.cons (reads_sign hSign rest) hBlank)
    intro d hFirst
    cases hFirst
    rcases hSign with rfl | rfl | rfl <;> decide
  cases k with
  | descendant =>
      simpa [Combinator.render, Combinator.tokens] using hBlank
  | child =>
      simpa [Combinator.render, Combinator.tokens] using
        hSigned (Or.inl rfl)
  | nextSibling =>
      simpa [Combinator.render, Combinator.tokens] using
        hSigned (Or.inr (Or.inl rfl))
  | laterSibling =>
      simpa [Combinator.render, Combinator.tokens] using
        hSigned (Or.inr (Or.inr rfl))

theorem Combinator.breaks
    (k : Combinator)
    (rest : List Char) :
    Breaks (k.render.toList ++ rest) := by
  intro c hFirst
  have hBlank : c = ' ' := by
    cases k <;>
    · simp only [Combinator.render] at hFirst
      simpa using hFirst.symm
  simp [hBlank]

------------------------------------------------------------
-- Selectors
------------------------------------------------------------

theorem startsDigit_ident
    {name : String}
    (hName : IsName name)
    {rest : List Char}
    (hBreaks : Breaks rest) :
    startsDigit (renderIdent name.toList ++ rest) = false := by
  have hOpens :=
    opens_renderIdent hName (hBreaks.head?_ne (by decide))
  have hFirst := hOpens.first
  cases hText : renderIdent name.toList ++ rest with
  | nil => rfl
  | cons c text => exact (hFirst c (by rw [hText]; rfl)).2.1

theorem breaks_close
    (rest : List Char) :
    Breaks (')' :: rest) := by
  intro c hFirst
  cases hFirst
  decide

theorem breaks_comma
    (rest : List Char) :
    Breaks (',' :: rest) := by
  intro c hFirst
  cases hFirst
  decide

theorem plainWord_names :
    PlainWord "root" ∧ PlainWord "empty" ∧ PlainWord "scope" ∧
      PlainWord "not" ∧ PlainWord "host" := by
  decide

/- A complex selector does not start with a blank. -/
theorem Complex.Formed.solid
    {joins : Bool}
    {c : Complex}
    (hFormed : c.Formed joins)
    {rest : List Char}
    (hBreaks : Breaks rest) :
    Solid (c.render.toList ++ rest) := by
  cases c with
  | compound parts =>
      cases hFormed with
      | compound hFront hParts hSome =>
          rw [Complex.render]
          exact solid_renderCompound hFront hParts hSome hBreaks
  | join left k parts =>
      cases hFormed with
      | join k hLeft _ _ _ =>
          simp only [Complex.render, String.toList_append,
            List.append_assoc]
          exact hLeft.solid (k.breaks _)

/- A written list does not start with a blank. -/
theorem ListFormed.solid
    {joins : Bool}
    {list : List Complex}
    (hList : ListFormed joins list)
    {rest : List Char}
    (hBreaks : Breaks rest) :
    Solid ((renderList list).toList ++ rest) := by
  cases hList with
  | single hItem =>
      rw [renderList]
      exact hItem.solid hBreaks
  | cons hItem hLater =>
      cases hLater <;>
      · simp only [renderList, String.toList_append,
          List.append_assoc]
        exact hItem.solid (breaks_comma _)

mutual

theorem Simple.Formed.lexed :
    {joins : Bool} → {s : Simple} → s.Formed joins →
      ∀ {rest : List Char} {ts : List Token}, Breaks rest →
        Lexed rest ts →
          Lexed (s.render.toList ++ rest) (s.bare.tokens ++ ts)
  | _, _, .id hName, rest, ts, hBreaks, hRest => by
      simpa [Simple.render, Simple.bare, Simple.tokens,
        toList_identText] using
        Lexed.cons (reads_idHash hName hBreaks) hRest
  | _, _, .className hName, rest, ts, hBreaks, hRest => by
      have hIdent := Lexed.cons (reads_ident hName hBreaks) hRest
      simpa [Simple.render, Simple.bare, Simple.tokens,
        toList_identText] using
        Lexed.cons (reads_point (startsDigit_ident hName hBreaks))
          hIdent
  | _, _, .attr anySpace hName, rest, ts, _, hRest =>
      lexed_attribute anySpace hName hRest
  | _, _, .nth hTest, rest, ts, hBreaks, hRest => by
      simpa [Simple.render, Simple.bare, Simple.tokens] using
        hTest.lexed hBreaks hRest
  | _, _, .root, rest, ts, hBreaks, hRest => by
      simpa [Simple.render, Simple.bare, Simple.tokens] using
        lexed_pseudo plainWord_names.1 hBreaks hRest
  | _, _, .empty, rest, ts, hBreaks, hRest => by
      simpa [Simple.render, Simple.bare, Simple.tokens] using
        lexed_pseudo plainWord_names.2.1 hBreaks hRest
  | _, _, .scope, rest, ts, hBreaks, hRest => by
      simpa [Simple.render, Simple.bare, Simple.tokens] using
        lexed_pseudo plainWord_names.2.2.1 hBreaks hRest
  | _, _, .negation hList, rest, ts, _, hRest => by
      have hInner :=
        hList.lexed (breaks_close rest) (lexed_close hRest)
      simpa [Simple.render, Simple.bare, Simple.tokens] using
        lexed_function plainWord_names.2.2.2.1 hInner
  | _, _, .host hComplex, rest, ts, _, hRest => by
      have hInner :=
        hComplex.lexed (breaks_close rest) (lexed_close hRest)
      simpa [Simple.render, Simple.bare, Simple.tokens] using
        lexed_function plainWord_names.2.2.2.2 hInner

theorem PartsFormed.lexed :
    {joins : Bool} → {parts : List Simple} →
      PartsFormed joins parts →
        ∀ {rest : List Char} {ts : List Token}, Breaks rest →
          Lexed rest ts →
            Lexed ((renderAll parts).toList ++ rest)
              (partsTokens (bareParts parts) ++ ts)
  | _, _, .nil, rest, ts, _, hRest => by
      simpa [renderAll, bareParts, partsTokens] using hRest
  | _, _, .cons hFirst hLater, rest, ts, hBreaks, hRest => by
      have hTail := hLater.lexed hBreaks hRest
      have hWhole := hFirst.lexed (hLater.breaks hBreaks) hTail
      simpa [renderAll, bareParts, partsTokens] using hWhole

theorem Complex.Formed.lexed :
    {joins : Bool} → {c : Complex} → c.Formed joins →
      ∀ {rest : List Char} {ts : List Token}, Breaks rest →
        Lexed rest ts →
          Lexed (c.render.toList ++ rest) (c.bare.tokens ++ ts)
  | _, _, .compound hFront hParts _, rest, ts, hBreaks, hRest => by
      have hWhole :=
        lexed_compound hFront hParts hBreaks
          (hParts.lexed hBreaks hRest)
      simpa [Complex.render, Complex.bare, Complex.tokens] using
        hWhole
  | _, _, .join k hLeft hFront hParts hSome, rest, ts, hBreaks,
      hRest => by
      have hLast :=
        lexed_compound hFront hParts hBreaks
          (hParts.lexed hBreaks hRest)
      have hJoined :=
        k.lexed
          (solid_renderCompound hFront hParts hSome hBreaks) hLast
      have hWhole := hLeft.lexed (k.breaks _) hJoined
      simpa [Complex.render, Complex.bare, Complex.tokens] using
        hWhole

/- A written list has the tokens of what is left of it. -/
theorem ListFormed.lexed :
    {joins : Bool} → {list : List Complex} →
      ListFormed joins list →
        ∀ {rest : List Char} {ts : List Token}, Breaks rest →
          Lexed rest ts →
            Lexed ((renderList list).toList ++ rest)
              (listTokens (bareList list) ++ ts)
  | _, _, .single hItem, rest, ts, hBreaks, hRest => by
      simpa [renderList, bareList, listTokens] using
        hItem.lexed hBreaks hRest
  | _, _, .cons hItem hLater, rest, ts, hBreaks, hRest => by
      have hTail :=
        Lexed.cons (reads_blank (hLater.solid hBreaks))
          (hLater.lexed hBreaks hRest)
      have hComma :=
        Lexed.cons (t := .comma)
          ⟨',', _, rfl, rfl, Nat.le_refl _⟩ hTail
      have hWhole := hItem.lexed (breaks_comma _) hComma
      cases hLater <;>
        simpa [renderList, bareList, listTokens] using hWhole

end

/- These are the tokens the lexer finds in a written list. -/
theorem tokens_renderList
    {joins : Bool}
    {list : List Complex}
    (hList : ListFormed joins list) :
    (Stream.ofText (renderList list)).tokens =
      listTokens (bareList list) := by
  have hBreaks : Breaks [] := by simp [Breaks]
  have hLexed := hList.lexed hBreaks Lexed.nil
  rw [List.append_nil, List.append_nil] at hLexed
  exact hLexed.tokens_ofText

end MarkupMetrics.Selector
