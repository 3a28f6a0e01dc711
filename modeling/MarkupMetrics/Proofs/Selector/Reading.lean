import MarkupMetrics.Proofs.Selector.Printing

/-
  This file shows that a well-formed list of selectors is
  read back from its tokens.

  The lemmas follow the readers.  Each takes the tokens a
  reader finds and gives what it reads together with the
  tokens after it; a bound on the fuel goes along, as eight
  steps for every token that is left and a few more.

  Key definitions include:
    * `Selector.Outer`
    * `Selector.Behind`
    * `Selector.Leads`

  Key theorems include:
    * `Selector.Complex.Formed.read`
    * `Selector.ListFormed.read`
    * `Selector.parse_renderList`
-/

namespace MarkupMetrics.Selector

open Css Text

------------------------------------------------------------
-- Blocks
------------------------------------------------------------

/- A search that stops at commas and closing tokens at most. -/
def Outer
    (stop : Token → Bool) : Prop :=
  ∀ t, stop t = true → t = .comma ∨ t.isCloser = true

theorem Outer.plain
    {stop : Token → Bool}
    (hOuter : Outer stop)
    {t : Token}
    {ts : List Token}
    (hComma : t ≠ .comma)
    (hOpen : t.closer? = none)
    (hClose : t.isCloser = false)
    (hRest : Balanced stop ts) :
    Balanced stop (t :: ts) := by
  refine Balanced.plain ?_ hOpen hClose hRest
  cases hStop : stop t with
  | false => rfl
  | true =>
      rcases hOuter t hStop with hSame | hCloser
      · exact absurd hSame hComma
      · rw [hClose] at hCloser
        exact absurd hCloser (by decide)

theorem Outer.block
    {stop : Token → Bool}
    (hOuter : Outer stop)
    {t closer : Token}
    {inner ts : List Token}
    (hOpen : t.closer? = some closer)
    (hInner : Balanced (fun _ => false) inner)
    (hRest : Balanced stop ts) :
    Balanced stop (t :: (inner ++ closer :: ts)) := by
  refine Balanced.block ?_ hOpen hInner hRest
  cases hStop : stop t with
  | false => rfl
  | true =>
      rcases hOuter t hStop with rfl | hCloser
      · exact absurd hOpen (by simp [Token.closer?])
      · cases t <;> simp_all [Token.closer?, Token.isCloser]

theorem outer_never :
    Outer fun _ => false := by
  intro t hStop
  exact absurd hStop (by simp)

theorem outer_comma :
    Outer (· == .comma) := by
  intro t hStop
  exact Or.inl (beq_iff_eq.mp hStop)

theorem outer_closer
    (closer : Token)
    (hCloser : closer.isCloser = true) :
    Outer (· == closer) := by
  intro t hStop
  rw [beq_iff_eq.mp hStop]
  exact Or.inr hCloser

theorem balanced_nthTokens
    (a b : Int) :
    ∀ {stop : Token → Bool},
      Outer stop → Balanced stop (nthTokens a b) := by
  intro stop hOuter
  have hTail :
      Balanced stop
        (if 0 < b then [.number (numeralOf true b)] else []) := by
    split
    · exact hOuter.plain (by simp) rfl rfl .nil
    · exact .nil
  unfold nthTokens
  split
  · exact hOuter.plain (by simp) rfl rfl .nil
  · split
    · exact hOuter.plain (by simp) rfl rfl hTail
    · split
      · exact hOuter.plain (by simp) rfl rfl hTail
      · exact hOuter.plain (by simp) rfl rfl hTail

theorem balanced_attrTokens
    (anySpace : Bool)
    (name : String)
    {stop : Token → Bool}
    (hOuter : Outer stop) :
    Balanced stop (attrTokens anySpace name) := by
  have hName : Balanced stop [.ident name] :=
    hOuter.plain (by simp) rfl rfl .nil
  cases anySpace with
  | false => exact hName
  | true =>
      exact
        hOuter.plain (by simp) rfl rfl
          (hOuter.plain (by simp) rfl rfl hName)

theorem Front.balanced
    {front : List Simple}
    (hFront : Front front)
    {stop : Token → Bool}
    (hOuter : Outer stop) :
    Balanced stop (partsTokens front) := by
  cases hFront with
  | nothing => exact .nil
  | any => exact hOuter.plain (by simp) rfl rfl .nil
  | name _ => exact hOuter.plain (by simp) rfl rfl .nil
  | noSpaceAny =>
      exact
        hOuter.plain (by simp) rfl rfl
          (hOuter.plain (by simp) rfl rfl .nil)
  | noSpaceName _ =>
      exact
        hOuter.plain (by simp) rfl rfl
          (hOuter.plain (by simp) rfl rfl .nil)

theorem Combinator.balanced
    (k : Combinator)
    {stop : Token → Bool}
    (hOuter : Outer stop) :
    Balanced stop k.tokens := by
  have hBlank : Balanced stop [.whiteSpace " "] :=
    hOuter.plain (by simp) rfl rfl .nil
  cases k with
  | descendant => exact hBlank
  | child | nextSibling | laterSibling =>
      exact
        hOuter.plain (by simp) rfl rfl
          (hOuter.plain (by simp) rfl rfl hBlank)

mutual

theorem Simple.Formed.balanced :
    {joins : Bool} → {s : Simple} → s.Formed joins →
      ∀ {stop : Token → Bool}, Outer stop → Balanced stop s.tokens
  | _, _, .id _, _, hOuter => hOuter.plain (by simp) rfl rfl .nil
  | _, _, .className _, _, hOuter =>
      hOuter.plain (by simp) rfl rfl
        (hOuter.plain (by simp) rfl rfl .nil)
  | _, _, .attr anySpace _, _, hOuter =>
      hOuter.block rfl
        (balanced_attrTokens anySpace _ outer_never) .nil
  | _, _, @Simple.Formed.nth _ ⟨kind, functional, a, b⟩ _, _, hOuter => by
      cases functional with
      | true =>
          exact
            hOuter.plain (t := .colon) (by simp) rfl rfl
              (hOuter.block rfl
                (balanced_nthTokens a b outer_never) .nil)
      | false =>
          exact
            hOuter.plain (t := .colon) (by simp) rfl rfl
              (hOuter.plain (by simp) rfl rfl .nil)
  | _, _, .root, _, hOuter =>
      hOuter.plain (by simp) rfl rfl
        (hOuter.plain (by simp) rfl rfl .nil)
  | _, _, .empty, _, hOuter =>
      hOuter.plain (by simp) rfl rfl
        (hOuter.plain (by simp) rfl rfl .nil)
  | _, _, .scope, _, hOuter =>
      hOuter.plain (by simp) rfl rfl
        (hOuter.plain (by simp) rfl rfl .nil)
  | _, _, .negation hList, _, hOuter =>
      hOuter.plain (by simp) rfl rfl
        (hOuter.block rfl (hList.balanced (by simp)) .nil)
  | _, _, .host hInner, _, hOuter =>
      hOuter.plain (by simp) rfl rfl
        (hOuter.block rfl (hInner.balanced outer_never) .nil)

theorem PartsFormed.balanced :
    {joins : Bool} → {parts : List Simple} →
      PartsFormed joins parts →
        ∀ {stop : Token → Bool}, Outer stop →
          Balanced stop (partsTokens parts)
  | _, _, .nil, _, _ => .nil
  | _, _, .cons hFirst hRest, _, hOuter =>
      (hFirst.balanced hOuter).append (hRest.balanced hOuter)

theorem Complex.Formed.balanced :
    {joins : Bool} → {c : Complex} → c.Formed joins →
      ∀ {stop : Token → Bool}, Outer stop → Balanced stop c.tokens
  | _, _, .compound hFront hRest _, _, hOuter => by
      rw [Complex.tokens, partsTokens_append]
      exact
        (hFront.balanced hOuter).append (hRest.balanced hOuter)
  | _, _, .join k hLeft hFront hRest _, _, hOuter => by
      rw [Complex.tokens, partsTokens_append]
      exact
        (hLeft.balanced hOuter).append
          ((k.balanced hOuter).append
            ((hFront.balanced hOuter).append
              (hRest.balanced hOuter)))

/- Commas between alternatives are no reason to stop. -/
theorem ListFormed.balanced :
    {joins : Bool} → {list : List Complex} →
      ListFormed joins list →
        ∀ {stop : Token → Bool},
          (∀ t, stop t = true → t.isCloser = true) →
            Balanced stop (listTokens list)
  | _, _, .single hItem, _, hStop =>
      hItem.balanced fun t hHere => Or.inr (hStop t hHere)
  | _, _, .cons hItem hRest, stop, hStop => by
      have hOuter : Outer stop :=
        fun t hHere => Or.inr (hStop t hHere)
      have hComma : stop .comma = false := by
        cases hHere : stop .comma with
        | false => rfl
        | true => exact absurd (hStop _ hHere) (by decide)
      have hLater := hRest.balanced hStop
      have hWhole :=
        (hItem.balanced hOuter).append
          (Balanced.plain hComma rfl rfl
            (hOuter.plain (t := .whiteSpace " ") (by simp) rfl rfl
              hLater))
      cases hRest <;> exact hWhole

end

------------------------------------------------------------
-- Types
------------------------------------------------------------

/- The tokens behind a type do not continue it. -/
def Behind
    (rest : List Token) : Prop :=
  ∀ t ∈ rest.head?,
    (∃ name, t = .idHash name) ∨ t = .delim '.' ∨
      t = .squareBracketBlock ∨ t = .colon ∨
        ∃ text, t = .whiteSpace text

/- Compounds end before a blank, or with the stream. -/
def Stops
    (rest : List Token) : Prop :=
  ∀ t ∈ rest.head?, ∃ text, t = .whiteSpace text

theorem stops_nil :
    Stops [] := by
  simp [Stops]

theorem Stops.behind
    {rest : List Token}
    (hStops : Stops rest) :
    Behind rest :=
  fun t hFirst =>
    Or.inr (Or.inr (Or.inr (Or.inr (hStops t hFirst))))

/- A simple selector behind a type starts with one of four signs. -/
theorem Simple.Formed.firstToken
    {joins : Bool}
    {s : Simple}
    (hFormed : s.Formed joins) :
    ∃ t ts,
      s.tokens = t :: ts ∧
        ((∃ name, t = .idHash name) ∨ t = .delim '.' ∨
          t = .squareBracketBlock ∨ t = .colon) := by
  cases hFormed with
  | @nth _ test _ =>
      rcases test with ⟨kind, functional, a, b⟩
      cases functional <;> exact ⟨_, _, rfl, by simp⟩
  | _ => exact ⟨_, _, rfl, by simp⟩

theorem PartsFormed.behind
    {joins : Bool}
    {parts : List Simple}
    (hParts : PartsFormed joins parts)
    {rest : List Token}
    (hRest : Behind rest) :
    Behind (partsTokens parts ++ rest) := by
  cases hParts with
  | nil => exact hRest
  | cons hFirst _ =>
      rcases hFirst.firstToken with ⟨t, ts, hTokens, hSign⟩
      intro u hHead
      simp only [partsTokens, hTokens, List.cons_append,
        List.head?_cons, Option.mem_def, Option.some.injEq] at hHead
      subst hHead
      rcases hSign with hId | hPoint | hOpen | hColon
      · exact Or.inl hId
      · exact Or.inr (Or.inl hPoint)
      · exact Or.inr (Or.inr (Or.inl hOpen))
      · exact Or.inr (Or.inr (Or.inr (Or.inl hColon)))

/- What is next behind a type, if there is something. -/
theorem Behind.nextAny?
    {s : Stream}
    (hBehind : Behind s.tokens) :
    (s.nextAny? = none ∧ s.tokens = []) ∨
      ∃ t s', s.nextAny? = some (t, s') ∧ t ∈ s.tokens.head? := by
  cases hTokens : s.tokens with
  | nil => exact Or.inl ⟨Stream.nextAny?_eq_none hTokens, rfl⟩
  | cons t ts =>
      have hPlain : ∀ text, t ≠ .comment text := by
        intro text hComment
        have hFirst := hBehind t (by rw [hTokens]; rfl)
        simp [hComment] at hFirst
      rcases Stream.nextAny?_of_tokens hTokens hPlain with
        ⟨s', hNext, _⟩
      exact Or.inr ⟨t, s', hNext, rfl⟩

theorem Behind.not_bar
    {s : Stream}
    (hBehind : Behind s.tokens)
    (s' : Stream) :
    s.nextAny? ≠ some (.delim '|', s') := by
  intro hBar
  rcases hBehind.nextAny? with ⟨hNone, _⟩ | ⟨t, s'', hNext, hFirst⟩
  · rw [hNone] at hBar
    exact absurd hBar (by simp)
  · rw [hNext] at hBar
    have hSame : t = .delim '|' := by
      simpa using congrArg (Option.map Prod.fst) hBar
    have hSign := hBehind t hFirst
    simp [hSame] at hSign

/- Without a type the reader takes nothing. -/
theorem readType_nothing
    {s : Stream}
    (hBehind : Behind s.tokens) :
    ∃ s', readType s = .ok ([], s') ∧ s'.tokens = s.tokens := by
  rcases hBehind.nextAny? with ⟨hNone, hTokens⟩ | ⟨t, s', hNext, hFirst⟩
  · refine ⟨s.atEnd, ?_, by rw [hTokens]; rfl⟩
    simp [readType, readQualified, hNone, failAt]
  · refine ⟨s, ?_, rfl⟩
    rcases hBehind t hFirst with
      ⟨name, rfl⟩ | rfl | rfl | rfl | ⟨text, rfl⟩ <;>
      simp [readType, readQualified, hNext]

/- A name after a namespace mark. -/
theorem readLocal_noSpace
    (name : Option String)
    {s : Stream}
    {rest : List Token}
    (hTokens :
      s.tokens =
        (match name with
          | some name => .ident name
          | none => .delim '*') :: rest) :
    ∃ s',
      readLocal false .noSpace s =
          .ok (.name .noSpace name, s') ∧
        s'.tokens = rest := by
  cases name with
  | none =>
      rcases Stream.nextAny?_of_tokens hTokens (by simp) with
        ⟨s', hNext, hRest⟩
      exact ⟨s', by simp [readLocal, hNext], hRest⟩
  | some name =>
      rcases Stream.nextAny?_of_tokens hTokens (by simp) with
        ⟨s', hNext, hRest⟩
      exact ⟨s', by simp [readLocal, hNext], hRest⟩

/- What stands for a type is read back. -/
theorem readType_front
    {front : List Simple}
    (hFront : Front front)
    {s : Stream}
    {rest : List Token}
    (hTokens : s.tokens = partsTokens front ++ rest)
    (hBehind : Behind rest) :
    ∃ s', readType s = .ok (front, s') ∧ s'.tokens = rest := by
  cases hFront with
  | nothing =>
      have hSame : s.tokens = rest := hTokens
      rw [← hSame]
      exact readType_nothing (by rwa [hSame])
  | any =>
      rcases Stream.nextAny?_of_tokens hTokens (by simp) with
        ⟨s', hNext, hRest⟩
      have hBar := Behind.not_bar (s := s') (by rwa [hRest])
      refine ⟨s', ?_, hRest⟩
      have hQualified :
          readQualified false s = .ok (.name .absent none, s') := by
        simp only [readQualified, hNext, Bool.false_eq_true,
          if_false]
      simp [readType, hQualified, typeParts]
  | @name name hName =>
      rcases Stream.nextAny?_of_tokens hTokens (by simp) with
        ⟨s', hNext, hRest⟩
      have hBar := Behind.not_bar (s := s') (by rwa [hRest])
      refine ⟨s', ?_, hRest⟩
      have hQualified :
          readQualified false s =
            .ok (.name .absent (some name), s') := by
        simp only [readQualified, hNext]
      simp [readType, hQualified, typeParts]
  | noSpaceAny =>
      rcases Stream.nextAny?_of_tokens hTokens (by simp) with
        ⟨s', hNext, hRest⟩
      rcases readLocal_noSpace none hRest with
        ⟨s'', hLocal, hLater⟩
      refine ⟨s'', ?_, hLater⟩
      simp [readType, readQualified, hNext, hLocal, typeParts]
  | noSpaceName hName =>
      rcases Stream.nextAny?_of_tokens hTokens (by simp) with
        ⟨s', hNext, hRest⟩
      rcases readLocal_noSpace (some _) hRest with
        ⟨s'', hLocal, hLater⟩
      refine ⟨s'', ?_, hLater⟩
      simp [readType, readQualified, hNext, hLocal, typeParts]

------------------------------------------------------------
-- Attribute tests
------------------------------------------------------------

/- A test without comparison is read back. -/
theorem readAttribute_attrTokens
    (anySpace : Bool)
    (name : String)
    {s : Stream}
    (hTokens : s.tokens = attrTokens anySpace name) :
    ∃ s',
      readAttribute s = .ok (⟨anySpace, name, none⟩, s') ∧
        s'.tokens = [] := by
  have hSkip : s.skipTrivia.tokens = attrTokens anySpace name := by
    rw [Stream.skipTrivia, Stream.tokens_dropWhile, hTokens]
    cases anySpace <;> rfl
  have hQualified :
      ∃ s',
        readQualified true s.skipTrivia =
            .ok
              (.name (if anySpace then .anySpace else .absent)
                (some name),
                s') ∧
          s'.tokens = [] := by
    cases anySpace with
    | false =>
        rcases Stream.nextAny?_of_tokens hSkip (by simp) with
          ⟨s', hNext, hRest⟩
        have hNone := Stream.nextAny?_eq_none hRest
        exact ⟨s', by simp [readQualified, hNext, hNone], hRest⟩
    | true =>
        rcases Stream.nextAny?_of_tokens hSkip (by simp) with
          ⟨s', hStar, hRest⟩
        rcases Stream.nextAny?_of_tokens hRest (by simp) with
          ⟨s'', hBar, hRest'⟩
        rcases Stream.nextAny?_of_tokens hRest' (by simp) with
          ⟨last, hName, hLast⟩
        exact
          ⟨last,
            by simp [readQualified, hStar, hBar, readLocal, hName],
            hLast⟩
  rcases hQualified with ⟨s', hRead, hRest⟩
  have hNone := Stream.next?_eq_none hRest
  refine ⟨s'.atEnd, ?_, rfl⟩
  simp only [readAttribute, hRead, Outcome.ok_bind, hNone]
  cases anySpace <;> rfl

------------------------------------------------------------
-- Combinators
------------------------------------------------------------

/- A compound starts with a token that is no combinator. -/
def Leads
    (ts : List Token) : Prop :=
  ∃ t rest,
    ts = t :: rest ∧ t.isTrivia = false ∧ t ≠ .delim '>' ∧
      t ≠ .delim '+' ∧ t ≠ .delim '~'

theorem Leads.dropWhile
    {ts : List Token}
    (hLeads : Leads ts) :
    ts.dropWhile Token.isTrivia = ts := by
  rcases hLeads with ⟨t, rest, rfl, hTrivia, _⟩
  exact List.dropWhile_cons_of_neg (by simp [hTrivia])

theorem Leads.length_pos
    {ts : List Token}
    (hLeads : Leads ts) :
    1 ≤ ts.length := by
  rcases hLeads with ⟨t, rest, rfl, _⟩
  simp

theorem leads_compound
    {joins : Bool}
    {front rest : List Simple}
    (hFront : Front front)
    (hRest : PartsFormed joins rest)
    (hSome : front ++ rest ≠ [])
    (after : List Token) :
    Leads (partsTokens (front ++ rest) ++ after) := by
  cases hFront with
  | nothing =>
      cases hRest with
      | nil => exact absurd rfl hSome
      | cons hFirst _ =>
          rcases hFirst.firstToken with ⟨t, ts, hTokens, hSign⟩
          refine
            ⟨t, _, by
              simp only [List.nil_append, partsTokens, hTokens,
                List.cons_append]
              rfl, ?_⟩
          rcases hSign with ⟨name, rfl⟩ | rfl | rfl | rfl <;>
            simp [Token.isTrivia]
  | any => exact ⟨_, _, rfl, by simp [Token.isTrivia]⟩
  | name _ => exact ⟨_, _, rfl, by simp [Token.isTrivia]⟩
  | noSpaceAny => exact ⟨_, _, rfl, by simp [Token.isTrivia]⟩
  | noSpaceName _ => exact ⟨_, _, rfl, by simp [Token.isTrivia]⟩

/- A combinator with a sign is read with its blanks. -/
theorem readCombinator_sign
    {c : Char}
    {k : Combinator}
    (hSign :
      c = '>' ∧ k = .child ∨ c = '+' ∧ k = .nextSibling ∨
        c = '~' ∧ k = .laterSibling)
    {s : Stream}
    {ts : List Token}
    (hKeep : ts.dropWhile Token.isTrivia = ts)
    (hTokens :
      s.tokens =
        .whiteSpace " " :: .delim c :: .whiteSpace " " :: ts) :
    ∃ s',
      readCombinator s = (some k, s') ∧
        s'.tokens.dropWhile Token.isTrivia = ts := by
  have hDrop :
      s.tokens.dropWhile Token.isTrivia =
        .delim c :: .whiteSpace " " :: ts := by
    rw [hTokens]
    rfl
  rcases Stream.next?_of_tokens hDrop with ⟨s', hRead, hRest⟩
  refine ⟨s', ?_, ?_⟩
  · rcases hSign with ⟨rfl, rfl⟩ | ⟨rfl, rfl⟩ | ⟨rfl, rfl⟩ <;>
      simp [readCombinator, hRead]
  · rw [hRest]
    exact hKeep

/- Blanks alone are a combinator if a compound follows. -/
theorem readCombinator_blank
    {s : Stream}
    {ts : List Token}
    (hLeads : Leads ts)
    (hTokens : s.tokens = .whiteSpace " " :: ts) :
    ∃ s',
      readCombinator s = (some .descendant, s') ∧
        s'.tokens = ts := by
  have hDrop : s.tokens.dropWhile Token.isTrivia = ts := by
    rw [hTokens]
    exact hLeads.dropWhile
  rcases hLeads with
    ⟨t, rest, rfl, hTrivia, hChild, hNext, hLater⟩
  rcases Stream.next?_of_tokens hDrop with ⟨s', hRead, _⟩
  rcases List.map_eq_cons_iff.mp hTokens with
    ⟨l, ls, hLexemes, hBlank, hTail⟩
  rcases List.map_eq_cons_iff.mp hTail with
    ⟨m, ms, hLexemes', hFirst, hMore⟩
  have hBlanks : afterBlanks? s.lexemes = some ls := by
    have hNone : afterBlanks? ls = none := by
      rw [hLexemes', afterBlanks?, hFirst]
      cases t <;> simp_all [Token.isTrivia]
    rw [hLexemes, afterBlanks?, hBlank]
    simp [hNone]
  refine ⟨{ s with lexemes := ls }, ?_, hTail⟩
  unfold readCombinator
  rw [hRead]
  simp only [hBlanks]
  split <;> simp_all

/- A combinator before a compound is read back. -/
theorem readCombinator_tokens
    (k : Combinator)
    {s : Stream}
    {ts : List Token}
    (hLeads : Leads ts)
    (hTokens : s.tokens = k.tokens ++ ts) :
    ∃ s',
      readCombinator s = (some k, s') ∧
        s'.tokens.dropWhile Token.isTrivia = ts := by
  have hKeep : ts.dropWhile Token.isTrivia = ts :=
    hLeads.dropWhile
  cases k with
  | descendant =>
      rcases readCombinator_blank hLeads hTokens with
        ⟨s', hRead, hRest⟩
      refine ⟨s', hRead, ?_⟩
      rw [hRest]
      exact hKeep
  | child =>
      exact
        readCombinator_sign (Or.inl ⟨rfl, rfl⟩) hKeep hTokens
  | nextSibling =>
      exact
        readCombinator_sign (Or.inr (Or.inl ⟨rfl, rfl⟩)) hKeep
          hTokens
  | laterSibling =>
      exact
        readCombinator_sign (Or.inr (Or.inr ⟨rfl, rfl⟩)) hKeep
          hTokens

theorem readCombinator_end
    {s : Stream}
    (hTokens : s.tokens = []) :
    readCombinator s = (none, s.atEnd) := by
  simp [readCombinator, Stream.next?_eq_none hTokens]

------------------------------------------------------------
-- Simple selectors
------------------------------------------------------------

theorem expectEnd_of_tokens
    {s : Stream}
    (hTokens : s.tokens = []) :
    expectEnd s = .ok () := by
  simp [expectEnd, Stream.next?_eq_none hTokens]

/- Nothing behind the parts of a compound belongs to it. -/
theorem readSimple?_stops
    (fuel : Nat)
    (cx : Context)
    {s : Stream}
    (hStops : Stops s.tokens) :
    readSimple? (fuel + 1) cx s = .ok none := by
  rcases hStops.behind.nextAny? with ⟨hNone, _⟩ | ⟨t, s', hNext, hFirst⟩
  · simp [readSimple?, hNone]
  · rcases hStops t hFirst with ⟨text, rfl⟩
    simp [readSimple?, hNext]

/- The name behind a single colon. -/
theorem readPseudoName_ident
    {s : Stream}
    {name : String}
    {rest : List Token}
    (hTokens : s.tokens = .ident name :: rest) :
    ∃ s',
      readPseudoName s = .ok (⟨false, false, name⟩, s') ∧
        s'.tokens = rest := by
  rcases Stream.nextAny?_of_tokens hTokens (by simp) with
    ⟨s', hNext, hRest⟩
  exact ⟨s', by simp [readPseudoName, hNext], hRest⟩

theorem readPseudoName_function
    {s : Stream}
    {name : String}
    {rest : List Token}
    (hTokens : s.tokens = .function name :: rest) :
    ∃ s',
      readPseudoName s = .ok (⟨false, true, name⟩, s') ∧
        s'.tokens = rest := by
  rcases Stream.nextAny?_of_tokens hTokens (by simp) with
    ⟨s', hNext, hRest⟩
  exact ⟨s', by simp [readPseudoName, hNext], hRest⟩

/- A word behind a colon is read as the selector it names. -/
theorem readSimple?_plain
    {fuel : Nat}
    (hFuel : 2 ≤ fuel)
    (cx : Context)
    {name : String}
    {part : Simple}
    (hNew : isOldPseudoElement name = false)
    (hPart : plainPseudo? (lower name) = some part)
    {s : Stream}
    {rest : List Token}
    (hTokens : s.tokens = .colon :: .ident name :: rest) :
    ∃ s',
      readSimple? fuel cx s = .ok (some (part, s')) ∧
        s'.tokens = rest := by
  rcases Nat.exists_eq_add_of_le' hFuel with ⟨fuel, rfl⟩
  rcases Stream.nextAny?_of_tokens hTokens (by simp) with
    ⟨s', hNext, hRest⟩
  rcases readPseudoName_ident hRest with ⟨s'', hName, hLater⟩
  refine ⟨s'', ?_, hLater⟩
  simp [readSimple?, hNext, readPseudo, hName, hNew, hPart]

/- A function behind a colon is read from its inside. -/
theorem readSimple?_function
    (fuel : Nat)
    (cx : Context)
    {name : String}
    {part : Simple}
    (hNew : isOldPseudoElement name = false)
    {s : Stream}
    {inner rest : List Token}
    (hTokens :
      s.tokens =
        .colon :: .function name ::
          (inner ++ .closeParenthesis :: rest))
    (hInner : Balanced (· == .closeParenthesis) inner)
    (hPart :
      ∀ body : Stream,
        body.tokens = inner →
          ∃ tail,
            readFunctional fuel cx name body = .ok (part, tail) ∧
              tail.tokens = []) :
    ∃ s',
      readSimple? (fuel + 2) cx s = .ok (some (part, s')) ∧
        s'.tokens = rest := by
  rcases Stream.nextAny?_of_tokens hTokens (by simp) with
    ⟨s', hNext, hRest⟩
  rcases readPseudoName_function hRest with ⟨s'', hName, hLater⟩
  rcases Stream.tokens_splitBlock hInner hLater with
    ⟨hBody, hAfter⟩
  rcases hPart _ hBody with ⟨tail, hRead, hEnd⟩
  refine ⟨_, ?_, hAfter⟩
  simp [readSimple?, hNext, readPseudo, hName, hNew, hRead,
    expectEnd_of_tokens hEnd]

theorem isOldPseudoElement_nthWord
    (kind : NthKind)
    (functional : Bool) :
    isOldPseudoElement (nthWord kind functional) = false := by
  cases kind <;> cases functional <;> decide

theorem lower_nthWord
    (kind : NthKind)
    (functional : Bool) :
    lower (nthWord kind functional) = nthWord kind functional := by
  cases kind <;> cases functional <;> decide

/- A written position is read back. -/
theorem Nth.Formed.read
    {n : Nth}
    (hFormed : n.Formed)
    (fuel : Nat)
    (cx : Context)
    {s : Stream}
    {rest : List Token}
    (hTokens : s.tokens = n.tokens ++ rest) :
    ∃ s',
      readSimple? (fuel + 3) cx s = .ok (some (.nth n, s')) ∧
        s'.tokens = rest := by
  rcases n with ⟨kind, functional, a, b⟩
  have hNew := isOldPseudoElement_nthWord kind functional
  have hLower := lower_nthWord kind functional
  cases functional with
  | false =>
      rcases hFormed with ⟨hFirst, hSecond⟩
      simp only at hFirst hSecond
      subst hFirst hSecond
      have hPart :
          plainPseudo? (lower (nthWord kind false)) =
            some (.nth ⟨kind, false, 0, 1⟩) := by
        rw [hLower]
        cases kind <;> rfl
      exact readSimple?_plain (by omega) cx hNew hPart hTokens
  | true =>
      rcases hFormed with ⟨hChild, hType, hFirst, hSecond⟩
      have hKind :
          nthKind? (lower (nthWord kind true)) = some kind := by
        rw [hLower]
        cases kind with
        | onlyChild => exact absurd rfl hChild
        | onlyOfType => exact absurd rfl hType
        | _ => rfl
      have hInner :=
        balanced_nthTokens a b
          (outer_closer .closeParenthesis rfl)
      have hBlock :
          s.tokens =
            .colon :: .function (nthWord kind true) ::
              (nthTokens a b ++ .closeParenthesis :: rest) := by
        simpa [Nth.tokens] using hTokens
      refine
        readSimple?_function (fuel + 1) cx hNew hBlock hInner ?_
      intro body hBody
      rcases readNth_nthTokens hFirst hSecond hBody with
        ⟨tail, hRead, hEnd⟩
      exact
        ⟨tail, by simp [readFunctional, hKind, hRead], hEnd⟩

/- What is read inside of brackets is the test between them. -/
theorem readSimple?_brackets
    (fuel : Nat)
    (cx : Context)
    {test : AttrTest}
    {inner : List Token}
    (hInner : Balanced (· == .closeSquareBracket) inner)
    (hBody :
      ∀ s : Stream, s.tokens = inner →
        ∃ s', readAttribute s = .ok (test, s') ∧ s'.tokens = [])
    {s : Stream}
    {rest : List Token}
    (hTokens :
      s.tokens =
        .squareBracketBlock ::
          (inner ++ .closeSquareBracket :: rest)) :
    ∃ s',
      readSimple? (fuel + 1) cx s =
          .ok (some (.attribute test, s')) ∧
        s'.tokens = rest := by
  rcases Stream.nextAny?_of_tokens hTokens (by simp) with
    ⟨s', hNext, hRest⟩
  rcases Stream.tokens_splitBlock hInner hRest with
    ⟨hInside, hAfter⟩
  rcases hBody _ hInside with ⟨tail, hRead, hEnd⟩
  refine ⟨_, ?_, hAfter⟩
  simp [readSimple?, hNext, hRead, expectEnd_of_tokens hEnd]

/- A test of an attribute is read back from its brackets. -/
theorem readSimple?_attribute
    (fuel : Nat)
    (cx : Context)
    (anySpace : Bool)
    (name : String)
    {s : Stream}
    {rest : List Token}
    (hTokens :
      s.tokens =
        (Simple.attribute ⟨anySpace, name, none⟩).tokens ++ rest) :
    ∃ s',
      readSimple? (fuel + 1) cx s =
          .ok (some (.attribute ⟨anySpace, name, none⟩, s')) ∧
        s'.tokens = rest := by
  have hInner :=
    balanced_attrTokens anySpace name
      (outer_closer .closeSquareBracket rfl)
  refine
    readSimple?_brackets fuel cx hInner
      (fun _ hBody => readAttribute_attrTokens anySpace name hBody)
      ?_
  simpa [Simple.tokens] using hTokens

------------------------------------------------------------
-- Compounds
------------------------------------------------------------

/-
  A compound is read back, if its parts behind the type are.
-/
theorem readCompound_tokens
    {joins : Bool}
    {front rest : List Simple}
    (hFront : Front front)
    (hRest : PartsFormed joins rest)
    {fuel : Nat}
    {cx : Context}
    {after : List Token}
    (hAfter : Stops after)
    (hParts :
      ∀ s : Stream,
        s.tokens = partsTokens rest ++ after →
          ∃ s',
            readSimples fuel cx s = .ok (rest, s') ∧
              s'.tokens = after)
    {s : Stream}
    (hTokens :
      s.tokens.dropWhile Token.isTrivia =
        partsTokens (front ++ rest) ++ after) :
    ∃ s',
      readCompound (fuel + 1) cx s = .ok (front ++ rest, s') ∧
        s'.tokens = after := by
  have hSkip :
      s.skipTrivia.tokens =
        partsTokens front ++ (partsTokens rest ++ after) := by
    rw [Stream.skipTrivia, Stream.tokens_dropWhile, hTokens,
      partsTokens_append, List.append_assoc]
  rcases readType_front hFront hSkip (hRest.behind hAfter.behind)
    with ⟨s', hType, hBehind⟩
  rcases hParts s' hBehind with ⟨s'', hRead, hEnd⟩
  exact ⟨s'', by simp [readCompound, hType, hRead], hEnd⟩

theorem length_of_dropWhile
    {ts us : List Token}
    (hDrop : ts.dropWhile Token.isTrivia = us) :
    us.length ≤ ts.length := by
  rw [← hDrop]
  exact (List.dropWhile_sublist _).length_le

theorem Combinator.stops
    (k : Combinator)
    (rest : List Token) :
    Stops (k.tokens ++ rest) := by
  intro t hFirst
  cases k <;>
  · cases hFirst
    exact ⟨_, rfl⟩

theorem Complex.Formed.leads :
    {joins : Bool} → {c : Complex} → c.Formed joins →
      ∀ rest : List Token, Leads (c.tokens ++ rest)
  | _, _, .compound hFront hParts hSome, rest => by
      rw [Complex.tokens]
      exact leads_compound hFront hParts hSome rest
  | _, _, .join k hLeft _ _ _, rest => by
      rw [Complex.tokens, List.append_assoc]
      exact hLeft.leads _

theorem ListFormed.ne_nil
    {joins : Bool}
    {list : List Complex}
    (hList : ListFormed joins list) :
    list ≠ [] := by
  cases hList <;> simp

theorem listTokens_cons
    (c : Complex)
    {rest : List Complex}
    (hSome : rest ≠ []) :
    listTokens (c :: rest) =
      c.tokens ++ .comma :: .whiteSpace " " :: listTokens rest := by
  cases rest with
  | nil => exact absurd rfl hSome
  | cons d rest => rfl

/-
  The first alternative of a list, behind a blank or not, and
  what is left from the comma on.
-/
theorem splitAt_comma
    {joins : Bool}
    {c : Complex}
    (hItem : c.Formed joins)
    {us : List Token}
    (hComma : ∀ t ∈ us.head?, t = .comma)
    {s : Stream}
    (hTokens :
      s.tokens = c.tokens ++ us ∨
        s.tokens = .whiteSpace " " :: (c.tokens ++ us)) :
    (s.splitAt (· == .comma)).1.tokens.dropWhile Token.isTrivia =
        c.tokens ++ [] ∧
      (s.splitAt (· == .comma)).2.tokens = us ∧
        (s.splitAt (· == .comma)).1.tokens.length + us.length =
          s.tokens.length := by
  have hStop : ∀ t ∈ us.head?, (t == .comma) = true :=
    fun t hFirst => beq_iff_eq.mpr (hComma t hFirst)
  have hDrop := (hItem.leads []).dropWhile
  rw [List.append_nil] at hDrop ⊢
  have hBalanced := hItem.balanced outer_comma
  rcases hTokens with hTokens | hTokens
  · rcases Stream.tokens_splitAt hBalanced hStop hTokens with
      ⟨hFront, hBack⟩
    rw [hFront, hTokens]
    exact ⟨hDrop, hBack, by simp⟩
  · have hBlank : Balanced (· == .comma) (.whiteSpace " " :: c.tokens) :=
      outer_comma.plain (by simp) rfl rfl hBalanced
    rcases Stream.tokens_splitAt hBlank hStop hTokens with
      ⟨hFront, hBack⟩
    rw [hFront, hTokens]
    exact ⟨hDrop, hBack, by simp; omega⟩

/- At the end of a stream nothing is joined any more. -/
theorem readJoined_end
    {fuel : Nat}
    (hFuel : 1 ≤ fuel)
    (cx : Context)
    (c : Complex)
    {s : Stream}
    (hTokens : s.tokens = []) :
    readJoined fuel cx c s = .ok (c, s.atEnd) := by
  rcases Nat.exists_eq_add_of_le' hFuel with ⟨fuel, rfl⟩
  simp [readJoined, readCombinator_end hTokens]

------------------------------------------------------------
-- Selectors
------------------------------------------------------------

/- Words behind a colon that are no positions. -/
theorem plainPseudo?_words :
    plainPseudo? (lower "root") = some .root ∧
      plainPseudo? (lower "empty") = some .empty ∧
        plainPseudo? (lower "scope") = some .scope := by
  have hRoot : lower "root" = "root" := by decide
  have hEmpty : lower "empty" = "empty" := by decide
  have hScope : lower "scope" = "scope" := by decide
  rw [hRoot, hEmpty, hScope]
  exact ⟨rfl, rfl, rfl⟩

theorem length_of_colon
    {s : Stream}
    {ts rest : List Token}
    (hTokens : s.tokens = .colon :: ts ++ rest) :
    1 ≤ s.tokens.length := by
  simp [hTokens]

/- Functions that are no positions. -/
theorem lower_functions :
    lower "not" = "not" ∧ lower "host" = "host" := by
  decide

/- A negation is read back if the list inside is. -/
theorem readSimple?_negation
    (fuel : Nat)
    (cx : Context)
    {list : List Complex}
    (hInner :
      Balanced (· == .closeParenthesis) (listTokens list))
    (hList :
      ∀ body : Stream,
        body.tokens = listTokens list →
          ∃ tail,
            readList fuel { cx with noPseudoElements := true }
                body =
              .ok (list, tail) ∧
              tail.tokens = [])
    {s : Stream}
    {rest : List Token}
    (hTokens : s.tokens = (Simple.negation list).tokens ++ rest) :
    ∃ s',
      readSimple? (fuel + 3) cx s =
          .ok (some (.negation list, s')) ∧
        s'.tokens = rest := by
  have hBlock :
      s.tokens =
        .colon :: .function "not" ::
          (listTokens list ++ .closeParenthesis :: rest) := by
    simpa [Simple.tokens] using hTokens
  refine
    readSimple?_function (fuel + 1) cx (by decide) hBlock hInner ?_
  intro body hBody
  rcases hList body hBody with ⟨tail, hRead, hEnd⟩
  have hKind : nthKind? "not" = none := rfl
  refine ⟨tail, ?_, hEnd⟩
  simp [readFunctional, lower_functions.1, hKind, hRead]

/- A host is read back if the selector inside is. -/
theorem readSimple?_host
    (fuel : Nat)
    (cx : Context)
    {inner : Complex}
    (hInner : Balanced (· == .closeParenthesis) inner.tokens)
    (hComplex :
      ∀ body : Stream,
        body.tokens = inner.tokens →
          ∃ fuel' s',
            readComplex fuel ⟨true, true⟩ body =
                readJoined fuel' ⟨true, true⟩ inner s' ∧
              s'.tokens = [] ∧ 1 ≤ fuel')
    {s : Stream}
    {rest : List Token}
    (hTokens : s.tokens = (Simple.host inner).tokens ++ rest) :
    ∃ s',
      readSimple? (fuel + 3) cx s =
          .ok (some (.host inner, s')) ∧
        s'.tokens = rest := by
  have hBlock :
      s.tokens =
        .colon :: .function "host" ::
          (inner.tokens ++ .closeParenthesis :: rest) := by
    simpa [Simple.tokens] using hTokens
  refine
    readSimple?_function (fuel + 1) cx (by decide) hBlock hInner ?_
  intro body hBody
  rcases hComplex body hBody with
    ⟨fuel', s', hRead, hEnd, hSome⟩
  have hJoined := readJoined_end hSome ⟨true, true⟩ inner hEnd
  have hKind : nthKind? "host" = none := rfl
  refine ⟨s'.atEnd, ?_, rfl⟩
  simp [readFunctional, lower_functions.2, hKind, hRead, hJoined]

/-
  The inductions are on how the selectors are formed.  What
  carries them is that every reader leaves exactly the tokens
  behind what it reads, and fuel for all of them.
-/
mutual

theorem Simple.Formed.read :
    {joins : Bool} → {x : Simple} → x.Formed joins →
      ∀ {fuel : Nat} {cx : Context} {s : Stream}
        {rest : List Token},
        cx.noCombinators = !joins →
          8 * s.tokens.length + 1 ≤ fuel →
            s.tokens = x.tokens ++ rest →
              ∃ s',
                readSimple? fuel cx s = .ok (some (x, s')) ∧
                  s'.tokens = rest
  | _, _, .id hName, fuel, cx, s, rest, _, hFuel, hTokens => by
      rcases Nat.exists_eq_add_of_le' (m := 1) (n := fuel)
        (by omega) with ⟨fuel, rfl⟩
      rcases Stream.nextAny?_of_tokens hTokens (by simp) with
        ⟨s', hNext, hRest⟩
      exact ⟨s', by simp [readSimple?, hNext], hRest⟩
  | _, _, .className hName, fuel, cx, s, rest, _, hFuel,
      hTokens => by
      rcases Nat.exists_eq_add_of_le' (m := 1) (n := fuel)
        (by omega) with ⟨fuel, rfl⟩
      rcases Stream.nextAny?_of_tokens hTokens (by simp) with
        ⟨s', hPoint, hRest⟩
      rcases Stream.nextAny?_of_tokens hRest (by simp) with
        ⟨s'', hNext, hLater⟩
      exact ⟨s'', by simp [readSimple?, hPoint, hNext], hLater⟩
  | _, _, .attr anySpace hName, fuel, cx, s, rest, _, hFuel,
      hTokens => by
      rcases Nat.exists_eq_add_of_le' (m := 1) (n := fuel)
        (by omega) with ⟨fuel, rfl⟩
      exact readSimple?_attribute fuel cx anySpace _ hTokens
  | _, .nth test, .nth hTest, fuel, cx, s, rest, _, hFuel,
      hTokens => by
      have hSome : 1 ≤ s.tokens.length := by
        have hFormed : (Simple.nth test).Formed true := .nth hTest
        rcases hFormed.firstToken with ⟨t, ts, hFirst, _⟩
        simp [hTokens, hFirst]
      rcases Nat.exists_eq_add_of_le' (m := 3) (n := fuel)
        (by omega) with ⟨fuel, rfl⟩
      exact hTest.read fuel cx hTokens
  | _, _, .root, fuel, cx, s, rest, _, hFuel, hTokens => by
      have hEnough := length_of_colon hTokens
      exact
        readSimple?_plain (by omega) cx (by decide)
          plainPseudo?_words.1 hTokens
  | _, _, .empty, fuel, cx, s, rest, _, hFuel, hTokens => by
      have hEnough := length_of_colon hTokens
      exact
        readSimple?_plain (by omega) cx (by decide)
          plainPseudo?_words.2.1 hTokens
  | _, _, .scope, fuel, cx, s, rest, _, hFuel, hTokens => by
      have hEnough := length_of_colon hTokens
      exact
        readSimple?_plain (by omega) cx (by decide)
          plainPseudo?_words.2.2 hTokens
  | _, .negation list, .negation hList, fuel, cx, s, rest, hJoins,
      hFuel, hTokens => by
      have hLength :
          (listTokens list).length + 3 ≤ s.tokens.length := by
        simp [hTokens, Simple.tokens]
      rcases Nat.exists_eq_add_of_le' (m := 3) (n := fuel)
        (by omega) with ⟨fuel, rfl⟩
      have hInner :
          Balanced (· == .closeParenthesis) (listTokens list) := by
        refine hList.balanced ?_
        intro t hHere
        rw [beq_iff_eq.mp hHere]
        rfl
      refine readSimple?_negation fuel cx hInner ?_ hTokens
      intro body hBody
      have hEnough : 8 * body.tokens.length + 5 ≤ fuel := by
        rw [hBody]
        omega
      have hInside :
          { cx with noPseudoElements := true }.noCombinators =
            !_ :=
        hJoins
      exact hList.read hInside hEnough (Or.inl hBody)
  | _, .host inner, .host hInner, fuel, cx, s, rest, _, hFuel,
      hTokens => by
      have hLength :
          inner.tokens.length + 3 ≤ s.tokens.length := by
        simp [hTokens, Simple.tokens]
      rcases Nat.exists_eq_add_of_le' (m := 3) (n := fuel)
        (by omega) with ⟨fuel, rfl⟩
      have hBalanced :=
        hInner.balanced (outer_closer .closeParenthesis rfl)
      refine readSimple?_host fuel cx hBalanced ?_ hTokens
      intro body hBody
      have hLeads := hInner.leads []
      rw [List.append_nil] at hLeads
      have hEnough : 8 * body.tokens.length + 4 ≤ fuel := by
        rw [hBody]
        omega
      have hInside :
          (⟨true, true⟩ : Context).noCombinators = !false :=
        rfl
      have hDrop :
          body.tokens.dropWhile Token.isTrivia =
            inner.tokens ++ [] := by
        rw [hBody, hLeads.dropWhile, List.append_nil]
      rcases hInner.read hInside stops_nil hEnough hDrop with
        ⟨fuel', s', hRead, hEnd, hLeft⟩
      exact ⟨fuel', s', hRead, hEnd, by omega⟩

theorem PartsFormed.read :
    {joins : Bool} → {parts : List Simple} →
      PartsFormed joins parts →
        ∀ {fuel : Nat} {cx : Context} {s : Stream}
          {rest : List Token},
          cx.noCombinators = !joins → Stops rest →
            8 * s.tokens.length + 2 ≤ fuel →
              s.tokens = partsTokens parts ++ rest →
                ∃ s',
                  readSimples fuel cx s = .ok (parts, s') ∧
                    s'.tokens = rest
  | _, _, .nil, fuel, cx, s, rest, _, hStops, hFuel, hTokens => by
      rcases Nat.exists_eq_add_of_le' (m := 2) (n := fuel)
        (by omega) with ⟨fuel, rfl⟩
      have hSame : s.tokens = rest := hTokens
      have hNone :=
        readSimple?_stops fuel cx (s := s) (by rwa [hSame])
      exact ⟨s, by simp [readSimples, hNone], hSame⟩
  | _, .cons x parts, .cons hFirst hLater, fuel, cx, s, rest,
      hJoins, hStops, hFuel, hTokens => by
      rcases Nat.exists_eq_add_of_le' (m := 1) (n := fuel)
        (by omega) with ⟨fuel, rfl⟩
      rw [partsTokens, List.append_assoc] at hTokens
      have hShorter :
          (partsTokens parts ++ rest).length + 1 ≤
            s.tokens.length := by
        rcases hFirst.firstToken with ⟨t, ts, hStart, _⟩
        simp [hTokens, hStart]
      have hEnough : 8 * s.tokens.length + 1 ≤ fuel := by omega
      rcases hFirst.read hJoins hEnough hTokens with
        ⟨s', hRead, hRest⟩
      have hEnough' : 8 * s'.tokens.length + 2 ≤ fuel := by
        rw [hRest]
        omega
      rcases hLater.read hJoins hStops hEnough' hRest with
        ⟨s'', hReads, hEnd⟩
      exact ⟨s'', by simp [readSimples, hRead, hReads], hEnd⟩

theorem Complex.Formed.read :
    {joins : Bool} → {c : Complex} → c.Formed joins →
      ∀ {fuel : Nat} {cx : Context} {s : Stream}
        {rest : List Token},
        cx.noCombinators = !joins → Stops rest →
          8 * s.tokens.length + 4 ≤ fuel →
            s.tokens.dropWhile Token.isTrivia = c.tokens ++ rest →
              ∃ fuel' s',
                readComplex fuel cx s = readJoined fuel' cx c s' ∧
                  s'.tokens = rest ∧
                    8 * s'.tokens.length + 4 ≤ fuel'
  | _, _, @Complex.Formed.compound _ front parts hFront hParts
      hSome, fuel, cx, s, rest, hJoins, hStops, hFuel,
      hTokens => by
      rcases Nat.exists_eq_add_of_le' (m := 2) (n := fuel)
        (by omega) with ⟨fuel, rfl⟩
      have hShorter := length_of_dropWhile hTokens
      have hLeads := leads_compound hFront hParts hSome []
      have hSome' := hLeads.length_pos
      rw [List.append_nil] at hSome'
      simp only [Complex.tokens] at hTokens hShorter
      simp only [partsTokens_append, List.length_append]
        at hShorter hSome'
      have hReads
          (s' : Stream)
          (hRest : s'.tokens = partsTokens parts ++ rest) :
          ∃ s'',
            readSimples fuel cx s' = .ok (parts, s'') ∧
              s''.tokens = rest := by
        refine hParts.read hJoins hStops ?_ hRest
        rw [hRest, List.length_append]
        omega
      rcases
        readCompound_tokens hFront hParts hStops hReads hTokens with
        ⟨s', hRead, hEnd⟩
      refine ⟨fuel + 1, s', ?_, hEnd, ?_⟩
      · simp [readComplex, hRead, hSome]
      · rw [hEnd]
        omega
  | _, _, @Complex.Formed.join left front parts k hLeft hFront
      hParts hSome, fuel, cx, s, rest, hJoins, hStops, hFuel,
      hTokens => by
      rw [Complex.tokens, List.append_assoc, List.append_assoc]
        at hTokens
      rcases hLeft.read hJoins (k.stops _) hFuel hTokens with
        ⟨fuel', s', hRead, hRest, hEnough⟩
      have hLeads := leads_compound hFront hParts hSome rest
      have hShorter :
          (partsTokens parts ++ rest).length ≤ s'.tokens.length ∧
            rest.length + 1 ≤ s'.tokens.length := by
        have hSome' :=
          (leads_compound hFront hParts hSome []).length_pos
        simp only [partsTokens_append, List.append_nil,
          List.length_append] at hSome'
        simp only [hRest, partsTokens_append, List.length_append]
        omega
      rcases Nat.exists_eq_add_of_le' (m := 2) (n := fuel')
        (by omega) with ⟨fuel', rfl⟩
      rcases readCombinator_tokens k hLeads hRest with
        ⟨s'', hCombinator, hDrop⟩
      have hReads
          (last : Stream)
          (hLast : last.tokens = partsTokens parts ++ rest) :
          ∃ s'',
            readSimples fuel' cx last = .ok (parts, s'') ∧
              s''.tokens = rest := by
        refine hParts.read hJoins hStops ?_ hLast
        rw [hLast]
        omega
      rcases
        readCompound_tokens hFront hParts hStops hReads hDrop with
        ⟨last, hCompound, hEnd⟩
      have hAllowed : cx.noCombinators = false := hJoins
      refine ⟨fuel' + 1, last, ?_, hEnd, ?_⟩
      · rw [hRead]
        simp [readJoined, hCombinator, hAllowed, hCompound, hSome]
      · rw [hEnd]
        omega

/- A list is read back, also after a blank. -/
theorem ListFormed.read :
    {joins : Bool} → {list : List Complex} →
      ListFormed joins list →
        ∀ {fuel : Nat} {cx : Context} {s : Stream},
          cx.noCombinators = !joins →
            8 * s.tokens.length + 5 ≤ fuel →
              (s.tokens = listTokens list ∨
                s.tokens = .whiteSpace " " :: listTokens list) →
                ∃ s',
                  readList fuel cx s = .ok (list, s') ∧
                    s'.tokens = []
  | _, _, @ListFormed.single _ c hItem, fuel, cx, s, hJoins, hFuel,
      hTokens => by
      rcases Nat.exists_eq_add_of_le' (m := 1) (n := fuel)
        (by omega) with ⟨fuel, rfl⟩
      have hText : s.tokens = c.tokens ++ [] ∨
          s.tokens = .whiteSpace " " :: (c.tokens ++ []) := by
        simpa [listTokens] using hTokens
      rcases splitAt_comma hItem (by simp) hText with
        ⟨hFront, hBack, hShorter⟩
      have hEnough :
          8 * (s.splitAt (· == .comma)).1.tokens.length + 4 ≤
            fuel := by
        omega
      rcases hItem.read hJoins stops_nil hEnough hFront with
        ⟨fuel', s', hRead, hEnd, hLeft⟩
      have hSome : 1 ≤ fuel' := by omega
      have hJoined := readJoined_end hSome cx c hEnd
      have hNone := Stream.uncons?_eq_none hBack
      refine ⟨_, ?_, hBack⟩
      simp [readList, hRead, hJoined, hNone,
        expectEnd_of_tokens (s := s'.atEnd) rfl]
  | _, _, @ListFormed.cons _ c list hItem hLater, fuel, cx, s,
      hJoins, hFuel, hTokens => by
      rcases Nat.exists_eq_add_of_le' (m := 1) (n := fuel)
        (by omega) with ⟨fuel, rfl⟩
      rw [listTokens_cons c hLater.ne_nil] at hTokens
      rcases splitAt_comma hItem (by simp) hTokens with
        ⟨hFront, hBack, hShorter⟩
      have hEnough :
          8 * (s.splitAt (· == .comma)).1.tokens.length + 4 ≤
            fuel := by
        omega
      rcases hItem.read hJoins stops_nil hEnough hFront with
        ⟨fuel', s', hRead, hEnd, hLeft⟩
      have hSome : 1 ≤ fuel' := by omega
      have hJoined := readJoined_end hSome cx c hEnd
      rcases Stream.uncons?_of_tokens hBack with
        ⟨s'', hComma, hRest⟩
      have hEnough' : 8 * s''.tokens.length + 5 ≤ fuel := by
        simp only [List.length_cons] at hShorter
        simp only [hRest, List.length_cons]
        omega
      rcases hLater.read hJoins hEnough' (Or.inr hRest) with
        ⟨last, hReads, hDone⟩
      refine ⟨last, ?_, hDone⟩
      simp [readList, hRead, hJoined, hComma, hReads,
        expectEnd_of_tokens (s := s'.atEnd) rfl]

end

/- What is written for a well-formed list is read back. -/
theorem parse_renderList
    {list : SelectorList}
    (hList : ListFormed true list) :
    parse (renderList list) = .ok (bareList list) := by
  have hTokens := tokens_renderList hList
  have hLength :
      (Stream.ofText (renderList list)).tokens.length =
        (Stream.ofText (renderList list)).lexemes.length :=
    List.length_map _
  have hEnough :
      8 * (Stream.ofText (renderList list)).tokens.length + 5 ≤
        fuelFor (Stream.ofText (renderList list)) := by
    unfold fuelFor
    omega
  have hOutside : ({} : Context).noCombinators = !true := rfl
  rcases hList.bare.read hOutside hEnough (Or.inl hTokens) with
    ⟨s', hRead, _⟩
  simp [parse, hRead]

end MarkupMetrics.Selector
