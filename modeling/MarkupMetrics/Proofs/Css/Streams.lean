import MarkupMetrics.Proofs.Css.Lexing

/-
  This file describes what is taken from a stream of tokens:
  the next token, the part before a token, and the inside of
  a block.

  Key definitions include:
    * `Css.Token.isCloser`
    * `Css.Balanced`

  Key theorems include:
    * `Css.Stream.next?_of_tokens`
    * `Css.Stream.tokens_splitAt`
    * `Css.Stream.tokens_splitBlock`
    * `Css.Stream.Sound.splitBlock`
-/

namespace MarkupMetrics.Css

namespace Stream

------------------------------------------------------------
-- Next tokens
------------------------------------------------------------

theorem tokens_dropWhile
    (s : Stream)
    (p : Token → Bool) :
    (s.dropWhile p).tokens = s.tokens.dropWhile p := by
  simp only [tokens, dropWhile, List.dropWhile_map,
    Function.comp_def]

theorem uncons?_of_tokens
    {s : Stream}
    {t : Token}
    {ts : List Token}
    (hTokens : s.tokens = t :: ts) :
    ∃ s', s.uncons? = some (t, s') ∧ s'.tokens = ts := by
  rcases List.map_eq_cons_iff.mp hTokens with
    ⟨l, rest, hLexemes, rfl, hRest⟩
  exact
    ⟨{ s with lexemes := rest }, by simp [uncons?, hLexemes],
      hRest⟩

theorem uncons?_eq_none
    {s : Stream}
    (hTokens : s.tokens = []) :
    s.uncons? = none := by
  have hNone : s.lexemes = [] := List.map_eq_nil_iff.mp hTokens
  simp [uncons?, hNone]

/- The next token, if it is no comment. -/
theorem nextAny?_of_tokens
    {s : Stream}
    {t : Token}
    {ts : List Token}
    (hTokens : s.tokens = t :: ts)
    (hPlain : ∀ text, t ≠ .comment text) :
    ∃ s', s.nextAny? = some (t, s') ∧ s'.tokens = ts := by
  refine uncons?_of_tokens ?_
  rw [skipComments, tokens_dropWhile, hTokens,
    List.dropWhile_cons_of_neg]
  cases t <;> simp_all

theorem nextAny?_eq_none
    {s : Stream}
    (hTokens : s.tokens = []) :
    s.nextAny? = none := by
  refine uncons?_eq_none ?_
  rw [skipComments, tokens_dropWhile, hTokens]
  rfl

/- The next token that is neither blank nor comment. -/
theorem next?_of_tokens
    {s : Stream}
    {t : Token}
    {ts : List Token}
    (hTokens : s.tokens.dropWhile Token.isTrivia = t :: ts) :
    ∃ s', s.next? = some (t, s') ∧ s'.tokens = ts := by
  refine uncons?_of_tokens ?_
  rw [skipTrivia, tokens_dropWhile, hTokens]

theorem next?_eq_none
    {s : Stream}
    (hTokens : s.tokens = []) :
    s.next? = none := by
  refine uncons?_eq_none ?_
  rw [skipTrivia, tokens_dropWhile, hTokens]
  rfl

------------------------------------------------------------
-- Sound streams
------------------------------------------------------------

namespace Sound

theorem of_subset
    {s s' : Stream}
    (hSound : s.Sound)
    (hSubset : s'.lexemes ⊆ s.lexemes) :
    s'.Sound :=
  fun l hMem => hSound l (hSubset hMem)

theorem dropWhile
    {s : Stream}
    (hSound : s.Sound)
    (p : Token → Bool) :
    (s.dropWhile p).Sound :=
  hSound.of_subset (List.dropWhile_subset _)

theorem atEnd
    (s : Stream) :
    s.atEnd.Sound := by
  simp [Stream.Sound, Stream.atEnd]

theorem uncons?
    {s s' : Stream}
    (hSound : s.Sound)
    {t : Token}
    (hNext : s.uncons? = some (t, s')) :
    t.Sound ∧ s'.Sound := by
  unfold Stream.uncons? at hNext
  split at hNext
  · simp at hNext
  · rename_i l rest hLexemes
    simp only [Option.some.injEq, Prod.mk.injEq] at hNext
    rcases hNext with ⟨rfl, rfl⟩
    refine ⟨hSound l (by simp [hLexemes]), ?_⟩
    exact hSound.of_subset (by simp [hLexemes])

theorem nextAny?
    {s s' : Stream}
    (hSound : s.Sound)
    {t : Token}
    (hNext : s.nextAny? = some (t, s')) :
    t.Sound ∧ s'.Sound :=
  (hSound.dropWhile _).uncons? hNext

theorem next?
    {s s' : Stream}
    (hSound : s.Sound)
    {t : Token}
    (hNext : s.next? = some (t, s')) :
    t.Sound ∧ s'.Sound :=
  (hSound.dropWhile _).uncons? hNext

end Sound

end Stream

------------------------------------------------------------
-- Regions
------------------------------------------------------------

/- The tokens that end blocks. -/
def Token.isCloser : Token → Bool
  | .closeParenthesis => true
  | .closeSquareBracket => true
  | .closeCurlyBracket => true
  | _ => false

theorem Token.isCloser_of_closer?
    {t closer : Token}
    (hOpen : t.closer? = some closer) :
    closer.isCloser = true ∧ closer.closer? = none := by
  cases t <;> simp only [closer?, Option.some.injEq,
    reduceCtorEq] at hOpen <;> subst hOpen <;> exact ⟨rfl, rfl⟩

/-
  Tokens whose blocks are closed, and outside of which no
  token is one to stop at.
-/
inductive Balanced :
    (Token → Bool) → List Token → Prop where
  | nil
      {stop : Token → Bool} :
      Balanced stop []
  | plain
      {stop : Token → Bool}
      {t : Token}
      {ts : List Token}
      (hStop : stop t = false)
      (hOpen : t.closer? = none)
      (hClose : t.isCloser = false)
      (hRest : Balanced stop ts) :
      Balanced stop (t :: ts)
  | block
      {stop : Token → Bool}
      {t closer : Token}
      {inner ts : List Token}
      (hStop : stop t = false)
      (hOpen : t.closer? = some closer)
      (hInner : Balanced (fun _ => false) inner)
      (hRest : Balanced stop ts) :
      Balanced stop (t :: (inner ++ closer :: ts))

theorem Balanced.append
    {stop : Token → Bool}
    {ts us : List Token}
    (hFirst : Balanced stop ts)
    (hSecond : Balanced stop us) :
    Balanced stop (ts ++ us) := by
  induction hFirst with
  | nil => exact hSecond
  | plain hStop hOpen hClose _ ih =>
      exact Balanced.plain hStop hOpen hClose (ih hSecond)
  | block hStop hOpen hInner _ _ ih =>
      simp only [List.cons_append, List.append_assoc]
      exact Balanced.block hStop hOpen hInner (ih hSecond)

namespace Stream

/- A cut divides a list of tokens into its two parts. -/
theorem append_cutAt
    (stop : Token → Bool)
    (pending : List Token)
    (ls : List Lexeme) :
    (cutAt stop pending ls).1 ++ (cutAt stop pending ls).2 =
      ls := by
  induction ls generalizing pending with
  | nil => rfl
  | cons l rest ih =>
      simp only [cutAt]
      split
      · rfl
      · exact congrArg (l :: ·) (ih _)

/- A search goes on after one token that it does not stop at. -/
theorem cutAt_cons
    {stop : Token → Bool}
    {pending : List Token}
    {l : Lexeme}
    (hStop : pending = [] → stop l.token = false)
    (rest : List Lexeme) :
    cutAt stop pending (l :: rest) =
      let pending :=
        match l.token.closer? with
        | some c => c :: pending
        | none =>
            if pending.head? = some l.token then pending.tail
            else pending
      (l :: (cutAt stop pending rest).1,
        (cutAt stop pending rest).2) := by
  have hGoes : (pending.isEmpty && stop l.token) = false := by
    cases pending with
    | nil => simp [hStop rfl]
    | cons _ _ => rfl
  rw [cutAt]
  exact if_neg (by simp [hGoes])

/- A search passes over tokens whose blocks are closed. -/
theorem cutAt_of_balanced
    {ts : List Token}
    {stop : Token → Bool}
    (hBalanced : Balanced stop ts) :
    ∀ (stop' : Token → Bool) (pending : List Token)
      (ls rest : List Lexeme),
      ls.map Lexeme.token = ts →
      (∀ c ∈ pending, c.isCloser = true) →
      (pending = [] → stop' = stop) →
      cutAt stop' pending (ls ++ rest) =
        (ls ++ (cutAt stop' pending rest).1,
          (cutAt stop' pending rest).2) := by
  induction hBalanced with
  | nil =>
      intro stop' pending ls rest hTokens _ _
      rw [List.map_eq_nil_iff.mp hTokens]
      rfl
  | @plain stop t ts hStop hOpen hClose hRest ih =>
      intro stop' pending ls rest hTokens hPending hSame
      rcases List.map_eq_cons_iff.mp hTokens with
        ⟨l, ls, rfl, rfl, hLater⟩
      have hGoes : pending = [] → stop' l.token = false := by
        intro hNone
        rw [hSame hNone, hStop]
      have hOther : ¬ pending.head? = some l.token := by
        intro hFirst
        have hTrue := hPending _ (List.mem_of_head? hFirst)
        rw [hClose] at hTrue
        exact absurd hTrue (by decide)
      rw [List.cons_append, cutAt_cons hGoes]
      simp only [hOpen, if_neg hOther]
      rw [ih stop' pending ls rest hLater hPending hSame]
      rfl
  | @block stop t closer inner ts hStop hOpen hInner hRest
      ihInner ihRest =>
      intro stop' pending ls rest hTokens hPending hSame
      rcases List.map_eq_cons_iff.mp hTokens with
        ⟨l, ls, rfl, rfl, hLater⟩
      rcases List.map_eq_append_iff.mp hLater with
        ⟨body, ls, rfl, hBody, hLast⟩
      rcases List.map_eq_cons_iff.mp hLast with
        ⟨m, ls, rfl, rfl, hAfter⟩
      rcases Token.isCloser_of_closer? hOpen with
        ⟨hCloser, hPlain⟩
      have hGoes : pending = [] → stop' l.token = false := by
        intro hNone
        rw [hSame hNone, hStop]
      have hInside :
          ∀ c ∈ m.token :: pending, c.isCloser = true := by
        intro c hMem
        rcases List.mem_cons.mp hMem with rfl | hOuter
        · exact hCloser
        · exact hPending c hOuter
      rw [List.cons_append, cutAt_cons hGoes, List.append_assoc]
      simp only [hOpen]
      rw [ihInner stop' _ body _ hBody hInside (by simp),
        List.cons_append, cutAt_cons (by simp)]
      simp only [hPlain, List.head?_cons, if_true, List.tail_cons]
      rw [ihRest stop' pending ls rest hAfter hPending hSame]
      simp

/- The part of a stream before the token to stop at. -/
theorem tokens_splitAt
    {stop : Token → Bool}
    {ts us : List Token}
    (hBalanced : Balanced stop ts)
    (hStop : ∀ t ∈ us.head?, stop t = true)
    {s : Stream}
    (hTokens : s.tokens = ts ++ us) :
    (s.splitAt stop).1.tokens = ts ∧
      (s.splitAt stop).2.tokens = us := by
  rcases List.map_eq_append_iff.mp hTokens with
    ⟨front, back, hLexemes, hFront, hBack⟩
  have hCut : cutAt stop [] back = ([], back) := by
    cases back with
    | nil => rfl
    | cons l back =>
        have hHere : stop l.token = true :=
          hStop l.token (by rw [← hBack]; rfl)
        simp [cutAt, hHere]
  have hWhole :=
    cutAt_of_balanced hBalanced stop [] front back hFront
      (by simp) (fun _ => rfl)
  rw [hCut] at hWhole
  simp only [splitAt, tokens, hLexemes, hWhole, List.append_nil]
  exact ⟨hFront, hBack⟩

/- The inside of a block, and what follows the block. -/
theorem tokens_splitBlock
    {closer : Token}
    {ts us : List Token}
    (hBalanced : Balanced (· == closer) ts)
    {s : Stream}
    (hTokens : s.tokens = ts ++ closer :: us) :
    (s.splitBlock closer).1.tokens = ts ∧
      (s.splitBlock closer).2.tokens = us := by
  rcases tokens_splitAt hBalanced (by simp) hTokens with
    ⟨hBody, hAfter⟩
  refine ⟨hBody, ?_⟩
  simp only [splitBlock, tokens, List.map_drop]
  simp only [tokens] at hAfter
  rw [hAfter]
  rfl

namespace Sound

theorem splitAt
    {s : Stream}
    (hSound : s.Sound)
    (stop : Token → Bool) :
    (s.splitAt stop).1.Sound ∧ (s.splitAt stop).2.Sound := by
  have hParts := append_cutAt stop [] s.lexemes
  refine ⟨hSound.of_subset ?_, hSound.of_subset ?_⟩
  · intro l hMem
    rw [← hParts]
    exact List.mem_append_left _ hMem
  · intro l hMem
    rw [← hParts]
    exact List.mem_append_right _ hMem

theorem splitBlock
    {s : Stream}
    (hSound : s.Sound)
    (closer : Token) :
    (s.splitBlock closer).1.Sound ∧
      (s.splitBlock closer).2.Sound := by
  rcases hSound.splitAt (· == closer) with ⟨hBody, hAfter⟩
  exact ⟨hBody, hAfter.of_subset (List.drop_subset 1 _)⟩

end Sound

end Stream

end MarkupMetrics.Css
