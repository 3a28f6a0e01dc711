import MarkupMetrics.Proofs.Selector.Positions

/-
  This file shows that every list of selectors that is read
  from a text is well-formed, unless an attribute value is
  compared in it.

  The readers call each other, so the proof is one induction
  on the fuel: `SoundAt` says what every reader gives with
  some fuel, and there is one lemma for each reader with one
  step more.

  Key definitions include:
    * `Selector.SoundAt`

  Key theorems include:
    * `Selector.sound_readQualified`
    * `Selector.soundAt`
    * `Selector.listFormed_of_parse`
-/

namespace MarkupMetrics.Selector

open Css Text

------------------------------------------------------------
-- Qualified names
------------------------------------------------------------

/- A qualified name has a name, and sound tokens after it. -/
def QualifiedSound
    (r : Qualified × Stream) : Prop :=
  (∀ space name, r.1 = .name space (some name) → IsName name) ∧
    r.2.Sound

theorem sound_readLocal
    {inAttribute : Bool}
    {space : SpaceMark}
    {s : Stream}
    (hSound : s.Sound)
    {r : Qualified × Stream}
    (hRead : readLocal inAttribute space s = .ok r) :
    QualifiedSound r := by
  unfold readLocal at hRead
  split at hRead
  · exact absurd hRead (by simp [failAt])
  · rename_i name s' hNext
    cases hRead
    rcases hSound.nextAny? hNext with ⟨hName, hAfter⟩
    refine ⟨?_, hAfter⟩
    intro space' name' hSame
    simp only [Qualified.name.injEq, Option.some.injEq] at hSame
    rw [← hSame.2]
    exact hName
  · rename_i t s' _ hNext
    split at hRead
    · exact absurd hRead (by simp [failAt])
    split at hRead
    · cases hRead
      exact ⟨by simp, (hSound.nextAny? hNext).2⟩
    · exact absurd hRead (by simp [failAt])

theorem sound_readQualified
    {inAttribute : Bool}
    {s : Stream}
    (hSound : s.Sound)
    {r : Qualified × Stream}
    (hRead : readQualified inAttribute s = .ok r) :
    QualifiedSound r := by
  unfold readQualified at hRead
  split at hRead
  · exact absurd hRead (by simp [failAt])
  · rename_i name s' hNext
    rcases hSound.nextAny? hNext with ⟨hName, hAfter⟩
    split at hRead
    · exact absurd hRead (by simp [failAt])
    · cases hRead
      refine ⟨?_, hAfter⟩
      intro space' name' hSame
      simp only [Qualified.name.injEq, Option.some.injEq] at hSame
      rw [← hSame.2]
      exact hName
  · rename_i s' hNext
    have hAfter := (hSound.nextAny? hNext).2
    split at hRead
    · rename_i s'' hBar
      exact sound_readLocal (hAfter.nextAny? hBar).2 hRead
    split at hRead
    · split at hRead
      · exact absurd hRead (by simp [failAt])
      · exact absurd hRead (by simp [failAt])
    · cases hRead
      exact ⟨by simp, hAfter⟩
  · rename_i s' hNext
    exact sound_readLocal (hSound.nextAny? hNext).2 hRead
  · cases hRead
    exact ⟨by simp, hSound⟩

theorem front_typeParts
    {space : SpaceMark}
    {name : Option String}
    (hName : ∀ n, name = some n → IsName n) :
    Front (typeParts space name) := by
  cases name with
  | none =>
      cases space with
      | noSpace => exact .noSpaceAny
      | absent => exact .any
      | anySpace => exact .any
  | some name =>
      cases space with
      | noSpace => exact .noSpaceName (hName name rfl)
      | absent => exact .name (hName name rfl)
      | anySpace => exact .name (hName name rfl)

/- What is read for a type can stand for one. -/
theorem sound_readType
    {s : Stream}
    (hSound : s.Sound)
    {r : List Simple × Stream}
    (hRead : readType s = .ok r) :
    Front r.1 ∧ r.2.Sound := by
  unfold readType at hRead
  split at hRead
  · rename_i space name s' hQualified
    cases hRead
    rcases sound_readQualified hSound hQualified with
      ⟨hName, hAfter⟩
    refine ⟨front_typeParts ?_, hAfter⟩
    intro n hSame
    exact hName space n (by rw [hSame])
  · rename_i t s' hQualified
    cases hRead
    exact ⟨.nothing, (sound_readQualified hSound hQualified).2⟩
  · split at hRead
    · cases hRead
      exact ⟨.nothing, Stream.Sound.atEnd s⟩
    · exact absurd hRead (by simp)

------------------------------------------------------------
-- Attribute tests
------------------------------------------------------------

/- An attribute is tested by a name. -/
theorem isName_readAttribute
    {s : Stream}
    (hSound : s.Sound)
    {r : AttrTest × Stream}
    (hRead : readAttribute s = .ok r) :
    IsName r.1.name := by
  unfold readAttribute at hRead
  rcases Outcome.bind_eq_ok_iff.mp hRead with
    ⟨q, hQualified, hRest⟩
  have hNamed :=
    (sound_readQualified (hSound.dropWhile _) hQualified).1
  split at hRest
  · exact absurd hRest (by simp [failAt])
  · exact absurd hRest (by simp [failAt])
  · rename_i space name s'
    have hName := hNamed space name rfl
    simp only at hRest
    split at hRest
    · simp only [Except.ok.injEq] at hRest
      rw [← hRest]
      exact hName
    · split at hRest
      · exact absurd hRest (by simp [failAt])
      · rcases Outcome.bind_eq_ok_iff.mp hRest with
          ⟨value, _, hRest⟩
        rcases Outcome.bind_eq_ok_iff.mp hRest with
          ⟨flag, _, hRest⟩
        simp only [Except.ok.injEq] at hRest
        rw [← hRest]
        exact hName

------------------------------------------------------------
-- Readers
------------------------------------------------------------

/- What is read holds up if no value is compared in it. -/
def SimpleSound
    (cx : Context)
    (r : Simple × Stream) : Prop :=
  (r.1.compares = false → r.1.Formed (!cx.noCombinators)) ∧
    r.2.Sound

def PartsSound
    (cx : Context)
    (r : List Simple × Stream) : Prop :=
  (partsCompare r.1 = false →
      PartsFormed (!cx.noCombinators) r.1) ∧
    r.2.Sound

def CompoundSound
    (cx : Context)
    (r : List Simple × Stream) : Prop :=
  ∃ front rest,
    r.1 = front ++ rest ∧ Front front ∧ PartsSound cx (rest, r.2)

def ComplexSound
    (cx : Context)
    (r : Complex × Stream) : Prop :=
  (r.1.compares = false → r.1.Formed (!cx.noCombinators)) ∧
    r.2.Sound

def ListSound
    (cx : Context)
    (r : List Complex × Stream) : Prop :=
  (listCompares r.1 = false →
      ListFormed (!cx.noCombinators) r.1) ∧
    r.2.Sound

/- What every reader gives with some fuel. -/
structure SoundAt
    (fuel : Nat) : Prop where
  pseudo :
    ∀ {cx : Context} {s : Stream} {r : Simple × Stream},
      s.Sound → readPseudo fuel cx s = .ok r → SimpleSound cx r
  functional :
    ∀ {cx : Context} {name : String} {s : Stream}
      {r : Simple × Stream},
      s.Sound → readFunctional fuel cx name s = .ok r →
        SimpleSound cx r
  simple :
    ∀ {cx : Context} {s : Stream} {r : Simple × Stream},
      s.Sound → readSimple? fuel cx s = .ok (some r) →
        SimpleSound cx r
  simples :
    ∀ {cx : Context} {s : Stream} {r : List Simple × Stream},
      s.Sound → readSimples fuel cx s = .ok r → PartsSound cx r
  compound :
    ∀ {cx : Context} {s : Stream} {r : List Simple × Stream},
      s.Sound → readCompound fuel cx s = .ok r →
        CompoundSound cx r
  joined :
    ∀ {cx : Context} {left : Complex} {s : Stream}
      {r : Complex × Stream},
      ComplexSound cx (left, s) →
        readJoined fuel cx left s = .ok r → ComplexSound cx r
  complex :
    ∀ {cx : Context} {s : Stream} {r : Complex × Stream},
      s.Sound → readComplex fuel cx s = .ok r → ComplexSound cx r
  list :
    ∀ {cx : Context} {s : Stream} {r : List Complex × Stream},
      s.Sound → readList fuel cx s = .ok r → ListSound cx r

/- Without fuel nothing is read. -/
theorem soundAt_zero :
    SoundAt 0 where
  pseudo _ hRead := absurd hRead (by simp [readPseudo, failAt])
  functional _ hRead :=
    absurd hRead (by simp [readFunctional, failAt])
  simple _ hRead := absurd hRead (by simp [readSimple?, failAt])
  simples _ hRead := absurd hRead (by simp [readSimples, failAt])
  compound _ hRead := absurd hRead (by simp [readCompound, failAt])
  joined _ hRead := absurd hRead (by simp [readJoined, failAt])
  complex _ hRead := absurd hRead (by simp [readComplex, failAt])
  list _ hRead := absurd hRead (by simp [readList, failAt])

theorem sound_readPseudoName
    {s : Stream}
    (hSound : s.Sound)
    {r : PseudoName × Stream}
    (hRead : readPseudoName s = .ok r) :
    r.2.Sound := by
  have hNamed
      {name : PseudoName}
      {s : Stream}
      (hSound : s.Sound)
      (hName :
        (.ok (name, s) : Except Failure (PseudoName × Stream)) =
          .ok r) :
      r.2.Sound := by
    rw [← Except.ok.inj hName]
    exact hSound
  unfold readPseudoName at hRead
  simp only [failAt] at hRead
  split at hRead
  · exact absurd hRead (by simp [bind, Except.bind])
  · rename_i first hNext
    rcases first with ⟨first, s'⟩
    have hFirst := (hSound.nextAny? hNext).2
    simp only [Outcome.ok_bind] at hRead
    split at hRead
    · split at hRead
      · exact absurd hRead (by simp [bind, Except.bind])
      · rename_i t s'' hNext'
        have hSecond := (hFirst.nextAny? hNext').2
        split at hRead
        · exact hNamed hSecond hRead
        · exact hNamed hSecond hRead
        · exact absurd hRead (by simp)
    · split at hRead
      · exact hNamed hFirst hRead
      · exact hNamed hFirst hRead
      · exact absurd hRead (by simp)

/- A word that names a selector names a well-formed one. -/
theorem formed_plainPseudo?
    {name : String}
    {part : Simple}
    (hPart : plainPseudo? name = some part)
    (joins : Bool) :
    part.Formed joins := by
  unfold plainPseudo? at hPart
  split at hPart
  case h_7 =>
      cases hPart
      exact .root
  case h_8 =>
      cases hPart
      exact .empty
  case h_9 =>
      cases hPart
      exact .scope
  case h_10 => cases hPart
  all_goals
    cases hPart
    exact .nth ⟨rfl, rfl⟩

theorem nthKind?_ne
    {name : String}
    {kind : NthKind}
    (hKind : nthKind? name = some kind) :
    kind ≠ .onlyChild ∧ kind ≠ .onlyOfType := by
  unfold nthKind? at hKind
  split at hKind <;>
    simp only [Option.some.injEq, reduceCtorEq] at hKind <;>
    subst hKind <;> simp

theorem subset_afterBlanks?
    {ls rest : List Lexeme}
    (hBlanks : afterBlanks? ls = some rest) :
    rest ⊆ ls := by
  induction ls generalizing rest with
  | nil => exact absurd hBlanks (by simp [afterBlanks?])
  | cons l ls ih =>
      have hTail : ls ⊆ l :: ls := List.subset_cons_self _ _
      unfold afterBlanks? at hBlanks
      split at hBlanks
      · cases hBlanks
        cases hLater : afterBlanks? ls with
        | none => exact hTail
        | some last => exact List.Subset.trans (ih hLater) hTail
      · exact List.Subset.trans (ih hBlanks) hTail
      · exact absurd hBlanks (by simp)

theorem sound_readCombinator
    {s : Stream}
    (hSound : s.Sound) :
    (readCombinator s).2.Sound := by
  unfold readCombinator
  split
  · exact Stream.Sound.atEnd s
  · rename_i s' hNext
    exact (hSound.next? hNext).2
  · rename_i s' hNext
    exact (hSound.next? hNext).2
  · rename_i s' hNext
    exact (hSound.next? hNext).2
  · split
    · rename_i rest hBlanks
      exact hSound.of_subset (subset_afterBlanks? hBlanks)
    · exact hSound

namespace SoundAt

variable {fuel : Nat}

theorem pseudo_succ
    (hFuel : SoundAt fuel)
    {cx : Context}
    {s : Stream}
    {r : Simple × Stream}
    (hSound : s.Sound)
    (hRead : readPseudo (fuel + 1) cx s = .ok r) :
    SimpleSound cx r := by
  unfold readPseudo at hRead
  rcases Outcome.bind_eq_ok_iff.mp hRead with
    ⟨⟨p, after⟩, hName, hRead⟩
  have hAfter := sound_readPseudoName hSound hName
  simp only at hRead
  split at hRead
  · split at hRead
    · exact absurd hRead (by simp [failAt])
    · split at hRead
      · exact absurd hRead (by simp [failAt])
      · exact absurd hRead (by simp [failAt])
  · split at hRead
    · rcases Outcome.bind_eq_ok_iff.mp hRead with
        ⟨⟨part, tail⟩, hPart, hRead⟩
      rcases Outcome.bind_eq_ok_iff.mp hRead with
        ⟨_, hEnd, hRead⟩
      rcases Stream.Sound.splitBlock hAfter .closeParenthesis with
        ⟨hBody, hRest⟩
      cases hRead
      exact ⟨(hFuel.functional hBody hPart).1, hRest⟩
    · split at hRead
      · rename_i part hPart
        cases hRead
        exact ⟨fun _ => formed_plainPseudo? hPart _, hAfter⟩
      · exact absurd hRead (by simp [failAt])

theorem functional_succ
    (hFuel : SoundAt fuel)
    {cx : Context}
    {name : String}
    {s : Stream}
    {r : Simple × Stream}
    (hSound : s.Sound)
    (hRead : readFunctional (fuel + 1) cx name s = .ok r) :
    SimpleSound cx r := by
  unfold readFunctional at hRead
  split at hRead
  · rename_i kind hKind
    rcases Outcome.bind_eq_ok_iff.mp hRead with
      ⟨⟨⟨a, b⟩, s'⟩, hNth, hRead⟩
    rcases soundRead_readNth hSound hNth with
      ⟨hFirst, hSecond, hAfter⟩
    rcases nthKind?_ne hKind with ⟨hChild, hType⟩
    cases hRead
    exact
      ⟨fun _ => .nth ⟨hChild, hType, hFirst, hSecond⟩, hAfter⟩
  · split at hRead
    · rcases Outcome.bind_eq_ok_iff.mp hRead with
        ⟨⟨list, s'⟩, hList, hRead⟩
      rcases hFuel.list hSound hList with ⟨hFormed, hAfter⟩
      cases hRead
      exact ⟨fun hNone => .negation (hFormed hNone), hAfter⟩
    split at hRead
    · rcases Outcome.bind_eq_ok_iff.mp hRead with
        ⟨⟨inner, s'⟩, hInner, hRead⟩
      rcases hFuel.complex hSound hInner with ⟨hFormed, hAfter⟩
      cases hRead
      exact ⟨fun hNone => .host (hFormed hNone), hAfter⟩
    · exact absurd hRead (by simp [failAt])

theorem simple_succ
    (hFuel : SoundAt fuel)
    {cx : Context}
    {s : Stream}
    {r : Simple × Stream}
    (hSound : s.Sound)
    (hRead : readSimple? (fuel + 1) cx s = .ok (some r)) :
    SimpleSound cx r := by
  unfold readSimple? at hRead
  split at hRead
  · rename_i name s' hNext
    rcases hSound.nextAny? hNext with ⟨hName, hAfter⟩
    cases hRead
    exact ⟨fun _ => .id hName, hAfter⟩
  · rename_i s' hNext
    have hAfter := (hSound.nextAny? hNext).2
    split at hRead
    · exact absurd hRead (by simp [failAt])
    · rename_i name s'' hNext'
      rcases hAfter.nextAny? hNext' with ⟨hName, hLater⟩
      cases hRead
      exact ⟨fun _ => .className hName, hLater⟩
    · exact absurd hRead (by simp [failAt])
  · rename_i s' hNext
    have hAfter := (hSound.nextAny? hNext).2
    rcases Stream.Sound.splitBlock hAfter .closeSquareBracket with
      ⟨hBody, hRest⟩
    rcases Outcome.bind_eq_ok_iff.mp hRead with
      ⟨⟨⟨anySpace, name, compare⟩, tail⟩, hTest, hRead⟩
    rcases Outcome.bind_eq_ok_iff.mp hRead with
      ⟨_, hEnd, hRead⟩
    have hName := isName_readAttribute hBody hTest
    cases hRead
    refine ⟨?_, hRest⟩
    intro hNone
    cases compare with
    | none => exact .attr anySpace hName
    | some c => exact absurd hNone (by simp [Simple.compares])
  · rename_i s' hNext
    rcases Outcome.bind_eq_ok_iff.mp hRead with
      ⟨part, hPart, hRead⟩
    cases hRead
    exact hFuel.pseudo (hSound.nextAny? hNext).2 hPart
  · exact absurd hRead (by simp)

theorem simples_succ
    (hFuel : SoundAt fuel)
    {cx : Context}
    {s : Stream}
    {r : List Simple × Stream}
    (hSound : s.Sound)
    (hRead : readSimples (fuel + 1) cx s = .ok r) :
    PartsSound cx r := by
  unfold readSimples at hRead
  rcases Outcome.bind_eq_ok_iff.mp hRead with
    ⟨next, hNext, hRead⟩
  split at hRead
  · cases hRead
    exact ⟨fun _ => .nil, hSound⟩
  · rename_i part s'
    rcases Outcome.bind_eq_ok_iff.mp hRead with
      ⟨⟨parts, s''⟩, hLater, hRead⟩
    rcases hFuel.simple hSound hNext with ⟨hFirst, hAfter⟩
    rcases hFuel.simples hAfter hLater with ⟨hParts, hRest⟩
    cases hRead
    refine ⟨?_, hRest⟩
    intro hNone
    simp only [partsCompare, Bool.or_eq_false_iff] at hNone
    exact .cons (hFirst hNone.1) (hParts hNone.2)

theorem compound_succ
    (hFuel : SoundAt fuel)
    {cx : Context}
    {s : Stream}
    {r : List Simple × Stream}
    (hSound : s.Sound)
    (hRead : readCompound (fuel + 1) cx s = .ok r) :
    CompoundSound cx r := by
  unfold readCompound at hRead
  rcases Outcome.bind_eq_ok_iff.mp hRead with
    ⟨⟨front, s'⟩, hType, hRead⟩
  rcases Outcome.bind_eq_ok_iff.mp hRead with
    ⟨⟨rest, s''⟩, hRest, hRead⟩
  rcases sound_readType (hSound.dropWhile _) hType with
    ⟨hFront, hAfter⟩
  cases hRead
  exact ⟨front, rest, rfl, hFront, hFuel.simples hAfter hRest⟩

theorem joined_succ
    (hFuel : SoundAt fuel)
    {cx : Context}
    {left : Complex}
    {s : Stream}
    {r : Complex × Stream}
    (hLeft : ComplexSound cx (left, s))
    (hRead : readJoined (fuel + 1) cx left s = .ok r) :
    ComplexSound cx r := by
  rcases hLeft with ⟨hFormed, hSound⟩
  have hNext := sound_readCombinator hSound
  unfold readJoined at hRead
  split at hRead
  · rename_i s' hCombinator
    rw [hCombinator] at hNext
    cases hRead
    exact ⟨hFormed, hNext⟩
  · rename_i k s' hCombinator
    rw [hCombinator] at hNext
    split at hRead
    · exact absurd hRead (by simp [failAt])
    rename_i hJoins
    rcases Outcome.bind_eq_ok_iff.mp hRead with
      ⟨⟨parts, s''⟩, hCompound, hRead⟩
    rcases hFuel.compound hNext hCompound with
      ⟨front, rest, rfl, hFront, hParts, hAfter⟩
    simp only at hRead
    split at hRead
    · exact absurd hRead (by simp [failAt])
    rename_i hSome
    refine hFuel.joined ⟨?_, hAfter⟩ hRead
    intro hNone
    simp only [Complex.compares, partsCompare_append,
      Bool.or_eq_false_iff] at hNone
    have hTrue : (!cx.noCombinators) = true := by
      simpa using hJoins
    rw [hTrue] at hFormed hParts ⊢
    exact
      .join k (hFormed hNone.1) hFront (hParts hNone.2.2)
        (by simpa using hSome)

theorem complex_succ
    (hFuel : SoundAt fuel)
    {cx : Context}
    {s : Stream}
    {r : Complex × Stream}
    (hSound : s.Sound)
    (hRead : readComplex (fuel + 1) cx s = .ok r) :
    ComplexSound cx r := by
  unfold readComplex at hRead
  rcases Outcome.bind_eq_ok_iff.mp hRead with
    ⟨⟨parts, s'⟩, hCompound, hRead⟩
  rcases hFuel.compound hSound hCompound with
    ⟨front, rest, rfl, hFront, hParts, hAfter⟩
  simp only at hRead
  split at hRead
  · exact absurd hRead (by simp [failAt])
  rename_i hSome
  refine hFuel.joined ⟨?_, hAfter⟩ hRead
  intro hNone
  simp only [Complex.compares, partsCompare_append,
    Bool.or_eq_false_iff] at hNone
  exact .compound hFront (hParts hNone.2) (by simpa using hSome)

theorem list_succ
    (hFuel : SoundAt fuel)
    {cx : Context}
    {s : Stream}
    {r : List Complex × Stream}
    (hSound : s.Sound)
    (hRead : readList (fuel + 1) cx s = .ok r) :
    ListSound cx r := by
  unfold readList at hRead
  rcases Stream.Sound.splitAt hSound (· == .comma) with
    ⟨hItem, hRest⟩
  rcases Outcome.bind_eq_ok_iff.mp hRead with
    ⟨⟨c, tail⟩, hComplex, hRead⟩
  rcases Outcome.bind_eq_ok_iff.mp hRead with ⟨_, hEnd, hRead⟩
  rcases hFuel.complex hItem hComplex with ⟨hFirst, _⟩
  split at hRead
  · cases hRead
    refine ⟨?_, hRest⟩
    intro hNone
    simp only [listCompares, Bool.or_eq_false_iff] at hNone
    exact .single (hFirst hNone.1)
  · rename_i t s' hComma
    rcases Outcome.bind_eq_ok_iff.mp hRead with
      ⟨⟨cs, s''⟩, hLater, hRead⟩
    rcases hFuel.list (hRest.uncons? hComma).2 hLater with
      ⟨hFormed, hAfter⟩
    cases hRead
    refine ⟨?_, hAfter⟩
    intro hNone
    simp only [listCompares, Bool.or_eq_false_iff] at hNone
    exact .cons (hFirst hNone.1) (hFormed hNone.2)

end SoundAt

/- With any fuel, every reader gives what is well-formed. -/
theorem soundAt
    (fuel : Nat) :
    SoundAt fuel := by
  induction fuel with
  | zero => exact soundAt_zero
  | succ fuel ih =>
      exact
        ⟨ih.pseudo_succ, ih.functional_succ, ih.simple_succ,
          ih.simples_succ, ih.compound_succ, ih.joined_succ,
          ih.complex_succ, ih.list_succ⟩

/- A list that is read from a text is well-formed. -/
theorem listFormed_of_parse
    {text : String}
    {list : SelectorList}
    (hParse : parse text = .ok list)
    (hNone : listCompares list = false) :
    ListFormed true list := by
  have hSound := Stream.sound_ofText text
  unfold parse at hParse
  simp only at hParse
  split at hParse
  · rename_i list' s' hRead
    cases hParse
    exact ((soundAt _).list hSound hRead).1 hNone
  · exact absurd hParse (by simp)

end MarkupMetrics.Selector
