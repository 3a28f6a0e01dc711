import MarkupMetrics.Proofs.Css.Lexing
import MarkupMetrics.Selector.Matching

/-
  This file tells which selectors a text can stand for, and
  what is left of a selector without the universal selectors
  that stand in front of others.

  Key definitions include:
    * `Selector.Nth.Formed`
    * `Selector.Front`
    * `Selector.ListFormed`
    * `Selector.listCompares`
    * `Selector.elide`
    * `Selector.bareList`
    * `Selector.listPadded`

  Key theorems include:
    * `Selector.listHolds_bareList`
    * `Selector.bareList_of_padded`
    * `Selector.ListFormed.bare`
    * `Selector.ListFormed.padded_bare`
-/

namespace MarkupMetrics.Selector

open Css Dom Text

------------------------------------------------------------
-- Well-formed selectors
------------------------------------------------------------

/- The numbers a position may be written with. -/
def InRange
    (n : Int) : Prop :=
  -2147483648 ≤ n ∧ n ≤ 2147483647

instance
    (n : Int) :
    Decidable (InRange n) :=
  inferInstanceAs (Decidable (_ ∧ _))

/-
  A position written with its coefficients counts from one
  end; a position that is a word has the coefficients of the
  first place.
-/
def Nth.Formed
    (n : Nth) : Prop :=
  match n.functional with
  | true =>
      n.kind ≠ .onlyChild ∧ n.kind ≠ .onlyOfType ∧
        InRange n.a ∧ InRange n.b
  | false => n.a = 0 ∧ n.b = 1

/- What may stand for a type in front of a compound. -/
inductive Front : List Simple → Prop where
  | nothing : Front []
  | any : Front [.anyName]
  | name
      {name : String}
      (hName : IsName name) :
      Front [.localName name]
  | noSpaceAny : Front [.noSpace, .anyName]
  | noSpaceName
      {name : String}
      (hName : IsName name) :
      Front [.noSpace, .localName name]

mutual

/-
  A simple selector that can be read behind a type, with no
  comparison of an attribute in it.  `joins` tells whether
  combinators are allowed inside.
-/
inductive Simple.Formed : Bool → Simple → Prop where
  | id
      {joins : Bool}
      {name : String}
      (hName : IsName name) :
      Simple.Formed joins (.id name)
  | className
      {joins : Bool}
      {name : String}
      (hName : IsName name) :
      Simple.Formed joins (.className name)
  | attr
      {joins : Bool}
      {name : String}
      (anySpace : Bool)
      (hName : IsName name) :
      Simple.Formed joins (.attribute ⟨anySpace, name, none⟩)
  | nth
      {joins : Bool}
      {test : Nth}
      (hTest : test.Formed) :
      Simple.Formed joins (.nth test)
  | root
      {joins : Bool} :
      Simple.Formed joins .root
  | empty
      {joins : Bool} :
      Simple.Formed joins .empty
  | scope
      {joins : Bool} :
      Simple.Formed joins .scope
  | negation
      {joins : Bool}
      {list : List Complex}
      (hList : ListFormed joins list) :
      Simple.Formed joins (.negation list)
  | host
      {joins : Bool}
      {inner : Complex}
      (hInner : Complex.Formed false inner) :
      Simple.Formed joins (.host inner)

/- Simple selectors behind a type. -/
inductive PartsFormed : Bool → List Simple → Prop where
  | nil
      {joins : Bool} :
      PartsFormed joins []
  | cons
      {joins : Bool}
      {s : Simple}
      {rest : List Simple}
      (hFirst : Simple.Formed joins s)
      (hRest : PartsFormed joins rest) :
      PartsFormed joins (s :: rest)

/- Compounds of a type and other parts, joined if allowed. -/
inductive Complex.Formed : Bool → Complex → Prop where
  | compound
      {joins : Bool}
      {front rest : List Simple}
      (hFront : Front front)
      (hRest : PartsFormed joins rest)
      (hSome : front ++ rest ≠ []) :
      Complex.Formed joins (.compound (front ++ rest))
  | join
      {left : Complex}
      {front rest : List Simple}
      (k : Combinator)
      (hLeft : Complex.Formed true left)
      (hFront : Front front)
      (hRest : PartsFormed true rest)
      (hSome : front ++ rest ≠ []) :
      Complex.Formed true (.join left k (front ++ rest))

/- At least one alternative. -/
inductive ListFormed : Bool → List Complex → Prop where
  | single
      {joins : Bool}
      {c : Complex}
      (hItem : Complex.Formed joins c) :
      ListFormed joins [c]
  | cons
      {joins : Bool}
      {c : Complex}
      {rest : List Complex}
      (hItem : Complex.Formed joins c)
      (hRest : ListFormed joins rest) :
      ListFormed joins (c :: rest)

end

------------------------------------------------------------
-- Comparisons
------------------------------------------------------------

mutual

/- Whether an attribute value is compared in a simple selector. -/
def Simple.compares : Simple → Bool
  | .attribute test => test.compare.isSome
  | .negation list => listCompares list
  | .host inner => inner.compares
  | _ => false

/- Whether an attribute value is compared in one of the parts. -/
def partsCompare : List Simple → Bool
  | [] => false
  | s :: rest => s.compares || partsCompare rest

/- Whether an attribute value is compared in a selector. -/
def Complex.compares : Complex → Bool
  | .compound parts => partsCompare parts
  | .join left _ parts => left.compares || partsCompare parts

/- Whether an attribute value is compared in an alternative. -/
def listCompares : List Complex → Bool
  | [] => false
  | c :: rest => c.compares || listCompares rest

end

theorem partsCompare_append
    (front rest : List Simple) :
    partsCompare (front ++ rest) =
      (partsCompare front || partsCompare rest) := by
  induction front with
  | nil => rfl
  | cons s front ih =>
      simp only [List.cons_append, partsCompare, ih, Bool.or_assoc]

------------------------------------------------------------
-- Universal selectors
------------------------------------------------------------

/- Whether a universal selector stands in front of others. -/
def padding : List Simple → Bool
  | .anyName :: _ :: _ => true
  | _ => false

/- A universal selector in front of others says nothing. -/
def elide : List Simple → List Simple
  | .anyName :: s :: rest => s :: rest
  | parts => parts

mutual

/- A simple selector without needless universal ones. -/
def Simple.bare : Simple → Simple
  | .negation list => .negation (bareList list)
  | .host inner => .host inner.bare
  | s => s

/- Simple selectors, each without needless universal ones. -/
def bareParts : List Simple → List Simple
  | [] => []
  | s :: rest => s.bare :: bareParts rest

/- A complex selector without needless universal ones. -/
def Complex.bare : Complex → Complex
  | .compound parts => .compound (elide (bareParts parts))
  | .join left k parts =>
      .join left.bare k (elide (bareParts parts))

/- Alternatives without needless universal selectors. -/
def bareList : List Complex → List Complex
  | [] => []
  | c :: rest => c.bare :: bareList rest

end

theorem bareParts_append
    (front rest : List Simple) :
    bareParts (front ++ rest) =
      bareParts front ++ bareParts rest := by
  induction front with
  | nil => rfl
  | cons s front ih => simp only [List.cons_append, bareParts, ih]

theorem padding_of_ne
    {s : Simple}
    (hOther : s ≠ .anyName)
    (rest : List Simple) :
    padding (s :: rest) = false := by
  unfold padding
  split
  · rename_i hParts
    exact absurd (List.cons.inj hParts).1 hOther
  · rfl

theorem elide_of_padding
    {parts : List Simple}
    (hPadding : padding parts = false) :
    elide parts = parts := by
  unfold elide
  split
  · exact absurd hPadding (by simp [padding])
  · rfl

theorem elide_of_ne
    {s : Simple}
    (hOther : s ≠ .anyName)
    (rest : List Simple) :
    elide (s :: rest) = s :: rest :=
  elide_of_padding (padding_of_ne hOther rest)

theorem elide_ne_nil
    {parts : List Simple}
    (hSome : parts ≠ []) :
    elide parts ≠ [] := by
  unfold elide
  split
  · simp
  · exact hSome

theorem Simple.bare_ne_anyName
    {s : Simple}
    (hOther : s ≠ .anyName) :
    s.bare ≠ .anyName := by
  cases s with
  | anyName => exact absurd rfl hOther
  | _ => simp [Simple.bare]

/- Dropping a universal selector and looking inside commute. -/
theorem elide_bareParts
    (parts : List Simple) :
    elide (bareParts parts) = bareParts (elide parts) := by
  cases parts with
  | nil => rfl
  | cons s rest =>
      by_cases hAny : s = .anyName
      · subst hAny
        cases rest <;> rfl
      · rw [elide_of_ne hAny, bareParts,
          elide_of_ne (Simple.bare_ne_anyName hAny)]

------------------------------------------------------------
-- Padding
------------------------------------------------------------

mutual

/- Whether a compound inside a simple selector is padded. -/
def Simple.padded : Simple → Bool
  | .negation list => listPadded list
  | .host inner => inner.padded
  | _ => false

/- Whether a compound inside one of the parts is padded. -/
def partsPadded : List Simple → Bool
  | [] => false
  | s :: rest => s.padded || partsPadded rest

/- Whether a compound of a complex selector is padded. -/
def Complex.padded : Complex → Bool
  | .compound parts => padding parts || partsPadded parts
  | .join left _ parts =>
      left.padded || padding parts || partsPadded parts

/- Whether a compound of an alternative is padded. -/
def listPadded : List Complex → Bool
  | [] => false
  | c :: rest => c.padded || listPadded rest

end

theorem partsPadded_append
    (front rest : List Simple) :
    partsPadded (front ++ rest) =
      (partsPadded front || partsPadded rest) := by
  induction front with
  | nil => rfl
  | cons s front ih =>
      simp only [List.cons_append, partsPadded, ih, Bool.or_assoc]

mutual

theorem Simple.bare_of_padded :
    (s : Simple) → s.padded = false → s.bare = s
  | .negation list, hPadded => by
      rw [Simple.bare, bareList_of_padded list hPadded]
  | .host inner, hPadded => by
      rw [Simple.bare, inner.bare_of_padded hPadded]
  | .anyName, _ | .noSpace, _ | .localName _, _ | .id _, _
  | .className _, _ | .attribute _, _ | .nth _, _ | .root, _
  | .empty, _ | .scope, _ => rfl

theorem bareParts_of_padded :
    (parts : List Simple) →
      partsPadded parts = false → bareParts parts = parts
  | [], _ => rfl
  | s :: rest, hPadded => by
      simp only [partsPadded, Bool.or_eq_false_iff] at hPadded
      rw [bareParts, s.bare_of_padded hPadded.1,
        bareParts_of_padded rest hPadded.2]

theorem Complex.bare_of_padded :
    (c : Complex) → c.padded = false → c.bare = c
  | .compound parts, hPadded => by
      simp only [Complex.padded, Bool.or_eq_false_iff] at hPadded
      rw [Complex.bare, bareParts_of_padded parts hPadded.2,
        elide_of_padding hPadded.1]
  | .join left k parts, hPadded => by
      simp only [Complex.padded, Bool.or_eq_false_iff] at hPadded
      rw [Complex.bare, left.bare_of_padded hPadded.1.1,
        bareParts_of_padded parts hPadded.2,
        elide_of_padding hPadded.1.2]

/- Without padding nothing is dropped. -/
theorem bareList_of_padded :
    (list : List Complex) →
      listPadded list = false → bareList list = list
  | [], _ => rfl
  | c :: rest, hPadded => by
      simp only [listPadded, Bool.or_eq_false_iff] at hPadded
      rw [bareList, c.bare_of_padded hPadded.1,
        bareList_of_padded rest hPadded.2]

end

------------------------------------------------------------
-- Matching
------------------------------------------------------------

theorem compoundHolds_elide
    (t : Tree)
    (x : NodeId)
    (e : Element)
    (parts : List Simple) :
    compoundHolds t x e (elide parts) =
      compoundHolds t x e parts := by
  unfold elide
  split
  · simp [compoundHolds, Simple.holds]
  · rfl

mutual

theorem Simple.holds_bare
    (t : Tree)
    (x : NodeId)
    (e : Element) :
    (s : Simple) → s.bare.holds t x e = s.holds t x e
  | .negation list => by
      simp only [Simple.bare, Simple.holds,
        listHolds_bareList t x list]
  | .host _ => rfl
  | .anyName | .noSpace | .localName _ | .id _ | .className _
  | .attribute _ | .nth _ | .root | .empty | .scope => rfl

theorem compoundHolds_bareParts
    (t : Tree)
    (x : NodeId)
    (e : Element) :
    (parts : List Simple) →
      compoundHolds t x e (bareParts parts) =
        compoundHolds t x e parts
  | [] => rfl
  | s :: rest => by
      simp only [bareParts, compoundHolds, s.holds_bare t x e,
        compoundHolds_bareParts t x e rest]

theorem Complex.holds_bare
    (t : Tree)
    (x : NodeId) :
    (c : Complex) → c.bare.holds t x = c.holds t x
  | .compound parts => by
      simp only [Complex.bare, Complex.holds,
        compoundHolds_elide, compoundHolds_bareParts t x _ parts]
  | .join left k parts => by
      have hLeft (y : NodeId) := left.holds_bare t y
      simp only [Complex.bare, Complex.holds, hLeft,
        compoundHolds_elide, compoundHolds_bareParts t x _ parts]

/- The same elements match. -/
theorem listHolds_bareList
    (t : Tree)
    (x : NodeId) :
    (list : List Complex) →
      listHolds t x (bareList list) = listHolds t x list
  | [] => rfl
  | c :: rest => by
      simp only [bareList, listHolds, c.holds_bare t x,
        listHolds_bareList t x rest]

end

------------------------------------------------------------
-- Well-formed selectors without needless parts
------------------------------------------------------------

theorem bareParts_of_front
    {front : List Simple}
    (hFront : Front front) :
    bareParts front = front := by
  cases hFront <;> rfl

theorem Simple.Formed.ne_anyName
    {joins : Bool}
    {s : Simple}
    (hFormed : s.Formed joins) :
    s ≠ .anyName := by
  rintro rfl
  cases hFormed

theorem PartsFormed.padding
    {joins : Bool}
    {parts : List Simple}
    (hParts : PartsFormed joins parts) :
    padding parts = false := by
  cases hParts with
  | nil => rfl
  | cons hFirst _ => exact padding_of_ne hFirst.ne_anyName _

/- What is left in front of a compound is a front again. -/
theorem elide_of_front
    {front rest : List Simple}
    {joins : Bool}
    (hFront : Front front)
    (hRest : PartsFormed joins rest) :
    ∃ front',
      Front front' ∧ elide (front ++ rest) = front' ++ rest ∧
        padding (front' ++ rest) = false := by
  cases hFront with
  | nothing =>
      exact ⟨[], .nothing, elide_of_padding hRest.padding,
        hRest.padding⟩
  | any =>
      cases rest with
      | nil => exact ⟨[.anyName], .any, rfl, rfl⟩
      | cons s rest => exact ⟨[], .nothing, rfl, hRest.padding⟩
  | name hName => exact ⟨_, .name hName, rfl, rfl⟩
  | noSpaceAny => exact ⟨_, .noSpaceAny, rfl, rfl⟩
  | noSpaceName hName => exact ⟨_, .noSpaceName hName, rfl, rfl⟩

/- A compound stays one of a front and other parts. -/
theorem elide_bareParts_of_front
    {front rest : List Simple}
    {joins : Bool}
    (hFront : Front front)
    (hRest : PartsFormed joins (bareParts rest))
    (hSome : front ++ rest ≠ []) :
    ∃ front',
      Front front' ∧ front' ++ bareParts rest ≠ [] ∧
        elide (bareParts (front ++ rest)) =
          front' ++ bareParts rest ∧
        padding (front' ++ bareParts rest) = false := by
  have hParts :
      bareParts (front ++ rest) =
        front ++ bareParts rest := by
    rw [bareParts_append, bareParts_of_front hFront]
  rcases elide_of_front hFront hRest with
    ⟨front', hFront', hElide, hPadding⟩
  refine ⟨front', hFront', ?_, by rw [hParts, hElide], hPadding⟩
  rw [← hElide]
  refine elide_ne_nil ?_
  intro hNone
  simp only [List.append_eq_nil_iff] at hNone
  refine hSome (List.append_eq_nil_iff.mpr ⟨hNone.1, ?_⟩)
  cases rest with
  | nil => rfl
  | cons s rest => exact absurd hNone.2 (by simp [bareParts])

mutual

theorem Simple.Formed.bare :
    {joins : Bool} → {s : Simple} → s.Formed joins →
      s.bare.Formed joins
  | _, _, .id hName => .id hName
  | _, _, .className hName => .className hName
  | _, _, .attr anySpace hName => .attr anySpace hName
  | _, _, .nth hTest => .nth hTest
  | _, _, .root => .root
  | _, _, .empty => .empty
  | _, _, .scope => .scope
  | _, _, .negation hList => .negation hList.bare
  | _, _, .host hInner => .host hInner.bare

theorem PartsFormed.bare :
    {joins : Bool} → {parts : List Simple} →
      PartsFormed joins parts → PartsFormed joins (bareParts parts)
  | _, _, .nil => .nil
  | _, _, .cons hFirst hRest => .cons hFirst.bare hRest.bare

theorem Complex.Formed.bare :
    {joins : Bool} → {c : Complex} → c.Formed joins →
      c.bare.Formed joins
  | _, _, .compound hFront hRest hSome => by
      rcases elide_bareParts_of_front hFront hRest.bare hSome with
        ⟨front, hFront, hSome, hParts, _⟩
      rw [Complex.bare, hParts]
      exact .compound hFront hRest.bare hSome
  | _, _, .join k hLeft hFront hRest hSome => by
      rcases elide_bareParts_of_front hFront hRest.bare hSome with
        ⟨front, hFront, hSome, hParts, _⟩
      rw [Complex.bare, hParts]
      exact .join k hLeft.bare hFront hRest.bare hSome

/- What is left of a well-formed list is one. -/
theorem ListFormed.bare :
    {joins : Bool} → {list : List Complex} →
      ListFormed joins list → ListFormed joins (bareList list)
  | _, _, .single hItem => .single hItem.bare
  | _, _, .cons hItem hRest => .cons hItem.bare hRest.bare

end

theorem partsPadded_of_front
    {front : List Simple}
    (hFront : Front front) :
    partsPadded front = false := by
  cases hFront <;> rfl

/- A compound without its padding, with none in its parts. -/
theorem padded_of_front
    {front rest : List Simple}
    {joins : Bool}
    (hFront : Front front)
    (hRest : PartsFormed joins (bareParts rest))
    (hSome : front ++ rest ≠ [])
    (hPadded : partsPadded (bareParts rest) = false) :
    padding (elide (bareParts (front ++ rest))) = false ∧
      partsPadded (elide (bareParts (front ++ rest))) = false := by
  rcases elide_bareParts_of_front hFront hRest hSome with
    ⟨front', hFront', _, hParts, hPadding⟩
  rw [hParts, partsPadded_append, partsPadded_of_front hFront',
    hPadded]
  exact ⟨hPadding, rfl⟩

mutual

theorem Simple.Formed.padded_bare :
    {joins : Bool} → {s : Simple} → s.Formed joins →
      s.bare.padded = false
  | _, _, .negation hList => hList.padded_bare
  | _, _, .host hInner => hInner.padded_bare
  | _, _, .id _ | _, _, .className _ | _, _, .attr _ _
  | _, _, .nth _ | _, _, .root | _, _, .empty | _, _, .scope =>
      rfl

theorem PartsFormed.padded_bare :
    {joins : Bool} → {parts : List Simple} →
      PartsFormed joins parts → partsPadded (bareParts parts) = false
  | _, _, .nil => rfl
  | _, _, .cons hFirst hRest => by
      rw [bareParts, partsPadded, hFirst.padded_bare,
        hRest.padded_bare, Bool.or_false]

theorem Complex.Formed.padded_bare :
    {joins : Bool} → {c : Complex} → c.Formed joins →
      c.bare.padded = false
  | _, _, .compound hFront hRest hSome => by
      have hParts :=
        padded_of_front hFront hRest.bare hSome hRest.padded_bare
      rw [Complex.bare, Complex.padded, hParts.1, hParts.2,
        Bool.or_false]
  | _, _, .join _ hLeft hFront hRest hSome => by
      have hParts :=
        padded_of_front hFront hRest.bare hSome hRest.padded_bare
      rw [Complex.bare, Complex.padded, hLeft.padded_bare,
        hParts.1, hParts.2, Bool.or_false, Bool.or_false]

/- Nothing that is left is padded. -/
theorem ListFormed.padded_bare :
    {joins : Bool} → {list : List Complex} →
      ListFormed joins list → listPadded (bareList list) = false
  | _, _, .single hItem => by
      rw [bareList, bareList, listPadded, listPadded,
        hItem.padded_bare, Bool.or_false]
  | _, _, .cons hItem hRest => by
      rw [bareList, listPadded, hItem.padded_bare,
        hRest.padded_bare, Bool.or_false]

end

end MarkupMetrics.Selector
