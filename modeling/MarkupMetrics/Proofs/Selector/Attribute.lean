import MarkupMetrics.Proofs.Dom.Grafts
import MarkupMetrics.Proofs.Dom.Sweep
import MarkupMetrics.Proofs.Outcome
import MarkupMetrics.Proofs.Selector.RoundTrip
import MarkupMetrics.Selector.Query

/-
  This file proves what a search for an attribute finds: the
  elements below a node that carry the attribute.  Once markup
  is grafted onto a node, it finds what it found before, and
  what it finds below that node.

  Key definitions include:
    * `Css.IsIdentifier`
    * `Selector.alone`
    * `Tree.CarriesBelow`
    * `Tree.Finds`

  Key theorems include:
    * `Selector.parse_alone`
    * `Selector.parse_bracketed`
    * `Tree.exists_finds_bracketed`
    * `Tree.Grafted.carrying_iff`
-/

namespace MarkupMetrics

------------------------------------------------------------
-- Identifiers
------------------------------------------------------------

namespace Css

/- A name that can be written as it is, without any escape. -/
structure IsIdentifier
    (name : String) : Prop where
  starts : startsName name.toList = true
  solid : ∀ c ∈ name.toList, isNameChar c = true

end Css

namespace Selector

open Css Dom

theorem renderName_of_solid
    {s : List Char}
    (hSolid : ∀ c ∈ s, isNameChar c = true) :
    renderName s = s := by
  induction s with
  | nil => rfl
  | cons c rest ih =>
      have hFirst : renderNameChar c = [c] := by
        rw [renderNameChar, ← isNameChar_eq_printed,
          if_pos (hSolid c List.mem_cons_self)]
      rw [renderName, List.flatMap_cons, hFirst, ← renderName,
        ih fun c' hMember =>
          hSolid c' (List.mem_cons_of_mem c hMember)]
      rfl

theorem renderNameStart_of_solid
    {c : Char}
    {rest : List Char}
    (hStart : isNameStart c = true)
    (hSolid : ∀ c' ∈ c :: rest, isNameChar c' = true) :
    renderNameStart (c :: rest) = c :: rest := by
  have hDigit : c.isDigit = false :=
    isDigit_eq_false_of_isNameStart hStart
  rw [renderNameStart, hDigit, if_neg Bool.false_ne_true,
    renderName_of_solid hSolid]

/- A solid name that may start an identifier is one. -/
theorem renderIdent_of_solid
    {s : List Char}
    (hStarts : startsName s = true)
    (hSolid : ∀ c ∈ s, isNameChar c = true) :
    renderIdent s = s := by
  have hPlain :
      ∀ c ∈ s, c ≠ '\\' ∧ c ≠ '\x00' := by
    intro c hMember
    have hChar := hSolid c hMember
    constructor
    · rintro rfl
      exact absurd hChar (by decide)
    · rintro rfl
      exact absurd hChar (by decide)
  unfold renderIdent
  split
  · rename_i rest
    rw [renderName_of_solid fun c hMember =>
      hSolid c (by simp [hMember])]
  · exact absurd hStarts (by decide)
  · rename_i rest hNotMinus hNotAlone
    cases rest with
    | nil => exact (hNotAlone rfl).elim
    | cons c rest =>
        have hMinus : c ≠ '-' := fun hSame =>
          hNotMinus rest (by rw [hSame])
        have hStart : isNameStart c = true := by
          simpa [startsName, hMinus, hPlain c (by simp)]
            using hStarts
        rw [renderNameStart_of_solid hStart fun c' hMember =>
          hSolid c' (List.mem_cons_of_mem '-' hMember)]
  · rename_i hNotMinus
    cases s with
    | nil => exact absurd hStarts (by decide)
    | cons c rest =>
        have hMinus : c ≠ '-' := fun hSame =>
          hNotMinus rest (by rw [hSame])
        have hStart : isNameStart c = true := by
          have hOthers := hPlain c List.mem_cons_self
          unfold startsName at hStarts
          split at hStarts
          · rename_i hText
            exact (hMinus (List.cons.inj hText).1).elim
          · rename_i hText
            exact (hOthers.1 (List.cons.inj hText).1).elim
          · rename_i hText
            rw [(List.cons.inj hText).1]
            rw [(List.cons.inj hText).1] at hOthers
            simpa [hOthers] using hStarts
          · exact absurd hStarts Bool.false_ne_true
        exact renderNameStart_of_solid hStart hSolid

theorem identText_of_identifier
    {name : String}
    (hName : IsIdentifier name) :
    identText name = name := by
  rw [identText, renderIdent_of_solid hName.starts hName.solid,
    String.ofList_toList]

theorem isName_of_identifier
    {name : String}
    (hName : IsIdentifier name) :
    IsName name := by
  constructor
  · intro hEmpty
    have hStarts := hName.starts
    rw [hEmpty] at hStarts
    exact absurd hStarts (by decide)
  · intro hNull
    exact absurd (hName.solid _ hNull) (by decide)

------------------------------------------------------------
-- One simple selector
------------------------------------------------------------

/- The selector of the elements that match a simple one. -/
def alone
    (s : Simple) : SelectorList :=
  [.compound [s]]

/- What is written for one simple selector is read back. -/
theorem parse_alone
    {s : Simple}
    (hFormed : Simple.Formed true s) :
    parse s.render = .ok (alone s.bare) := by
  have hList : ListFormed true (alone s) :=
    .single
      (.compound .nothing (.cons hFormed .nil)
        (List.cons_ne_nil _ _))
  have hText : renderList (alone s) = s.render := by
    cases hFormed <;>
      simp [alone, renderList, Complex.render, renderCompound,
        renderNamed]
  have hBare : bareList (alone s) = alone s.bare := by
    simp [bareList, alone, Complex.bare, bareParts, elide]
  rw [← hText, parse_renderList hList, hBare]

/- An element matches it if the simple selector holds of it. -/
theorem matchesList_alone
    {t : Tree}
    {x : NodeId}
    {e : Element}
    (hElement : t.elementAt? x = some e)
    (s : Simple) :
    matchesList t (alone s) x = s.holds t x e := by
  simp [matchesList, alone, listHolds, Complex.holds,
    compoundHolds, hElement]

/- The selector of the elements that have an attribute. -/
def bracketed
    (name : String) : SelectorList :=
  [.compound [.attribute ⟨false, name, none⟩]]

/- An identifier in brackets is read as the test of it. -/
theorem parse_bracketed
    {name : String}
    (hName : IsIdentifier name) :
    parse ("[" ++ name ++ "]") = .ok (bracketed name) := by
  have hText :
      Simple.render (.attribute ⟨false, name, none⟩) =
        "[" ++ name ++ "]" := by
    simp [Simple.render, AttrTest.render,
      identText_of_identifier hName]
  rw [← hText]
  exact parse_alone (.attr false (isName_of_identifier hName))

end Selector

------------------------------------------------------------
-- Carrying an attribute
------------------------------------------------------------

namespace Dom

namespace Tree

open Css Selector

/- An element has an attribute with a plain name. -/
def Carries
    (t : Tree)
    (x : NodeId)
    (name : String) : Prop :=
  ∃ e, t.elementAt? x = some e ∧
    ∃ a ∈ e.attrs,
      a.name.space = .none ∧ a.name.local_ = name

/- An element below a node carries an attribute. -/
def CarriesBelow
    (t : Tree)
    (scope : NodeId)
    (name : String)
    (x : NodeId) : Prop :=
  x ≠ scope ∧ t.Within x scope ∧ t.Carries x name

/- In lower case the name is the same on every element. -/
theorem matchesList_bracketed_iff
    {t : Tree}
    {x : NodeId}
    {name : String}
    (hLower : lower name = name) :
    matchesList t (bracketed name) x = true ↔
      t.Carries x name := by
  have hFor : ∀ e, nameFor e name = name := by
    intro e
    rw [nameFor, hLower, ite_self]
  cases hElement : t.elementAt? x with
  | none =>
      simp [matchesList, bracketed, listHolds, Complex.holds,
        hElement, Carries]
  | some e =>
      simp [matchesList, bracketed, listHolds, Complex.holds,
        compoundHolds, Simple.holds, AttrTest.holds, hFor,
        hElement, Carries]

/- The result of a search is known. -/
def Finds
    (t : Tree)
    (scope : NodeId)
    (source : String)
    (found : List NodeId) : Prop :=
  ∀ found', (t.find scope source).Gives found' ↔ found' = found

/-
  The search for an attribute comes to an end.  It finds each
  of the elements below the scope that carry the attribute,
  and finds it once.
-/
theorem exists_finds_bracketed
    {t : Tree}
    {scope : NodeId}
    {name : String}
    (hLinked : t.Linked)
    (hScope : t.contains scope = true)
    (hName : IsIdentifier name)
    (hLower : lower name = name) :
    ∃ found,
      t.Finds scope ("[" ++ name ++ "]") found ∧
        found.Nodup ∧
          ∀ x, x ∈ found ↔ t.CarriesBelow scope name x := by
  rcases exists_descendants hLinked scope with ⟨below, hBelow⟩
  refine
    ⟨below.filter (matchesList t (bracketed name)), ?_, ?_, ?_⟩
  · intro found'
    have hRead :
        Selector.read? ("[" ++ name ++ "]") =
          pure (some (bracketed name)) := by
      simp [Selector.read?, parse_bracketed hName]
    rw [find, hRead, pure_bind]
    simp only
    rw [Trace.gives_ofExcept_iff, findAll, hBelow,
      Outcome.ok_bind, Outcome.pure_eq_ok_iff, eq_comm]
  · exact (nodup_of_descendants hLinked hBelow).filter _
  · intro x
    rw [List.mem_filter, matchesList_bracketed_iff hLower,
      mem_descendants_iff hLinked hScope hBelow, and_assoc,
      CarriesBelow]

------------------------------------------------------------
-- After a graft
------------------------------------------------------------

theorem contains_of_carries
    {t : Tree}
    {x : NodeId}
    {name : String}
    (hCarries : t.Carries x name) :
    t.contains x = true := by
  rcases hCarries with ⟨e, hElement, _⟩
  rcases Option.bind_eq_some_iff.mp hElement with
    ⟨n, hNode, _⟩
  exact contains_of_get? hNode

/-
  If no element below the owner carries an attribute, then the
  elements that carry it after a graft are those that did, and
  those below the owner; and none is both.
-/
theorem Grafted.carrying_iff
    {t t' : Tree}
    {owner : NodeId}
    {name : String}
    (hGrafted : Grafted owner t t')
    (hLinked : t.Linked)
    (hOwner : t.contains owner = true)
    (hAttached : t.Within owner 0)
    (hBare : ∀ x, ¬ t.CarriesBelow owner name x)
    (x : NodeId) :
    (t'.CarriesBelow 0 name x ↔
      t.CarriesBelow 0 name x ∨
        t'.CarriesBelow owner name x) ∧
      ¬ (t.CarriesBelow 0 name x ∧
        t'.CarriesBelow owner name x) := by
  have hCarries :
      t.contains x = true →
        (t'.Carries x name ↔ t.Carries x name) := by
    intro hOld
    rw [Carries, hGrafted.elementAt?_eq hOld, Carries]
  have hUp : t'.Within owner 0 :=
    (hGrafted.within_iff hLinked hOwner).mpr hAttached
  constructor
  · constructor
    · rintro ⟨hInside, hWithin, hHere⟩
      cases hOld : t.contains x with
      | true =>
          exact
            Or.inl
              ⟨hInside,
                (hGrafted.within_iff hLinked hOld).mp hWithin,
                (hCarries hOld).mp hHere⟩
      | false =>
          have hOther : x ≠ owner := by
            rintro rfl
            rw [hOwner] at hOld
            cases hOld
          exact
            Or.inr
              ⟨hOther,
                hGrafted.within_owner hOld
                  (contains_of_carries hHere),
                hHere⟩
    · rintro (⟨hInside, hWithin, hHere⟩ |
        ⟨hOther, hWithin, hHere⟩)
      · have hOld := contains_of_carries hHere
        exact
          ⟨hInside,
            (hGrafted.within_iff hLinked hOld).mpr hWithin,
            (hCarries hOld).mpr hHere⟩
      · refine ⟨?_, hWithin.trans hUp, hHere⟩
        rintro rfl
        exact
          hOther (hGrafted.linked.eq_of_within hWithin hUp)
  · rintro ⟨⟨_, _, hHere⟩, hOther, hWithin, _⟩
    have hOld := contains_of_carries hHere
    exact
      hBare x
        ⟨hOther, (hGrafted.within_iff hLinked hOld).mp hWithin,
          hHere⟩

end Tree

end Dom

end MarkupMetrics
