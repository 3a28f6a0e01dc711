import MarkupMetrics.Proofs.Css.Strings
import MarkupMetrics.Proofs.Dom.Attributes
import MarkupMetrics.Proofs.Selector.Attribute

/-
  This file proves what it means to select elements by an
  attribute: a name in brackets, alone or with a value that is
  written as a string.

  Only attributes without namespace count, and on an HTML
  element the name is taken in lower case.

  Key definitions include:
    * `Selector.tested`
    * `Selector.equals`
    * `Selector.Agrees`

  Key theorems include:
    * `Selector.parse_of_brackets`
    * `Selector.parse_equals`
    * `Selector.matchesList_tested`
    * `Selector.Agrees.isSome_attr?_iff`
    * `Selector.Agrees.holds_equals`
-/

namespace MarkupMetrics

namespace Selector

open Css Dom

------------------------------------------------------------
-- One pair of brackets
------------------------------------------------------------

/- The selector of the elements that pass one test. -/
def tested
    (test : AttrTest) : SelectorList :=
  [.compound [.attribute test]]

/- One pair of brackets is a selector of its own. -/
theorem readComplex_brackets
    (fuel : Nat)
    {inner : List Token}
    {test : AttrTest}
    (hInner : Balanced (· == .closeSquareBracket) inner)
    (hRead :
      ∀ s : Stream, s.tokens = inner →
        ∃ s', readAttribute s = .ok (test, s') ∧ s'.tokens = [])
    {s : Stream}
    (hTokens :
      s.tokens =
        .squareBracketBlock :: (inner ++ [.closeSquareBracket])) :
    ∃ s',
      readComplex (fuel + 5) {} s =
          .ok (.compound [.attribute test], s') ∧
        s'.tokens = [] := by
  have hSkip : s.skipTrivia.tokens = s.tokens := by
    rw [Stream.skipTrivia, Stream.tokens_dropWhile, hTokens]
    rfl
  have hBehind : Behind s.skipTrivia.tokens := by
    intro t hFirst
    rw [hSkip, hTokens] at hFirst
    cases hFirst
    exact Or.inr (Or.inr (Or.inl rfl))
  rcases readType_nothing hBehind with ⟨s₁, hType, hSame⟩
  rcases
    readSimple?_brackets (fuel + 1) {} hInner hRead
      (hSame.trans (hSkip.trans hTokens)) with
    ⟨s₂, hSimple, hEnd⟩
  have hStop :
      readSimple? (fuel + 1) {} s₂ = .ok none :=
    readSimple?_stops fuel {} (by rw [hEnd]; exact stops_nil)
  have hCompound :
      readCompound (fuel + 4) {} s =
        .ok ([.attribute test], s₂) := by
    simp [readCompound, hType, readSimples, hSimple, hStop]
  refine ⟨s₂.atEnd, ?_, rfl⟩
  rw [readComplex, hCompound]
  exact readJoined_end (by omega) {} _ hEnd

/-
  A text of one pair of brackets is read as the test that is
  read inside of them.
-/
theorem parse_of_brackets
    {text : String}
    {inner : List Token}
    {test : AttrTest}
    (hTokens :
      (Stream.ofText text).tokens =
        .squareBracketBlock :: (inner ++ [.closeSquareBracket]))
    (hInner :
      ∀ {stop : Token → Bool}, Outer stop → Balanced stop inner)
    (hRead :
      ∀ s : Stream, s.tokens = inner →
        ∃ s', readAttribute s = .ok (test, s') ∧ s'.tokens = []) :
    parse text = .ok (tested test) := by
  have hFuel :
      ∃ fuel, fuelFor (Stream.ofText text) = fuel + 6 :=
    ⟨fuelFor (Stream.ofText text) - 6, by unfold fuelFor; omega⟩
  rcases hFuel with ⟨fuel, hFuel⟩
  have hWhole :
      Balanced (· == .comma)
        (.squareBracketBlock :: (inner ++ [.closeSquareBracket])) :=
    outer_comma.block rfl (hInner outer_never) .nil
  have hParts :=
    Stream.tokens_splitAt hWhole (by simp)
      (hTokens.trans (List.append_nil _).symm)
  rcases
    readComplex_brackets fuel
      (hInner (outer_closer .closeSquareBracket rfl)) hRead
      hParts.1 with
    ⟨tail, hItem, hEnd⟩
  have hNone := Stream.uncons?_eq_none hParts.2
  rw [parse, hFuel, readList]
  simp [hItem, expectEnd_of_tokens hEnd, hNone, tested]

------------------------------------------------------------
-- A value in the brackets
------------------------------------------------------------

/- How a value is compared if nothing is said about it. -/
def plainRule
    (name : String) : CaseRule :=
  if caselessAttributes.contains (lower name) then .byElement
  else .sensitive

/- The test that an attribute has a value. -/
def equals
    (name value : String) : AttrTest :=
  ⟨false, name, some ⟨.equal, value, plainRule name⟩⟩

/- The tokens of a name with a value behind an equals sign. -/
def equalsTokens
    (name value : String) : List Token :=
  [.ident name, .delim '=', .quotedString value]

theorem balanced_equalsTokens
    (name value : String)
    {stop : Token → Bool}
    (hOuter : Outer stop) :
    Balanced stop (equalsTokens name value) :=
  hOuter.plain (by simp) rfl rfl
    (hOuter.plain (by simp) rfl rfl
      (hOuter.plain (by simp) rfl rfl .nil))

/- A value that is a string is compared with. -/
theorem readAttribute_equalsTokens
    {name value : String}
    (s : Stream)
    (hTokens : s.tokens = equalsTokens name value) :
    ∃ s',
      readAttribute s = .ok (equals name value, s') ∧
        s'.tokens = [] := by
  have hSkip : s.skipTrivia.tokens = equalsTokens name value := by
    rw [Stream.skipTrivia, Stream.tokens_dropWhile, hTokens]
    rfl
  rcases Stream.nextAny?_of_tokens hSkip (by simp) with
    ⟨s₁, hName, hSign⟩
  rcases Stream.nextAny?_of_tokens hSign (by simp) with
    ⟨s₂, hNoBar, _⟩
  rcases Stream.next?_of_tokens (s := s₁) (by rw [hSign]; rfl) with
    ⟨s₃, hEquals, hString⟩
  rcases Stream.next?_of_tokens (s := s₃) (by rw [hString]; rfl)
    with ⟨s₄, hValue, hEnd⟩
  have hNone := Stream.next?_eq_none hEnd
  have hQualified :
      readQualified true s.skipTrivia =
        .ok (.name .absent (some name), s₁) := by
    simp [readQualified, hName, hNoBar]
  have hFlag :
      readFlag false name s₄ = .ok (plainRule name, s₄.atEnd) := by
    rw [readFlag, hNone, plainRule]
    cases caselessAttributes.contains (lower name) <;> rfl
  have hSpace : (SpaceMark.absent == SpaceMark.anySpace) = false :=
    rfl
  refine ⟨s₄.atEnd, ?_, rfl⟩
  simp only [readAttribute, hQualified, Outcome.ok_bind, hEquals,
    attrOperator?, readValue, hValue, hSpace, hFlag]
  rfl

/- An identifier is read as it is written. -/
theorem reads_identifier
    {name : String}
    (hName : IsIdentifier name)
    {rest : List Char}
    (hStops : NameStops rest)
    (hParen : rest.head? ≠ some '(')
    (hAngle : rest.head? ≠ some '>') :
    Reads (name.toList ++ rest) (.ident name) rest := by
  have hIdent : renderIdent name.toList = name.toList :=
    renderIdent_of_solid hName.starts hName.solid
  have hOpens : Opens (name.toList ++ rest) := by
    rw [← hIdent]
    exact opens_renderIdent (isName_of_identifier hName) hAngle
  have hReads :=
    reads_ident_of_spells (spells_nameChars hName.solid) hOpens
      (isName_of_identifier hName).1 hStops hParen
  rwa [String.ofList_toList] at hReads

/- A name and a string in brackets have their tokens. -/
theorem lexed_equals
    {name value text : String}
    (hName : IsIdentifier name)
    (hText : Quotes text value) :
    Lexed ("[" ++ name ++ "=" ++ text ++ "]").toList
      (.squareBracketBlock ::
        (equalsTokens name value ++ [.closeSquareBracket])) := by
  let rest := text.toList ++ [']']
  have hStops : NameStops ('=' :: rest) := by
    intro c hFirst
    cases hFirst
    decide
  have hValue :
      Lexed rest [.quotedString value, .closeSquareBracket] :=
    .cons (hText [']'])
      (.cons ⟨']', [], rfl, rfl, Nat.le_refl _⟩ .nil)
  have hInside :
      Lexed (name.toList ++ '=' :: rest)
        (equalsTokens name value ++ [.closeSquareBracket]) :=
    .cons
      (reads_identifier hName hStops (by simp) (by simp))
      (.cons ⟨'=', rest, rfl, rfl, Nat.le_refl _⟩ hValue)
  have hWhole :
      Lexed ('[' :: (name.toList ++ '=' :: rest))
        (.squareBracketBlock ::
          (equalsTokens name value ++ [.closeSquareBracket])) :=
    .cons ⟨'[', _, rfl, rfl, Nat.le_refl _⟩ hInside
  simpa [rest, String.toList_append] using hWhole

/- A name and a value in brackets are read as the test of both. -/
theorem parse_equals
    {name value text : String}
    (hName : IsIdentifier name)
    (hText : Quotes text value) :
    parse ("[" ++ name ++ "=" ++ text ++ "]") =
      .ok (tested (equals name value)) :=
  parse_of_brackets
    (lexed_equals hName hText).tokens_ofText
    (balanced_equalsTokens name value)
    readAttribute_equalsTokens

------------------------------------------------------------
-- Elements that match
------------------------------------------------------------

/- An element matches a test if it passes it. -/
theorem matchesList_tested
    {t : Tree}
    {x : NodeId}
    {e : Element}
    (hElement : t.elementAt? x = some e)
    (test : AttrTest) :
    matchesList t (tested test) x = test.holds e := by
  have hAlone := matchesList_alone hElement (.attribute test)
  rwa [Simple.holds] at hAlone

/-
  A name alone is found among the attributes without
  namespace.
-/
theorem holds_name_iff
    {e : Element}
    {name : String} :
    AttrTest.holds ⟨false, name, none⟩ e = true ↔
      ∃ a ∈ e.attrs,
        a.name.space = .none ∧
          a.name.local_ = nameFor e name := by
  simp [AttrTest.holds]

/-
  The attribute that is read by a name can be found by it: the
  name is compared as it is, and the attribute that is read,
  if there is one, is in no namespace.
-/
structure Agrees
    (e : Element)
    (name : String) : Prop where
  asWritten : nameFor e name = name
  noSpace :
    ∀ a,
      e.attrs.find? (Attribute.isNamed name) = some a →
        a.name.space = .none

namespace Agrees

variable {e : Element}
variable {name : String}

/- The attribute that is read is one that is found. -/
theorem found
    (hAgrees : Agrees e name)
    {a : Attribute}
    (hFirst :
      e.attrs.find? (Attribute.isNamed name) = some a) :
    a ∈ e.attrs ∧ a.name.space = .none ∧
      a.name.local_ = nameFor e name := by
  have hLocal : a.name.local_ = name := by
    simpa [Attribute.isNamed] using List.find?_some hFirst
  exact
    ⟨List.mem_of_find?_eq_some hFirst,
      hAgrees.noSpace a hFirst,
      hLocal.trans hAgrees.asWritten.symm⟩

/- A value is read if and only if the name is found. -/
theorem isSome_attr?_iff
    (hAgrees : Agrees e name) :
    (e.attr? name).isSome = true ↔
      AttrTest.holds ⟨false, name, none⟩ e = true := by
  rw [holds_name_iff, Element.attr?_eq, Option.isSome_map,
    hAgrees.asWritten]
  constructor
  · intro hSome
    rcases Option.isSome_iff_exists.mp hSome with ⟨a, hFirst⟩
    rcases hAgrees.found hFirst with ⟨hMember, hSpace, hLocal⟩
    exact ⟨a, hMember, hSpace, hLocal.trans hAgrees.asWritten⟩
  · rintro ⟨a, hMember, _, hLocal⟩
    rw [List.find?_isSome]
    exact ⟨a, hMember, by simpa [Attribute.isNamed] using hLocal⟩

/- The value that is read is found. -/
theorem holds_equals
    (hAgrees : Agrees e name)
    {value : String}
    (hValue : e.attr? name = some value) :
    (equals name value).holds e = true := by
  rcases Option.map_eq_some_iff.mp hValue with ⟨a, hFirst, rfl⟩
  rcases hAgrees.found hFirst with ⟨hMember, hSpace, hLocal⟩
  rw [AttrTest.holds, List.any_eq_true]
  refine ⟨a, hMember, ?_⟩
  simp [equals, hSpace, hLocal, AttrCompare.holds,
    AttrOperator.holds]

end Agrees

end Selector

end MarkupMetrics
