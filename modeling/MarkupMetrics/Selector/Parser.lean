import MarkupMetrics.Css.Lexer
import MarkupMetrics.Selector.Basic
import MarkupMetrics.Selector.Error

/-
  This file reads selectors from a text.

  A reader takes a stream of tokens and gives what it has
  read together with the stream after it, or the reason why
  it stopped and the column of that.  The inside of a block
  is a stream of its own and has to be read to its end.

  Key definitions include:
    * `readQualified`
    * `readAttribute`
    * `readNth`
    * `readCombinator`
    * `readCompound`
    * `readComplex`
    * `readList`
    * `parse`
-/

namespace MarkupMetrics

namespace Selector

open Css Text

------------------------------------------------------------
-- Results
------------------------------------------------------------

/- Stop at the next token of a stream. -/
def failAt
    {α : Type}
    (s : Stream)
    (reason : Reason) : Except Failure α :=
  .error ⟨s.column, reason⟩

/- Check that nothing but blanks and comments is left. -/
def expectEnd
    (s : Stream) : Except Failure Unit :=
  match s.next? with
  | some (t, _) => failAt s (.unexpected t)
  | none => .ok ()

/- ASCII lower case. -/
def lower
    (s : String) : String :=
  String.ofList (s.toList.map Char.toLower)

------------------------------------------------------------
-- Qualified names
------------------------------------------------------------

/- The namespace part in front of a name. -/
inductive SpaceMark where
  | absent
  | noSpace
  | anySpace
deriving DecidableEq, Repr

/-
  A qualified name, whose local part is missing for the
  universal name, or the token that is no start of one.
-/
inductive Qualified where
  | name (space : SpaceMark) (local_ : Option String)
  | other (token : Token)
deriving DecidableEq, Repr

/- The local part after a namespace mark. -/
def readLocal
    (inAttribute : Bool)
    (space : SpaceMark)
    (s : Stream) : Except Failure (Qualified × Stream) :=
  match s.nextAny? with
  | none => failAt s.atEnd .endOfInput
  | some (.ident name, s') =>
      .ok (.name space (some name), s')
  | some (t, s') =>
      if inAttribute then failAt s (.badAttributeName t)
      else if t = .delim '*' then .ok (.name space none, s')
      else failAt s (.afterNamespace t)

/- A qualified name. -/
def readQualified
    (inAttribute : Bool)
    (s : Stream) : Except Failure (Qualified × Stream) :=
  match s.nextAny? with
  | none => failAt s.atEnd .endOfInput
  | some (.ident name, s') =>
      match s'.nextAny? with
      | some (.delim '|', _) =>
          failAt s' (.unknownNamespace name)
      | _ => .ok (.name .absent (some name), s')
  | some (.delim '*', s') =>
      match s'.nextAny? with
      | some (.delim '|', s'') =>
          readLocal inAttribute .anySpace s''
      | next =>
          if inAttribute then
            match next with
            | some (t, _) => failAt s' (.expectedBar t)
            | none => failAt s'.atEnd .endOfInput
          else .ok (.name .absent none, s')
  | some (.delim '|', s') => readLocal inAttribute .noSpace s'
  | some (t, _) => .ok (.other t, s)

------------------------------------------------------------
-- Attribute tests
------------------------------------------------------------

/- Attributes whose values ignore case on HTML elements. -/
def caselessAttributes : List String :=
  ["accept", "accept-charset", "align", "alink", "axis",
    "bgcolor", "charset", "checked", "clear", "codetype",
    "color", "compact", "declare", "defer", "dir", "direction",
    "disabled", "enctype", "face", "frame", "hreflang",
    "http-equiv", "lang", "language", "link", "media", "method",
    "multiple", "nohref", "noresize", "noshade", "nowrap",
    "readonly", "rel", "rev", "rules", "scope", "scrolling",
    "selected", "shape", "target", "text", "type", "valign",
    "valuetype", "vlink"]

/- The operator a token stands for. -/
def attrOperator? : Token → Option AttrOperator
  | .delim '=' => some .equal
  | .includeMatch => some .word
  | .dashMatch => some .dash
  | .prefixMatch => some .starts
  | .suffixMatch => some .ends
  | .substringMatch => some .within
  | _ => none

/- The case flag after a value; without one the name decides. -/
def readFlag
    (anySpace : Bool)
    (name : String)
    (s : Stream) : Except Failure (CaseRule × Stream) :=
  match s.next? with
  | none =>
      if !anySpace && caselessAttributes.contains (lower name) then
        .ok (.byElement, s.atEnd)
      else .ok (.sensitive, s.atEnd)
  | some (.ident flag, s') =>
      if lower flag = "i" then .ok (.insensitive, s')
      else if lower flag = "s" then .ok (.explicitSensitive, s')
      else failAt s (.unexpected (.ident flag))
  | some (t, _) => failAt s (.unexpected t)

/- The value of a comparison. -/
def readValue
    (s : Stream) : Except Failure (String × Stream) :=
  match s.next? with
  | none => failAt s.atEnd .endOfInput
  | some (.ident v, s') => .ok (v, s')
  | some (.quotedString v, s') => .ok (v, s')
  | some (t, _) => failAt s (.badValue t)

/- A test of an attribute, inside its brackets. -/
def readAttribute
    (s : Stream) : Except Failure (AttrTest × Stream) := do
  let s := s.skipTrivia
  match ← readQualified true s with
  | (.other t, _) => failAt s (.noNameInAttribute t)
  | (.name _ none, s) => failAt s .endOfInput
  | (.name space (some name), s) =>
      let anySpace := space == .anySpace
      match s.next? with
      | none => .ok (⟨anySpace, name, none⟩, s.atEnd)
      | some (t, s') =>
          match attrOperator? t with
          | none => failAt s (.unexpectedInAttribute t)
          | some operator =>
              let (value, s) ← readValue s'
              let (caseRule, s) ← readFlag anySpace name s
              .ok
                (⟨anySpace, name,
                  some ⟨operator, value, caseRule⟩⟩, s)

------------------------------------------------------------
-- Positions
------------------------------------------------------------

/- The value of `n-DIGITS`, as the negative number after `n`. -/
def dashDigits?
    (unit : String) : Option Int :=
  match unit.toList with
  | n :: '-' :: digits =>
      if (n = 'n' ∨ n = 'N') ∧ digits ≠ [] ∧
          digits.all isDigit then
        some
          (Numeral.saturate
            (-(ofDigits 10 (leadingDigits digits) : Int)))
      else none
  | _ => none

/- A number without sign that follows a separate sign. -/
def readUnsigned
    (a sign : Int)
    (s : Stream) : Except Failure ((Int × Int) × Stream) :=
  match s.next? with
  | none => failAt s.atEnd .endOfInput
  | some (.number n, s') =>
      match n.signed, n.intValue? with
      | false, some b => .ok ((a, sign * b), s')
      | _, _ => failAt s' (.unexpected (.number n))
  | some (t, s') => failAt s' (.unexpected t)

/- The optional second part of a position. -/
def readOffset
    (a : Int)
    (s : Stream) : Except Failure ((Int × Int) × Stream) :=
  match s.next? with
  | some (.delim '+', s') => readUnsigned a 1 s'
  | some (.delim '-', s') => readUnsigned a (-1) s'
  | some (.number n, s') =>
      match n.signed, n.intValue? with
      | true, some b => .ok ((a, b), s')
      | _, _ => .ok ((a, 0), s)
  | _ => .ok ((a, 0), s)

/-
  What follows a coefficient, given the unit behind it and
  the word to name in an error.
-/
def readUnit
    (a : Int)
    (unit word : String)
    (s : Stream) : Except Failure ((Int × Int) × Stream) :=
  if lower unit = "n" then readOffset a s
  else if lower unit = "n-" then readUnsigned a (-1) s
  else
    match dashDigits? unit with
    | some b => .ok ((a, b), s)
    | none => failAt s (.unexpected (.ident word))

/- A position written with a word. -/
def readNthWord
    (word : String)
    (s : Stream) : Except Failure ((Int × Int) × Stream) :=
  if lower word = "even" then .ok ((2, 0), s)
  else if lower word = "odd" then .ok ((2, 1), s)
  else
    match word.toList with
    | '-' :: unit => readUnit (-1) (String.ofList unit) word s
    | _ => readUnit 1 word word s

/- The coefficients of a position. -/
def readNth
    (s : Stream) : Except Failure ((Int × Int) × Stream) :=
  match s.next? with
  | none => failAt s.atEnd .endOfInput
  | some (.number n, s') =>
      match n.intValue? with
      | some b => .ok ((0, b), s')
      | none => failAt s' (.unexpected (.number n))
  | some (.dimension n unit, s') =>
      match n.intValue? with
      | some a => readUnit a unit unit s'
      | none => failAt s' (.unexpected (.dimension n unit))
  | some (.ident word, s') => readNthWord word s'
  | some (.delim '+', s') =>
      match s'.nextAny? with
      | none => failAt s'.atEnd .endOfInput
      | some (.ident word, s'') => readUnit 1 word word s''
      | some (t, s'') => failAt s'' (.unexpected t)
  | some (t, s') => failAt s' (.unexpected t)

------------------------------------------------------------
-- Combinators
------------------------------------------------------------

/-
  The tokens after the last blank of a run of blanks and
  comments, if there is a blank in it.
-/
def afterBlanks? : List Lexeme → Option (List Lexeme)
  | [] => none
  | l :: rest =>
      match l.token with
      | .whiteSpace _ => some ((afterBlanks? rest).getD rest)
      | .comment _ => afterBlanks? rest
      | _ => none

/- A combinator between compounds, if there is one. -/
def readCombinator
    (s : Stream) : Option Combinator × Stream :=
  match s.next? with
  | none => (none, s.atEnd)
  | some (.delim '>', s') => (some .child, s')
  | some (.delim '+', s') => (some .nextSibling, s')
  | some (.delim '~', s') => (some .laterSibling, s')
  | some _ =>
      match afterBlanks? s.lexemes with
      | some rest => (some .descendant, { s with lexemes := rest })
      | none => (none, s)

------------------------------------------------------------
-- Simple selectors
------------------------------------------------------------

/- What the surroundings of a selector rule out. -/
structure Context where
  noCombinators : Bool := false
  noPseudoElements : Bool := false
deriving DecidableEq, Repr

/- A position counted from its written name. -/
def nthKind? : String → Option NthKind
  | "nth-child" => some .child
  | "nth-last-child" => some .lastChild
  | "nth-of-type" => some .ofType
  | "nth-last-of-type" => some .lastOfType
  | _ => none

/- The pseudo-class with a name and no argument. -/
def plainPseudo? : String → Option Simple
  | "first-child" => some (.nth ⟨.child, false, 0, 1⟩)
  | "last-child" => some (.nth ⟨.lastChild, false, 0, 1⟩)
  | "only-child" => some (.nth ⟨.onlyChild, false, 0, 1⟩)
  | "first-of-type" => some (.nth ⟨.ofType, false, 0, 1⟩)
  | "last-of-type" => some (.nth ⟨.lastOfType, false, 0, 1⟩)
  | "only-of-type" => some (.nth ⟨.onlyOfType, false, 0, 1⟩)
  | "root" => some .root
  | "empty" => some .empty
  | "scope" => some .scope
  | _ => none

/- Pseudo-elements that may be written with one colon. -/
def isOldPseudoElement
    (name : String) : Bool :=
  ["before", "after", "first-line", "first-letter"].contains
    (lower name)

/- The name after the colons of a pseudo selector. -/
structure PseudoName where
  double : Bool
  functional : Bool
  name : String
deriving DecidableEq, Repr

/- Read the rest of a pseudo selector's head. -/
def readPseudoName
    (s : Stream) : Except Failure (PseudoName × Stream) := do
  let (first, s) ←
    match s.nextAny? with
    | none => failAt s.atEnd .endOfInput
    | some r => .ok r
  let (double, t, s) ←
    if first = .colon then
      match s.nextAny? with
      | none => failAt s.atEnd .endOfInput
      | some (t, s) => .ok (true, t, s)
    else .ok (false, first, s)
  match t with
  | .ident name => .ok (⟨double, false, name⟩, s)
  | .function name => .ok (⟨double, true, name⟩, s)
  | t => failAt s (.pseudoNeedsName t)

/- The simple selectors a qualified name stands for. -/
def typeParts
    (space : SpaceMark)
    (name : Option String) : List Simple :=
  (if space = .noSpace then [.noSpace] else []) ++
    [match name with
      | some n => .localName n
      | none => .anyName]

/- The type selector at the start of a compound, if any. -/
def readType
    (s : Stream) : Except Failure (List Simple × Stream) :=
  match readQualified false s with
  | .ok (.name space name, s') => .ok (typeParts space name, s')
  | .ok (.other _, s') => .ok ([], s')
  | .error e =>
      if e.reason = .endOfInput then .ok ([], s.atEnd)
      else .error e

------------------------------------------------------------
-- Selectors
------------------------------------------------------------

mutual

/-
  A pseudo selector after its first colon.  The fuel bounds
  the number of nested calls.
-/
def readPseudo :
    Nat → Context → Stream → Except Failure (Simple × Stream)
  | 0, _, s => failAt s .endOfInput
  | fuel + 1, cx, s => do
      let (p, after) ← readPseudoName s
      if p.double || isOldPseudoElement p.name then
        if cx.noPseudoElements then failAt after .invalidState
        else if p.functional then
          failAt after (.unsupportedPseudo p.name)
        else failAt s (.unsupportedPseudo p.name)
      else if p.functional then
        let (body, rest) := after.splitBlock .closeParenthesis
        let (part, tail) ← readFunctional fuel cx p.name body
        expectEnd tail
        .ok (part, rest)
      else
        match plainPseudo? (lower p.name) with
        | some part => .ok (part, after)
        | none => failAt s (.unsupportedPseudo p.name)

/- A pseudo-class with an argument, inside its parentheses. -/
def readFunctional :
    Nat → Context → String → Stream → Except Failure (Simple × Stream)
  | 0, _, _, s => failAt s .endOfInput
  | fuel + 1, cx, name, s =>
      match nthKind? (lower name) with
      | some kind => do
          let ((a, b), s) ← readNth s
          .ok (.nth ⟨kind, true, a, b⟩, s)
      | none =>
          if lower name = "not" then do
            let (list, s) ←
              readList fuel { cx with noPseudoElements := true } s
            .ok (.negation list, s)
          else if lower name = "host" then do
            let (inner, s) ← readComplex fuel ⟨true, true⟩ s
            .ok (.host inner, s)
          else failAt s (.unsupportedPseudo name)

/- One simple selector that is not a type selector, if any. -/
def readSimple? :
    Nat → Context → Stream → Except Failure (Option (Simple × Stream))
  | 0, _, s => failAt s .endOfInput
  | fuel + 1, cx, s =>
      match s.nextAny? with
      | some (.idHash name, s) => .ok (some (.id name, s))
      | some (.delim '.', s) =>
          match s.nextAny? with
          | none => failAt s.atEnd .endOfInput
          | some (.ident name, s') =>
              .ok (some (.className name, s'))
          | some (t, _) => failAt s (.classNeedsName t)
      | some (.squareBracketBlock, s) => do
          let (body, rest) := s.splitBlock .closeSquareBracket
          let (test, tail) ← readAttribute body
          expectEnd tail
          .ok (some (.attribute test, rest))
      | some (.colon, s) => do
          let r ← readPseudo fuel cx s
          .ok (some r)
      | _ => .ok none

/- The simple selectors after a type selector. -/
def readSimples :
    Nat → Context → Stream → Except Failure (List Simple × Stream)
  | 0, _, s => failAt s .endOfInput
  | fuel + 1, cx, s => do
      match ← readSimple? fuel cx s with
      | none => .ok ([], s)
      | some (part, s) =>
          let (parts, s) ← readSimples fuel cx s
          .ok (part :: parts, s)

/- A compound selector, which may turn out empty. -/
def readCompound :
    Nat → Context → Stream → Except Failure (List Simple × Stream)
  | 0, _, s => failAt s .endOfInput
  | fuel + 1, cx, s => do
      let (typeParts, s) ← readType s.skipTrivia
      let (parts, s) ← readSimples fuel cx s
      .ok (typeParts ++ parts, s)

/- The compounds after a first one. -/
def readJoined :
    Nat → Context → Complex → Stream →
      Except Failure (Complex × Stream)
  | 0, _, _, s => failAt s .endOfInput
  | fuel + 1, cx, left, s =>
      match readCombinator s with
      | (none, s) => .ok (left, s)
      | (some k, s) =>
          if cx.noCombinators then failAt s .invalidState
          else do
            let (parts, s) ← readCompound fuel cx s
            if parts.isEmpty then failAt s .danglingCombinator
            else readJoined fuel cx (.join left k parts) s

/- A complex selector. -/
def readComplex :
    Nat → Context → Stream → Except Failure (Complex × Stream)
  | 0, _, s => failAt s .endOfInput
  | fuel + 1, cx, s => do
      let (parts, s) ← readCompound fuel cx s
      if parts.isEmpty then failAt s .emptySelector
      else readJoined fuel cx (.compound parts) s

/- Complex selectors separated by commas. -/
def readList :
    Nat → Context → Stream → Except Failure (List Complex × Stream)
  | 0, _, s => failAt s .endOfInput
  | fuel + 1, cx, s => do
      let (item, rest) := s.splitAt (· == .comma)
      let (c, tail) ← readComplex fuel cx item
      expectEnd tail
      match rest.uncons? with
      | none => .ok ([c], rest)
      | some (_, rest) =>
          let (cs, s) ← readList fuel cx rest
          .ok (c :: cs, s)

end

------------------------------------------------------------
-- Texts
------------------------------------------------------------

/-
  Enough fuel for a stream: no token is looked at by more
  than a few nested calls.
-/
def fuelFor
    (s : Stream) : Nat :=
  8 * (s.lexemes.length + 2)

/- Parse a selector list. -/
def parse
    (text : String) : Except SelectorError SelectorList :=
  let s := Stream.ofText text
  match readList (fuelFor s) {} s with
  | .ok (list, _) => .ok list
  | .error failure => .error ⟨text, failure⟩

end Selector

end MarkupMetrics
