import MarkupMetrics.Selector.Basic
import MarkupMetrics.Text.Digits

/-
  This file writes selectors as text.

  Names and texts are escaped so that they read back.  A
  universal selector is left out where other simple selectors
  stand beside it, unless a namespace marker needs it.

  Key definitions include:
    * `renderName`
    * `renderIdent`
    * `renderText`
    * `AttrTest.render`
    * `Nth.render`
    * `Simple.render`
    * `Complex.render`
    * `renderList`
-/

namespace MarkupMetrics

namespace Selector

open Text

------------------------------------------------------------
-- Names and texts
------------------------------------------------------------

/- A character written by its code in hexadecimal digits. -/
def hexEscape
    (c : Char) : List Char :=
  ['\\'] ++ Nat.toDigits 16 c.toNat ++ [' ']

/- Whether a character has no visible form in ASCII. -/
def isControl
    (c : Char) : Bool :=
  c.toNat < 0x20 || c == '\x7f'

/- One character inside a name. -/
def renderNameChar
    (c : Char) : List Char :=
  if c.isAlphanum || c == '_' || c == '-' || 0x80 ≤ c.toNat then
    [c]
  else if c = '\x00' then [Char.ofNat 0xfffd]
  else if isControl c then hexEscape c
  else ['\\', c]

/- The characters of a name after its start. -/
def renderName
    (s : List Char) : List Char :=
  s.flatMap renderNameChar

/- A name whose first character may be a digit. -/
def renderNameStart : List Char → List Char
  | [] => []
  | c :: rest =>
      if c.isDigit then hexEscape c ++ renderName rest
      else renderName (c :: rest)

/- An identifier. -/
def renderIdent : List Char → List Char
  | '-' :: '-' :: rest => '-' :: '-' :: renderName rest
  | ['-'] => ['\\', '-']
  | '-' :: rest => '-' :: renderNameStart rest
  | s => renderNameStart s

/- One character inside a quoted text. -/
def renderTextChar
    (c : Char) : List Char :=
  if c = '"' then ['\\', '"']
  else if c = '\\' then ['\\', '\\']
  else if c = '\x00' then [Char.ofNat 0xfffd]
  else if isControl c then hexEscape c
  else [c]

/- A quoted text. -/
def renderText
    (s : List Char) : List Char :=
  ['"'] ++ s.flatMap renderTextChar ++ ['"']

/- An identifier as text. -/
def identText
    (name : String) : String :=
  String.ofList (renderIdent name.toList)

------------------------------------------------------------
-- Parts
------------------------------------------------------------

/- A combinator between two compounds. -/
def Combinator.render : Combinator → String
  | .descendant => " "
  | .child => " > "
  | .nextSibling => " + "
  | .laterSibling => " ~ "

/- The operator of a comparison. -/
def AttrOperator.render : AttrOperator → String
  | .equal => "="
  | .word => "~="
  | .dash => "|="
  | .starts => "^="
  | .ends => "$="
  | .within => "*="

/- The flag after a compared value. -/
def CaseRule.render : CaseRule → String
  | .sensitive => ""
  | .byElement => ""
  | .insensitive => " i"
  | .explicitSensitive => " s"

/-
  A comparison.  The value brings its own quotes and stands
  between another pair of them.
-/
def AttrCompare.render
    (c : AttrCompare) : String :=
  c.operator.render ++ "\"" ++
    String.ofList (renderText c.value.toList) ++ "\"" ++
    c.caseRule.render

/- A test of an attribute. -/
def AttrTest.render
    (t : AttrTest) : String :=
  "[" ++ (if t.anySpace then "*|" else "") ++ identText t.name ++
    (match t.compare with
      | some c => c.render
      | none => "") ++
    "]"

/- An integer with its sign. -/
def signedText
    (n : Int) : String :=
  if n < 0 then integerText n else "+" ++ integerText n

/- The coefficients of a position. -/
def affineText
    (a b : Int) : String :=
  if a = 0 then integerText b
  else
    let front :=
      if a = 1 then "n"
      else if a = -1 then "-n"
      else integerText a ++ "n"
    if b = 0 then front else front ++ signedText b

/- A test of a position. -/
def Nth.render
    (t : Nth) : String :=
  match t.kind, t.functional with
  | .onlyChild, _ => ":only-child"
  | .onlyOfType, _ => ":only-of-type"
  | .child, false => ":first-child"
  | .lastChild, false => ":last-child"
  | .ofType, false => ":first-of-type"
  | .lastOfType, false => ":last-of-type"
  | .child, true => ":nth-child(" ++ affineText t.a t.b ++ ")"
  | .lastChild, true =>
      ":nth-last-child(" ++ affineText t.a t.b ++ ")"
  | .ofType, true =>
      ":nth-of-type(" ++ affineText t.a t.b ++ ")"
  | .lastOfType, true =>
      ":nth-last-of-type(" ++ affineText t.a t.b ++ ")"

------------------------------------------------------------
-- Selectors
------------------------------------------------------------

mutual

/- A simple selector. -/
def Simple.render : Simple → String
  | .anyName => "*"
  | .noSpace => "|"
  | .localName name => identText name
  | .id name => "#" ++ identText name
  | .className name => "." ++ identText name
  | .attribute test => test.render
  | .nth test => test.render
  | .root => ":root"
  | .empty => ":empty"
  | .scope => ":scope"
  | .negation list => ":not(" ++ renderList list ++ ")"
  | .host inner => ":host(" ++ inner.render ++ ")"

/- Simple selectors in a row, all of them. -/
def renderAll : List Simple → String
  | [] => ""
  | s :: rest => s.render ++ renderAll rest

/- Simple selectors in a row, without universal ones. -/
def renderNamed : List Simple → String
  | [] => ""
  | .anyName :: rest => renderNamed rest
  | s :: rest => s.render ++ renderNamed rest

/- A compound selector. -/
def renderCompound : List Simple → String
  | [.anyName] => "*"
  | .noSpace :: rest => "|" ++ renderAll rest
  | parts => renderNamed parts

/- A complex selector. -/
def Complex.render : Complex → String
  | .compound parts => renderCompound parts
  | .join left k parts =>
      left.render ++ k.render ++ renderCompound parts

/- Alternatives, separated by commas. -/
def renderList : List Complex → String
  | [] => ""
  | [c] => c.render
  | c :: rest => c.render ++ ", " ++ renderList rest

end

end Selector

end MarkupMetrics
