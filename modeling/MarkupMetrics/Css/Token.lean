import MarkupMetrics.Text.Digits
import MarkupMetrics.Text.Quoted
import MarkupMetrics.Text.Shortest

/-
  This file defines the tokens of a style sheet language and
  the text that names a token in an error.

  Key definitions include:
    * `Numeral`
    * `Numeral.intValue?`
    * `Numeral.value`
    * `Token`
    * `Token.closer?`
    * `Token.describe`
-/

namespace MarkupMetrics

namespace Css

open Text

------------------------------------------------------------
-- Numerals
------------------------------------------------------------

/-
  A number as it is written: its sign, the digits before and
  after the point, and the exponent with its sign.
-/
structure Numeral where
  signed : Bool
  negative : Bool
  whole : List Nat
  fraction : Option (List Nat)
  exponent : Option (Bool × List Nat)
deriving DecidableEq, Repr

namespace Numeral

/- Bring an integer into the 32-bit range. -/
def saturate
    (n : Int) : Int :=
  max (-2147483648) (min 2147483647 n)

/-
  The value of a number without fraction and exponent, kept
  in the 32-bit range.
-/
def intValue?
    (n : Numeral) : Option Int :=
  if n.fraction.isNone && n.exponent.isNone then
    let size : Int := ofDigits 10 n.whole
    some (saturate (if n.negative then -size else size))
  else
    none

/- Digits summed up in floating point. -/
def floatOfDigits
    (digits : List Nat) : Float :=
  digits.foldl (fun x d => x * 10 + Float.ofNat d) 0

/- Digits after the point summed up in floating point. -/
def floatOfFraction
    (digits : List Nat) : Float :=
  (digits.foldl
    (fun (x, unit) d => (x + Float.ofNat d * unit, unit * 0.1))
    ((0, 0.1) : Float × Float)).1

/- The value of a number. -/
def value
    (n : Numeral) : Float :=
  let sign : Float := if n.negative then -1 else 1
  let size :=
    floatOfDigits n.whole +
      floatOfFraction (n.fraction.getD [])
  let plain := sign * size
  match n.exponent with
  | none => plain
  | some (down, digits) =>
      let sign : Float := if down then -1 else 1
      plain * Float.pow 10 (sign * floatOfDigits digits)

end Numeral

------------------------------------------------------------
-- Tokens
------------------------------------------------------------

/- A token.  Texts are kept with their escapes resolved. -/
inductive Token where
  | ident (name : String)
  | atKeyword (name : String)
  | hash (name : String)
  | idHash (name : String)
  | quotedString (value : String)
  | unquotedUrl (value : String)
  | delim (c : Char)
  | number (n : Numeral)
  | percentage (n : Numeral)
  | dimension (n : Numeral) (unit : String)
  | whiteSpace (text : String)
  | comment (text : String)
  | colon
  | semicolon
  | comma
  | includeMatch
  | dashMatch
  | prefixMatch
  | suffixMatch
  | substringMatch
  | cdo
  | cdc
  | function (name : String)
  | parenthesisBlock
  | squareBracketBlock
  | curlyBracketBlock
  | badUrl (text : String)
  | badString (text : String)
  | closeParenthesis
  | closeSquareBracket
  | closeCurlyBracket
deriving DecidableEq, Repr

namespace Token

/- The token that closes the block a token opens. -/
def closer? : Token → Option Token
  | .function _ => some .closeParenthesis
  | .parenthesisBlock => some .closeParenthesis
  | .squareBracketBlock => some .closeSquareBracket
  | .curlyBracketBlock => some .closeCurlyBracket
  | _ => none

/- Whether a token stands between others without a meaning. -/
def isTrivia : Token → Bool
  | .whiteSpace _ => true
  | .comment _ => true
  | _ => false

------------------------------------------------------------
-- Descriptions
------------------------------------------------------------

/- The text of a flag. -/
def describeFlag : Bool → String
  | true => "true"
  | false => "false"

/- The text of an optional integer. -/
def describeIntValue
    (n : Numeral) : String :=
  match n.intValue? with
  | some i => "Some(" ++ integerText i ++ ")"
  | none => "None"

/- A token name with a text. -/
def describeText
    (name text : String) : String :=
  name ++ "(" ++ quote text ++ ")"

/-
  A token name with the parts of a number, given the text of
  its value and what follows.
-/
def describeNumeral
    (name valueName value : String)
    (n : Numeral)
    (tail : String) : String :=
  name ++ " \x7b has_sign: " ++ describeFlag n.signed ++ ", " ++
    valueName ++ ": " ++ value ++ ", int_value: " ++
    describeIntValue n ++ tail ++ " \x7d"

/- The text that names a token in an error. -/
def describe : Token → String
  | .ident name => describeText "Ident" name
  | .atKeyword name => describeText "AtKeyword" name
  | .hash name => describeText "Hash" name
  | .idHash name => describeText "IDHash" name
  | .quotedString value => describeText "QuotedString" value
  | .unquotedUrl value => describeText "UnquotedUrl" value
  | .delim c => "Delim(" ++ quoteChar c ++ ")"
  | .number n =>
      describeNumeral "Number" "value"
        (singleText n.value.toFloat32) n ""
  | .percentage n =>
      describeNumeral "Percentage" "unit_value"
        (singleText (n.value / 100).toFloat32) n ""
  | .dimension n unit =>
      describeNumeral "Dimension" "value"
        (singleText n.value.toFloat32) n
        (", unit: " ++ quote unit)
  | .whiteSpace text => describeText "WhiteSpace" text
  | .comment text => describeText "Comment" text
  | .colon => "Colon"
  | .semicolon => "Semicolon"
  | .comma => "Comma"
  | .includeMatch => "IncludeMatch"
  | .dashMatch => "DashMatch"
  | .prefixMatch => "PrefixMatch"
  | .suffixMatch => "SuffixMatch"
  | .substringMatch => "SubstringMatch"
  | .cdo => "CDO"
  | .cdc => "CDC"
  | .function name => describeText "Function" name
  | .parenthesisBlock => "ParenthesisBlock"
  | .squareBracketBlock => "SquareBracketBlock"
  | .curlyBracketBlock => "CurlyBracketBlock"
  | .badUrl text => describeText "BadUrl" text
  | .badString text => describeText "BadString" text
  | .closeParenthesis => "CloseParenthesis"
  | .closeSquareBracket => "CloseSquareBracket"
  | .closeCurlyBracket => "CloseCurlyBracket"

end Token

end Css

end MarkupMetrics
