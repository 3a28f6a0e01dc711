import MarkupMetrics.Css.Token

/-
  This file defines why a text is not a selector, and the
  wording of it.

  Key definitions include:
    * `Reason`
    * `Reason.describe`
    * `Failure`
    * `SelectorError`
    * `SelectorError.message`
-/

namespace MarkupMetrics

namespace Selector

open Css Text

------------------------------------------------------------
-- Reasons
------------------------------------------------------------

/- Why reading stopped. -/
inductive Reason where
  | endOfInput
  | unexpected (token : Token)
  | emptySelector
  | danglingCombinator
  | invalidState
  | noNameInAttribute (token : Token)
  | unexpectedInAttribute (token : Token)
  | expectedBar (token : Token)
  | badValue (token : Token)
  | badAttributeName (token : Token)
  | afterNamespace (token : Token)
  | unknownNamespace (name : String)
  | classNeedsName (token : Token)
  | pseudoNeedsName (token : Token)
  | unsupportedPseudo (name : String)
deriving DecidableEq, Repr

namespace Reason

/- A reason of the grammar of selectors. -/
def custom
    (text : String) : String :=
  "Custom(" ++ text ++ ")"

/- A reason of that grammar with a token. -/
def customToken
    (name : String)
    (token : Token) : String :=
  custom (name ++ "(" ++ token.describe ++ ")")

/- The wording of a reason. -/
def describe : Reason → String
  | .endOfInput => "Basic(EndOfInput)"
  | .unexpected token =>
      "Basic(UnexpectedToken(" ++ token.describe ++ "))"
  | .emptySelector => custom "EmptySelector"
  | .danglingCombinator => custom "DanglingCombinator"
  | .invalidState => custom "InvalidState"
  | .noNameInAttribute token =>
      customToken "NoQualifiedNameInAttributeSelector" token
  | .unexpectedInAttribute token =>
      customToken "UnexpectedTokenInAttributeSelector" token
  | .expectedBar token => customToken "ExpectedBarInAttr" token
  | .badValue token => customToken "BadValueInAttr" token
  | .badAttributeName token =>
      customToken "InvalidQualNameInAttr" token
  | .afterNamespace token =>
      customToken "ExplicitNamespaceUnexpectedToken" token
  | .unknownNamespace name =>
      custom ("ExpectedNamespace(" ++ quote name ++ ")")
  | .classNeedsName token => customToken "ClassNeedsIdent" token
  | .pseudoNeedsName token =>
      customToken "PseudoElementExpectedIdent" token
  | .unsupportedPseudo name =>
      custom
        ("UnsupportedPseudoClassOrElement(" ++ quote name ++ ")")

end Reason

------------------------------------------------------------
-- Errors
------------------------------------------------------------

/- A reason with the column where it arose. -/
structure Failure where
  column : Nat
  reason : Reason
deriving DecidableEq, Repr

/- Why a text is not a selector list. -/
structure SelectorError where
  selector : String
  failure : Failure
deriving DecidableEq, Repr

/- The wording of an error. -/
def SelectorError.message
    (e : SelectorError) : String :=
  "invalid selector " ++ quote e.selector ++ " at column " ++
    decimalText e.failure.column ++ ": " ++
    e.failure.reason.describe

end Selector

end MarkupMetrics
