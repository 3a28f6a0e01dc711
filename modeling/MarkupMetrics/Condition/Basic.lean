import MarkupMetrics.Extractor.Basic
import MarkupMetrics.Text.Digits

/-
  This file defines conditions, the small language that
  guards a handler:

    [!] [selector] method(operand operator operand)

  The clause is the last parenthesised group.  A leading `!`
  resolves the selector against the whole document.

  Key definitions include:
    * `Condition`
    * `ConditionError`
    * `ConditionError.message`
    * `Condition.parse`
    * `Condition.render`
    * `Operator`
    * `Operator.parse?`
    * `Operator.compare`
-/

namespace MarkupMetrics

open Text

------------------------------------------------------------
-- Operators
------------------------------------------------------------

/- The comparisons a condition can make. -/
inductive Operator where
  | equals
  | notEquals
  | contains
  | notContains
deriving DecidableEq, Repr

namespace Operator

/- The operator written with a word. -/
def parse? : String → Option Operator
  | "equals" => some .equals
  | "!equals" => some .notEquals
  | "contains" => some .contains
  | "!contains" => some .notContains
  | _ => none

/- The word of an operator. -/
def render : Operator → String
  | .equals => "equals"
  | .notEquals => "!equals"
  | .contains => "contains"
  | .notContains => "!contains"

/- Compare a value with the expected one. -/
def compare
    (op : Operator)
    (value expected : String) : Bool :=
  match op with
  | .equals => value == expected
  | .notEquals => value != expected
  | .contains => occursIn expected.toList value.toList
  | .notContains => !occursIn expected.toList value.toList

/- The wording for a word that is no operator. -/
def unsupportedMessage
    (word : String) : String :=
  "unsupported operator " ++ word

end Operator

------------------------------------------------------------
-- Conditions
------------------------------------------------------------

/-
  A condition.  The operator is kept as written: one that is
  not supported is reported when the condition is evaluated.
-/
structure Condition where
  method : String
  left : String
  right : String
  operator : String
  selector : Option String
  global : Bool
deriving DecidableEq, Repr

/- Why a text is not a condition. -/
inductive ConditionError where
  | empty
  | missingClause
  | missingMethod
  | operandCount (found : Nat)
  | trailingInput
deriving DecidableEq, Repr

/- The wording of an error. -/
def ConditionError.message : ConditionError → String
  | .empty => "condition is empty"
  | .missingClause =>
      "condition has no method(...) clause"
  | .missingMethod =>
      "condition clause has no method name"
  | .operandCount found =>
      "expected \x60operand operator operand\x60, found " ++
        decimalText found ++ " tokens"
  | .trailingInput =>
      "unexpected input after the method(...) clause"

------------------------------------------------------------
-- Parsing
------------------------------------------------------------

/-
  The selector and the method in front of the clause.  The
  method is what follows the last blank.
-/
def splitHead
    (head : List Char) : List Char × List Char :=
  match cutLast? isBlank head with
  | some (before, method) => (trim before, method)
  | none => ([], head)

/- Parse a condition without marker. -/
def Condition.parseBody
    (global : Bool)
    (body : List Char) : Except ConditionError Condition :=
  match cutLast? (· == ')') body with
  | none => .error .missingClause
  | some (front, after) =>
      if !after.all isBlank then
        .error .trailingInput
      else
        match cutLast? (· == '(') front with
        | none => .error .missingClause
        | some (head, inner) =>
            let (selector, method) := splitHead head
            if method = [] then
              .error .missingMethod
            else
              match words inner with
              | [left, operator, right] =>
                  .ok
                    { method := String.ofList method
                      left := String.ofList left
                      right := String.ofList right
                      operator := String.ofList operator
                      selector :=
                        if selector = [] then none
                        else some (String.ofList selector)
                      global }
              | tokens => .error (.operandCount tokens.length)

/- Parse a condition. -/
def Condition.parse
    (value : String) : Except ConditionError Condition :=
  let body := trim value.toList
  if body = [] then
    .error .empty
  else
    let (global, rest) := splitMarker body
    Condition.parseBody global rest

------------------------------------------------------------
-- Canonical text
------------------------------------------------------------

/-
  The canonical text of a condition, its parts one blank
  apart.
-/
def Condition.render
    (c : Condition) : String :=
  (if c.global then "! " else "") ++
    (match c.selector with
      | some s => s ++ " "
      | none => "") ++
    c.method ++ "(" ++ c.left ++ " " ++ c.operator ++ " " ++
    c.right ++ ")"

end MarkupMetrics
