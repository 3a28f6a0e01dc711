import MarkupMetrics.Text.Blank
import MarkupMetrics.Text.Quoted

/-
  This file defines extractors, the small language that
  names a value on a page:

    [!] [selector] text
    [!] [selector] attr(NAME)

  The last word says what is read, the rest is the selector.
  A leading `!` resolves the selector against the whole
  document.

  Key definitions include:
    * `Reading`
    * `Extractor`
    * `ExtractorError`
    * `ExtractorError.message`
    * `Reading.parse`
    * `Extractor.parse`
    * `Extractor.render`
    * `literal?`
-/

namespace MarkupMetrics

open Text

------------------------------------------------------------
-- Types
------------------------------------------------------------

/- What is read from the selected nodes. -/
inductive Reading where
  | text
  | attribute (name : String)
deriving DecidableEq, Repr

/-
  An extractor.  The empty selector stands for the element
  in scope itself.
-/
structure Extractor where
  selector : String
  reading : Reading
  global : Bool
deriving DecidableEq, Repr

/- Why a text is not an extractor. -/
inductive ExtractorError where
  | empty
  | unsupported (token : String)
  | missingArgument (name : String)
  | unexpectedArgument (name : String)
  | malformed (token : String)
deriving DecidableEq, Repr

/- The wording of an error. -/
def ExtractorError.message : ExtractorError → String
  | .empty => "extractor is empty"
  | .unsupported token =>
      "extractor " ++ token ++ " is not supported"
  | .missingArgument name =>
      "extractor " ++ name ++ " requires an argument"
  | .unexpectedArgument name =>
      "extractor " ++ name ++ " takes no argument"
  | .malformed token =>
      "malformed extractor token " ++ quote token

------------------------------------------------------------
-- Parsing
------------------------------------------------------------

/- Names of readings use ASCII lower-case letters. -/
def isNameLetter
    (c : Char) : Bool :=
  'a' ≤ c && c ≤ 'z'

/- The text between the outer parentheses of an argument. -/
def argument? : List Char → Option (List Char)
  | '(' :: rest =>
      if rest.getLast? = some ')' then
        some rest.dropLast
      else
        none
  | _ => none

/- Read the word that says what is read. -/
def Reading.parse
    (token : List Char) : Except ExtractorError Reading :=
  let name := String.ofList (token.takeWhile isNameLetter)
  let rest := token.dropWhile isNameLetter
  if rest = [] then
    if name = "text" then .ok .text
    else if name = "attr" then .error (.missingArgument name)
    else .error (.unsupported (String.ofList token))
  else
    match argument? rest with
    | none => .error (.malformed (String.ofList token))
    | some arg =>
        if name = "text" then
          .error (.unexpectedArgument name)
        else if name = "attr" then
          if arg = [] then .error (.missingArgument name)
          else .ok (.attribute (String.ofList arg))
        else .error (.unsupported (String.ofList token))

/-
  Split a leading global marker, with the blanks after it,
  from a text.
-/
def splitMarker : List Char → Bool × List Char
  | '!' :: rest => (true, trimStart rest)
  | s => (false, s)

/- Parse an extractor. -/
def Extractor.parse
    (value : String) : Except ExtractorError Extractor :=
  let body := trim value.toList
  let (front, token) :=
    match cutLast? isBlank body with
    | some (before, after) => (trim before, after)
    | none => ([], body)
  if token = [] then
    .error .empty
  else
    let (global, selector) := splitMarker front
    match Reading.parse token with
    | .error e => .error e
    | .ok reading =>
        .ok ⟨String.ofList selector, reading, global⟩

------------------------------------------------------------
-- Canonical text
------------------------------------------------------------

/- The canonical text of a reading. -/
def Reading.render : Reading → String
  | .text => "text"
  | .attribute name => "attr(" ++ name ++ ")"

/-
  The canonical text of an extractor: the marker, the
  selector and the reading, one blank apart.
-/
def Extractor.render
    (x : Extractor) : String :=
  (if x.global then "! " else "") ++
    (if x.selector = "" then "" else x.selector ++ " ") ++
    x.reading.render

------------------------------------------------------------
-- Literals
------------------------------------------------------------

/-
  The contents of a literal: a text in single quotes, with
  blanks around the quotes allowed.
-/
def literal?
    (value : String) : Option String :=
  match trim value.toList with
  | '\'' :: rest =>
      if rest.getLast? = some '\'' then
        some (String.ofList rest.dropLast)
      else
        none
  | _ => none

end MarkupMetrics
