import MarkupMetrics.Dom.Tree
import MarkupMetrics.Html.Doctype
import MarkupMetrics.Text.Blank

/-
  This file finds out whether a tag declares the encoding of
  its page.

  A declaration is an attribute `charset`, or a content type
  that says `charset=` and a name.  A content type that ends
  right after the word `charset` cannot be taken, and is a
  fault.

  Key definitions include:
    * `isContentType`
    * `afterCharset`
    * `namesEncoding`
    * `Tag.declaresEncoding`
-/

namespace MarkupMetrics

namespace Html

open Dom Text

/- Whether a text is `content-type`, in any letter case. -/
def isContentType
    (value : String) : Bool :=
  lowerText value.toList == "content-type"

/-
  The text after the first word `charset` with an equals sign
  behind it, in any letter case.
-/
def afterCharset :
    List Char → Except Fault (Option (List Char))
  | [] => .ok none
  | c :: rest =>
      match dropWord? "charset" (c :: rest) with
      | none => afterCharset rest
      | some after =>
          match after.dropWhile isAsciiBlank with
          | [] => .error .cutOffDeclaration
          | '=' :: name => .ok (some name)
          | _ => afterCharset rest

/-
  Whether a name comes next.  A name that starts with a quote
  has to end with it.
-/
def namesEncoding
    (s : List Char) : Bool :=
  match s.dropWhile isAsciiBlank with
  | [] => false
  | c :: rest =>
      if c = '"' ∨ c = '\'' then rest.contains c else true

/- Whether a content type declares an encoding. -/
def contentDeclares
    (content : String) : Except Fault Bool := do
  match ← afterCharset content.toList with
  | some name => return namesEncoding name
  | none => return false

/- Whether a tag declares an encoding. -/
def Tag.declaresEncoding
    (t : Tag) : Except Fault Bool :=
  if (t.attr? "charset").isSome then .ok true
  else if (t.attr? "http-equiv").any isContentType then
    match t.attr? "content" with
    | some content => contentDeclares content
    | none => .ok false
  else .ok false

end Html

end MarkupMetrics
