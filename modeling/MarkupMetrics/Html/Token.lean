/-
  This file defines the tokens of a page.

  Text comes in runs that are blank throughout or not blank
  anywhere, because many rules treat the two apart.

  Key definitions include:
    * `Tag`
    * `Doctype`
    * `Token`
    * `TextKind`
-/

namespace MarkupMetrics

namespace Html

/- A start or end tag. -/
structure Tag where
  name : String
  attrs : List (String × String) := []
  selfClosing : Bool := false
deriving DecidableEq, Repr

/- A document type declaration. -/
structure Doctype where
  name : Option String := none
  publicId : Option String := none
  systemId : Option String := none
  isBroken : Bool := false
deriving DecidableEq, Repr

/-
  A token.  `nul` is a null character in ordinary text and
  `flaw` a fault in the text that leaves no other trace.
-/
inductive Token where
  | doctype (declared : Doctype)
  | startTag (tag : Tag)
  | endTag (tag : Tag)
  | comment
  | chars (blank : Bool) (text : List Char)
  | nul
  | flaw
  | eof
deriving DecidableEq, Repr

/- How the text that follows is read. -/
inductive TextKind where
  | data
  | rcdata
  | rawtext
  | script
  | plaintext
deriving DecidableEq, Repr

namespace Tag

/- The value of an attribute. -/
def attr?
    (t : Tag)
    (name : String) : Option String :=
  (t.attrs.find? fun a => a.1 == name).map Prod.snd

/- Whether two tags have the same name and attributes. -/
def isLike
    (t u : Tag) : Bool :=
  t.name == u.name && t.attrs.isPerm u.attrs

end Tag

end Html

end MarkupMetrics
