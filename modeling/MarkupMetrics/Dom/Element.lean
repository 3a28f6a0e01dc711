/-
  This file defines qualified names, attributes and the data
  of an element.

  An attribute list keeps its order.  Reading goes by local
  name and takes the first hit; writing goes by the whole
  qualified name.

  Key definitions include:
    * `Namespace`
    * `QualName`
    * `Attribute`
    * `Attribute.setValue`
    * `Attribute.removeNamed`
    * `Attribute.addMissing`
    * `Element`
    * `Element.attr?`
-/

namespace MarkupMetrics

namespace Dom

------------------------------------------------------------
-- Names
------------------------------------------------------------

/- The namespaces that occur in a page. -/
inductive Namespace where
  | none
  | html
  | svg
  | mathml
  | xlink
  | xml
  | xmlns
deriving DecidableEq, Repr

/- A name with its namespace and an optional short form of it. -/
structure QualName where
  nsPrefix : Option String := Option.none
  space : Namespace
  local_ : String
deriving DecidableEq, Repr

/- The name of an HTML element. -/
def QualName.html
    (name : String) : QualName :=
  { space := .html, local_ := name }

/- The name of an attribute without namespace. -/
def QualName.plain
    (name : String) : QualName :=
  { space := .none, local_ := name }

------------------------------------------------------------
-- Attributes
------------------------------------------------------------

/- An attribute of an element. -/
structure Attribute where
  name : QualName
  value : String
deriving DecidableEq, Repr

namespace Attribute

/- An attribute without namespace. -/
def plain
    (name value : String) : Attribute :=
  ⟨.plain name, value⟩

/-
  Set the value under a qualified name: in place if it is
  there, else at the end.
-/
def setValue
    (name : QualName)
    (value : String) : List Attribute → List Attribute
  | [] => [⟨name, value⟩]
  | a :: rest =>
      if a.name = name then
        ⟨name, value⟩ :: rest
      else
        a :: setValue name value rest

/- Remove the first attribute with a local name. -/
def removeNamed
    (name : String) : List Attribute → List Attribute
  | [] => []
  | a :: rest =>
      if a.name.local_ = name then
        rest
      else
        a :: removeNamed name rest

/- Whether a qualified name is there. -/
def hasName
    (attrs : List Attribute)
    (name : QualName) : Bool :=
  attrs.any fun a => a.name = name

/- Add, in order, the attributes whose name is not there yet. -/
def addMissing
    (attrs new : List Attribute) : List Attribute :=
  new.foldl
    (fun acc a => if hasName acc a.name then acc else acc ++ [a])
    attrs

end Attribute

------------------------------------------------------------
-- Elements
------------------------------------------------------------

/- The data of an element. -/
structure Element where
  name : QualName
  attrs : List Attribute
deriving DecidableEq, Repr

namespace Element

/- The value of the first attribute with a local name. -/
def attr?
    (e : Element)
    (name : String) : Option String :=
  (e.attrs.find? fun a => a.name.local_ = name).map (·.value)

/- Whether an attribute with a local name is there. -/
def hasAttr
    (e : Element)
    (name : String) : Bool :=
  e.attrs.any fun a => a.name.local_ = name

/- The value of the `id` attribute. -/
def id?
    (e : Element) : Option String :=
  e.attr? "id"

end Element

end Dom

end MarkupMetrics
