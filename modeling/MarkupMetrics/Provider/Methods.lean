import MarkupMetrics.Text.Case

/-
  This file defines method tables: a provider's builders
  keyed by declared method name.  Names are put into title
  case on the way in and on lookup, and the last builder
  inserted under a name stays.

  Key definitions include:
    * `MethodTable`
    * `MethodTable.insert`
    * `MethodTable.get?`
    * `MethodTable.ofList`
    * `MethodTable.size`
-/

namespace MarkupMetrics

open Text

/- Builders under distinct title-cased names. -/
structure MethodTable (β : Type) where
  entries : List (String × β) := []

namespace MethodTable

variable {β : Type}

/- Set the value under a key in a list of distinct keys. -/
def setEntry
    (key : String)
    (value : β) : List (String × β) → List (String × β)
  | [] => [(key, value)]
  | e :: rest =>
      if e.1 = key then
        (key, value) :: rest
      else
        e :: setEntry key value rest

/- Insert a builder under a method name. -/
def insert
    (t : MethodTable β)
    (method : String)
    (builder : β) : MethodTable β :=
  ⟨setEntry (titleCase method) builder t.entries⟩

/- The builder for a declared method. -/
def get?
    (t : MethodTable β)
    (method : String) : Option β :=
  (t.entries.find? fun e => e.1 == titleCase method).map
    Prod.snd

/- The table with builders inserted in order. -/
def ofList
    (methods : List (String × β)) : MethodTable β :=
  methods.foldl (fun t m => t.insert m.1 m.2) {}

/- The number of distinct names. -/
def size
    (t : MethodTable β) : Nat :=
  t.entries.length

/- Whether there is no name. -/
def isEmpty
    (t : MethodTable β) : Bool :=
  t.entries.isEmpty

end MethodTable

end MarkupMetrics
