import MarkupMetrics.Config.Basic
import MarkupMetrics.Document.Basic
import MarkupMetrics.Provider.Handler

/-
  This file defines registries: the providers that are in
  use, in the order of registration, with the listeners that
  were attached for each.

  Key definitions include:
    * `Page`
    * `Binding`
    * `Entry`
    * `Registry`
    * `Registry.entry?`
    * `Entry.detachAll`
    * `Registry.unbind`
-/

namespace MarkupMetrics

open Dom

------------------------------------------------------------
-- Types
------------------------------------------------------------

/- A document whose listeners carry handlers. -/
abbrev Page :=
  Document Handler

/-
  A listener that was attached for a provider.  A delegated
  one has the text of a selector.
-/
structure Binding where
  element : NodeId
  event : String
  selector : Option String
  listener : Nat
deriving DecidableEq, Repr

/- A provider in use, by its number, with its listeners. -/
structure Entry where
  provider : Provider
  number : Nat
  bindings : List Binding := []

/- The short name of the provider of an entry. -/
def Entry.shortName
    (e : Entry) : String :=
  e.provider.shortName

/-
  The providers in use, with distinct short names.  Registries
  are told apart by their number.
-/
structure Registry where
  number : Nat
  config : Config
  entries : List Entry := []

namespace Registry

/- The entry of a provider. -/
def entry?
    (r : Registry)
    (name : String) : Option Entry :=
  r.entries.find? fun e => e.shortName == name

/- Whether a provider is registered. -/
def contains
    (r : Registry)
    (name : String) : Bool :=
  (r.entry? name).isSome

/- The short names in the order of registration. -/
def names
    (r : Registry) : List String :=
  r.entries.map Entry.shortName

/- The listeners attached for a provider. -/
def bindings
    (r : Registry)
    (name : String) : List Binding :=
  ((r.entry? name).map (·.bindings)).getD []

/- Who acts on behalf of an entry. -/
def context
    (r : Registry)
    (e : Entry) : Context :=
  ⟨r.number, e.number, e.shortName⟩

/- Write a note on behalf of the registry. -/
def note
    (r : Registry)
    (level : Level)
    (message : String) : Trace Unit :=
  Trace.note (.registry r.number "registry") level message

/- Let payloads reach transports, or not. -/
def setEnabled
    (r : Registry)
    (enabled : Bool) : Registry :=
  { r with config := { r.config with enabled } }

/- Show diagnostics, or not. -/
def setDebug
    (r : Registry)
    (debug : Bool) : Registry :=
  { r with config := { r.config with debug } }

end Registry

------------------------------------------------------------
-- Detaching
------------------------------------------------------------

/- Detach the listener of a binding. -/
def Binding.detach
    (page : Page)
    (b : Binding) : Page :=
  page.detach b.element b.event b.selector b.listener

namespace Entry

/- Detach all listeners of an entry. -/
def detachAll
    (page : Page)
    (e : Entry) : Page :=
  e.bindings.foldl Binding.detach page

/- An entry without listeners. -/
def released
    (e : Entry) : Entry :=
  { e with bindings := [] }

/- Whether an entry is among those meant by an optional name. -/
def isMeant
    (only : Option String)
    (e : Entry) : Bool :=
  only.all (· == e.shortName)

end Entry

namespace Registry

/-
  Detach the listeners of one provider, or of all.  The
  providers stay registered.
-/
def unbind
    (r : Registry)
    (page : Page)
    (only : Option String) : Page × Registry :=
  let meant := r.entries.filter (·.isMeant only)
  (meant.foldl Entry.detachAll page,
    { r with
      entries :=
        r.entries.map fun e =>
          if e.isMeant only then e.released else e })

/- Take a provider out. -/
def drop
    (r : Registry)
    (name : String) : Registry :=
  { r with entries := r.entries.filter (·.shortName != name) }

end Registry

end MarkupMetrics
