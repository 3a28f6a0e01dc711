import MarkupMetrics.Registry.Basic

/-
  This file defines how a page is scanned for elements that
  declare an event, and listeners are attached to them.

  The elements are visited in document order, and for each of
  them the providers in the order of registration.  A counter
  goes along and counts the listeners that are attached.

  Key definitions include:
    * `declaredEvent?`
    * `Declaration`
    * `Registry.declaration?`
    * `Registry.bindEntry`
    * `Registry.bindEntries`
    * `Registry.scan`
-/

namespace MarkupMetrics

open Dom Text

------------------------------------------------------------
-- Declarations
------------------------------------------------------------

/-
  The event that a text declares: its last word, delegated by
  the word before it if there is one.
-/
def declaredEvent?
    (value : String) : Option (String × Option String) :=
  match (words value.toList).reverse with
  | [] => none
  | [event] => some (String.ofList event, none)
  | event :: selector :: _ =>
      some (String.ofList event, some (String.ofList selector))

/- What an element declares. -/
structure Declaration where
  element : NodeId
  event : String
  selector : Option String
  condition : Option String
deriving DecidableEq, Repr

namespace Registry

/-
  What an element declares.  An attribute without any word
  leaves a note.
-/
def declaration?
    (r : Registry)
    (t : Tree)
    (element : NodeId) : Trace (Option Declaration) := do
  match t.attr? element r.config.eventAttribute with
  | none => return none
  | some value =>
      match declaredEvent? value with
      | none =>
          r.note .warn
            ("Node " ++ decimalText element ++
              " declares an empty event")
          return none
      | some (event, selector) =>
          let condition :=
            t.attr? element r.config.conditionAttribute
          return some ⟨element, event, selector, condition⟩

------------------------------------------------------------
-- Attaching
------------------------------------------------------------

/- Attach a handler as an element declares it. -/
def attachDeclared
    (page : Page)
    (d : Declaration)
    (h : Handler) : Trace (Page × Nat) :=
  match d.selector with
  | some selector => page.delegate d.element selector d.event h
  | none => page.bind d.element d.event h

/-
  Attach the handler of one provider, unless it declines, and
  record it at the end of the provider's listeners.
-/
def bindEntry
    (r : Registry)
    (d : Declaration)
    (page : Page)
    (attached : Nat)
    (e : Entry) : Trace (Page × Nat × Entry) := do
  let built ←
    e.provider.buildHandler (r.context e) r.config.debug
      page.tree d.element d.condition
  match built with
  | none => return (page, attached, e)
  | some h =>
      let (page, id) ← attachDeclared page d h
      let b : Binding := ⟨d.element, d.event, d.selector, id⟩
      let e := { e with bindings := e.bindings ++ [b] }
      return (page, attached + 1, e)

/- Attach the handlers of the providers that are meant. -/
def bindEntries
    (r : Registry)
    (only : Option String)
    (d : Declaration)
    (page : Page)
    (attached : Nat) :
    List Entry → Trace (Page × Nat × List Entry)
  | [] => return (page, attached, [])
  | e :: rest => do
      let (page, attached, e) ←
        if e.isMeant only then r.bindEntry d page attached e
        else pure (page, attached, e)
      let (page, attached, rest) ←
        bindEntries r only d page attached rest
      return (page, attached, e :: rest)

/- Attach the handlers for one element. -/
def bindElement
    (only : Option String)
    (state : Page × Registry × Nat)
    (element : NodeId) : Trace (Page × Registry × Nat) := do
  let (page, r, attached) := state
  match ← r.declaration? page.tree element with
  | none => return (page, r, attached)
  | some d =>
      r.note .info
        ("Binding analytics handlers for node " ++
          decimalText element ++ " on " ++ d.event)
      let (page, attached, entries) ←
        r.bindEntries only d page attached r.entries
      return (page, { r with entries }, attached)

------------------------------------------------------------
-- Scanning
------------------------------------------------------------

/- The selector of the elements that declare an event. -/
def eventSelector
    (r : Registry) : String :=
  "[" ++ r.config.eventAttribute ++ "]"

/-
  Attach the handlers of one provider, or of all, to what
  declares an event below a node, or anywhere in the document.
  The result counts the listeners that were attached.
-/
def scan
    (r : Registry)
    (page : Page)
    (root : Option NodeId)
    (only : Option String) :
    Trace (Page × Registry × Nat) := do
  let elements ← page.tree.find (root.getD 0) r.eventSelector
  elements.foldlM (bindElement only) (page, r, 0)

end Registry

end MarkupMetrics
