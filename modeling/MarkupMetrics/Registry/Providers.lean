import MarkupMetrics.Registry.Scan

/-
  This file defines how providers are added to a registry and
  taken out of it, and how payloads are pushed through it.

  A provider whose short name is taken replaces the one that
  has it, and counts as the newest.

  Key definitions include:
    * `Registry.add`
    * `Registry.remove`
    * `Registry.clear`
    * `Registry.push`
-/

namespace MarkupMetrics

open Dom

namespace Registry

/- Make room for a provider. -/
def vacate
    (r : Registry)
    (page : Page)
    (name : String) : Trace (Page × Registry) :=
  if r.contains name then do
    r.note .warn
      ("Provider " ++ name ++
        " is already registered and will be replaced")
    let (page, r) := r.unbind page (some name)
    return (page, r.drop name)
  else
    return (page, r)

/-
  Register a provider under a number, and attach its handlers
  in the whole document.
-/
def add
    (r : Registry)
    (page : Page)
    (provider : Provider)
    (number : Nat) : Trace (Page × Registry × Nat) := do
  let name := provider.shortName
  r.note .info
    ("Adding provider " ++ provider.name ++ " (" ++ name ++ ")")
  let (page, r) ← r.vacate page name
  let e : Entry := { provider, number }
  let r := { r with entries := r.entries ++ [e] }
  r.scan page none (some name)

/-
  Detach the listeners of a provider and take it out.  The
  result says whether it was registered.
-/
def remove
    (r : Registry)
    (page : Page)
    (name : String) : Trace (Page × Registry × Bool) :=
  if r.contains name then do
    let (page, r) := r.unbind page (some name)
    let r := r.drop name
    r.note .info ("Removed provider " ++ name)
    return (page, r, true)
  else do
    r.note .warn ("Provider " ++ name ++ " is not registered")
    return (page, r, false)

/- Detach all listeners and take out all providers. -/
def clear
    (r : Registry)
    (page : Page) : Page × Registry :=
  let (page, r) := r.unbind page none
  (page, { r with entries := [] })

/- Push a payload on behalf of a provider. -/
def push
    (r : Registry)
    (name : String)
    (payload : Payload) : Trace Unit :=
  match r.entry? name with
  | some e => (r.context e).push payload
  | none =>
      r.note .error
        ("Provider " ++ name ++
          " is not registered, cannot push " ++ payload.render)

end Registry

end MarkupMetrics
