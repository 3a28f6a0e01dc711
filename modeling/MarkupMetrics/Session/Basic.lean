import MarkupMetrics.Registry.Providers

/-
  This file defines sessions: a page, the registry in use on
  it, and the switches that decide what effects come to.

  A note of the page always shows.  A note of a registry shows
  if the debug switch of that registry is on.  A payload
  reaches the transport if pushing is enabled and the provider
  has a transport at that moment.

  What a parser complains of in a page is given with the
  session; what it makes of the page is not influenced by it.

  Key definitions include:
    * `ProviderState`
    * `Session`
    * `Report`
    * `Session.diagnoses`
    * `Session.shows`
    * `Session.report`
    * `Session.settle`
-/

namespace MarkupMetrics

open Dom

------------------------------------------------------------
-- State
------------------------------------------------------------

/-
  What is known of a provider by its number: whether it has a
  transport, and how often it noted a run.
-/
structure ProviderState where
  hasTransport : Bool
  runs : Nat := 0
deriving DecidableEq, Repr

/-
  What a parser finds wrong with a page that has no document
  type, and is right otherwise.
-/
def typelessComplaints : String → List String :=
  fun _ => ["Unexpected token"]

/-
  A page with the registry in use.  `retired` holds the
  configurations of former registries, whose listeners may
  still be attached, by their numbers.  `complaints` gives
  what the parser finds wrong with the text of a page.
-/
structure Session where
  page : Page
  registry : Registry
  initial : Config
  retired : List Config := []
  providers : List ProviderState := []
  complaints : String → List String := typelessComplaints

/- What an effect comes to. -/
inductive Report where
  | log (level : Level) (scope : Option String)
      (message : String)
  | heard (hearing : Hearing)
  | pushed (payload : Payload)

namespace Session

/- A session on a page with an empty registry. -/
def start
    (page : Page)
    (config : Config)
    (complaints : String → List String := typelessComplaints) :
    Session :=
  { page
    registry := { number := 0, config }
    initial := config
    complaints }

/- The configuration of a registry, as it is now. -/
def configOf
    (s : Session)
    (number : Nat) : Config :=
  if number = s.registry.number then s.registry.config
  else s.retired[number]?.getD {}

/- Whether diagnostics are on for a registry now. -/
def diagnoses
    (s : Session)
    (number : Nat) : Bool :=
  (s.configOf number).debug

/- Whether a provider has a transport now. -/
def hasTransport
    (s : Session)
    (provider : Nat) : Bool :=
  (s.providers[provider]?.map (·.hasTransport)).getD false

/- How often a provider noted a run. -/
def runs
    (s : Session)
    (provider : Nat) : Nat :=
  (s.providers[provider]?.map (·.runs)).getD 0

------------------------------------------------------------
-- Effects
------------------------------------------------------------

/-
  Whether a note shows.  `debug` is the switch of a caller
  outside of any registry.
-/
def shows
    (s : Session)
    (debug : Bool) : Origin → Bool
  | .page => true
  | .caller _ => debug
  | .registry number _ => s.diagnoses number

/- The scope that a note is shown under. -/
def scope? : Origin → Option String
  | .page => none
  | .caller scope => some scope
  | .registry _ scope => some scope

/- A note, if it shows. -/
def noted
    (s : Session)
    (debug : Bool)
    (origin : Origin)
    (level : Level)
    (message : String) : List Report :=
  if s.shows debug origin then
    [.log level (scope? origin) message]
  else []

/- What sending a payload comes to. -/
def delivered
    (s : Session)
    (debug : Bool)
    (cx : Context)
    (payload : Payload) : List Report :=
  if !(s.configOf cx.registry).enabled then
    s.noted debug cx.origin .warn "Push is not enabled!"
  else if s.hasTransport cx.provider then [.pushed payload]
  else
    s.noted debug cx.origin .warn "Analytics object not defined!"

/- What an effect comes to. -/
def report
    (s : Session)
    (debug : Bool) : Effect → List Report
  | .note origin level message =>
      s.noted debug origin level message
  | .heard hearing => [.heard hearing]
  | .ran _ => []
  | .push cx payload =>
      s.noted debug cx.origin .info
          ("pushing -> " ++ payload.render) ++
        s.delivered debug cx payload

/- Count the run that an effect notes. -/
def countRun
    (states : List ProviderState) : Effect → List ProviderState
  | .ran provider =>
      states.modify provider fun p => { p with runs := p.runs + 1 }
  | _ => states

/- Count the runs, and give what the effects come to. -/
def settle
    (s : Session)
    (debug : Bool)
    (effects : List Effect) : Session × List Report :=
  ({ s with providers := effects.foldl countRun s.providers },
    effects.flatMap (s.report debug))

end Session

end MarkupMetrics
