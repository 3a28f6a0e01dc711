import MarkupMetrics.Proofs.Document.Comparing
import MarkupMetrics.Proofs.Registry.Accounts
import MarkupMetrics.Proofs.Registry.Plan
import MarkupMetrics.Proofs.Session.History
import Mathlib.Data.List.Count

/-
  This file proves that sessions whose listeners differ in
  their numbers only behave in the same way.

  Such sessions have the same bindings, but for the numbers,
  and give the same answers and reports to any sequence of
  events.

  Key definitions include:
    * `Session.outputs`
    * `Session.Alike`
    * `Session.Likewise`

  Key theorems include:
    * `Registry.Accounts.perm_bindings`
    * `Session.Alike.outputs`
    * `Session.Alike.likewise`
-/

namespace MarkupMetrics

open Dom

------------------------------------------------------------
-- Bindings without numbers
------------------------------------------------------------

/- A binding without the number of its listener. -/
def Binding.unnumbered
    (b : Binding) : Binding :=
  { b with listener := 0 }

/- Lists with the same parts for every key hold the same. -/
theorem perm_of_filter
    {α κ : Type}
    [DecidableEq κ]
    (key : α → κ)
    {as bs : List α}
    (hParts :
      ∀ k, as.filter (key · = k) = bs.filter (key · = k)) :
    as.Perm bs := by
  classical
  rw [List.perm_iff_count]
  intro a
  have hCount := congrArg (List.count a) (hParts (key a))
  rwa [List.count_filter (by simp),
    List.count_filter (by simp)] at hCount

/- Altogether the listeners are the same if they are each. -/
theorem Document.Matches.perm
    {η : Type}
    {d d' : Document η}
    (hMatches : Matches d d') :
    (d'.listeners.map Listener.unnumbered).Perm
      (d.listeners.map Listener.unnumbered) := by
  have hParts :
      ∀ (x : Document η) node,
        (x.listeners.map Listener.unnumbered).filter
            (·.node = node) =
          (x.listenersOf node).map Listener.unnumbered := by
    intro x node
    rw [List.filter_map]
    rfl
  apply perm_of_filter (·.node)
  intro node
  rw [hParts, hParts, hMatches.listeners]

namespace Registry

/- What is due for a listener without its number. -/
theorem own?_unnumbered
    (number : Nat)
    (l : Listener Handler) :
    l.unnumbered.own? number =
      (l.own? number).map fun x => (x.1, x.2.unnumbered) := by
  unfold Listener.own?
  cases hHandler : l.handler with
  | recorder label => simp [Listener.unnumbered, hHandler]
  | provided cx guard raw =>
      by_cases hNumber : cx.registry = number
      · simp [Listener.unnumbered, hHandler, hNumber,
          Binding.unnumbered, Listener.source?]
      · simp [Listener.unnumbered, hHandler, hNumber]

/- The records for a name are those of the entries meant. -/
theorem recorded_named
    (r : Registry)
    (name : String) :
    (r.recorded.filter fun x =>
        x.1.shortName == name).map (·.2) =
      r.meant (some name) := by
  simp only [recorded, meant, List.filter_flatMap,
    List.map_flatMap]
  induction r.entries with
  | nil => rfl
  | cons e rest ih =>
      have hSelf :
          (e.bindings.map fun b =>
              (r.context e, b)).map (·.2) = e.bindings := by
        rw [List.map_map]
        exact List.map_id _
      rw [List.flatMap_cons, ih]
      by_cases hName : e.shortName = name
      · have hMeant : e.isMeant (some name) = true := by
          simp [Entry.isMeant, hName]
        rw [List.filter_cons_of_pos hMeant, List.flatMap_cons,
          List.filter_eq_self.mpr (by
            intro x hMember
            rcases List.mem_map.mp hMember with ⟨b, _, rfl⟩
            simp [context, hName]), hSelf]
      · have hMeant : e.isMeant (some name) = false := by
          simpa [Entry.isMeant] using fun h => hName h.symm
        rw [List.filter_cons_of_neg (by simp [hMeant]),
          List.filter_eq_nil_iff.mpr (by
            intro x hMember
            rcases List.mem_map.mp hMember with ⟨b, _, rfl⟩
            simp [context, hName])]
        rfl

/-
  If all records are alive, the bindings of a name are what is
  due for the listeners that act for the name.
-/
theorem Accounts.perm_bindings
    {page : Page}
    {r : Registry}
    (hAccounts : Accounts (fun _ => true) page r)
    (name : String) :
    ((r.meant (some name)).map Binding.unnumbered).Perm
      ((((page.listeners.map Listener.unnumbered).filterMap
        (·.own? r.number)).filter fun x =>
          x.1.shortName == name).map (·.2)) := by
  have hAll :
      r.recorded.filter (fun _ => true) = r.recorded :=
    List.filter_eq_self.mpr fun _ _ => rfl
  have hOwn := hAccounts.own
  rw [hAll] at hOwn
  have hNamed :=
    ((hOwn.filter fun x => x.1.shortName == name).map
      (·.2)).map Binding.unnumbered
  rw [recorded_named] at hNamed
  refine hNamed.symm.trans (List.Perm.of_eq ?_)
  rw [List.filterMap_map]
  have hEach :
      ((·.own? r.number) ∘ Listener.unnumbered) =
        fun l : Listener Handler =>
          (l.own? r.number).map fun x =>
            (x.1, x.2.unnumbered) := by
    funext l
    exact own?_unnumbered r.number l
  rw [hEach, ← List.map_filterMap, List.filter_map,
    List.map_map, List.map_map]
  rfl

end Registry

------------------------------------------------------------
-- Sessions
------------------------------------------------------------

namespace Session

/- What a row of operations answers and reports. -/
def outputs
    (s : Session) :
    List Operation → Except Fault (List (Answer × List Report))
  | [] => return []
  | operation :: rest => do
      let (s, answer, reports) ← s.step operation
      return (answer, reports) :: (← s.outputs rest)

/- The operation that an event at a node is. -/
def eventAt
    (e : NodeId × String) : Operation :=
  .page (.dispatch e.1 e.2)

/- An event changes the counts of runs, and nothing else. -/
theorem step_eventAt
    (s : Session)
    (e : NodeId × String) :
    s.step (eventAt e) =
      match
          s.page.dispatch (Handler.run s.diagnoses) e.1 e.2 with
      | .fault why => .error why
      | .done n effects =>
          .ok
            ({ s with
                providers :=
                  effects.foldl countRun s.providers },
              .count n, effects.flatMap (s.report true)) := by
  have hPerform :
      s.perform (eventAt e) =
        (do
          let n ←
            s.page.dispatch (Handler.run s.diagnoses) e.1 e.2
          return (s, .count n)) := by
    simp [perform, eventAt, PageOperation.perform,
      surroundings]
  rw [step, hPerform]
  cases s.page.dispatch (Handler.run s.diagnoses) e.1 e.2 with
  | fault why => rfl
  | done n effects =>
      simp [bind, Trace.bind, pure, Trace.pure, Trace.after,
        settle, eventAt, callerDebug]

/-
  Two sessions have pages whose listeners differ in their
  numbers only, and the same settings.
-/
structure Alike
    (s s' : Session) : Prop where
  page : s.page.Matches s'.page
  number : s'.registry.number = s.registry.number
  config : s'.registry.config = s.registry.config
  retired : s'.retired = s.retired
  transports :
    s'.providers.map (·.hasTransport) =
      s.providers.map (·.hasTransport)

/- Counting runs leaves the transports. -/
theorem transports_countRun
    (effects : List Effect)
    (states : List ProviderState) :
    (effects.foldl countRun states).map (·.hasTransport) =
      states.map (·.hasTransport) := by
  induction effects generalizing states with
  | nil => rfl
  | cons effect rest ih =>
      rw [List.foldl_cons, ih]
      cases effect with
      | ran provider =>
          apply List.ext_getElem?
          intro i
          simp only [countRun, List.getElem?_map,
            List.getElem?_modify, Option.map_eq_map]
          cases states[i]? with
          | none => rfl
          | some state =>
              by_cases hSame : provider = i
              · simp [hSame]
              · simp [hSame]
      | _ => rfl

namespace Alike

variable {s s' : Session}

theorem configOf
    (hAlike : Alike s s') :
    s'.configOf = s.configOf := by
  funext number
  simp only [Session.configOf, hAlike.number, hAlike.config,
    hAlike.retired]

/- Diagnostics are on for the same registries. -/
theorem diagnoses
    (hAlike : Alike s s') :
    s'.diagnoses = s.diagnoses := by
  funext number
  rw [Session.diagnoses, hAlike.configOf, Session.diagnoses]

/- Effects come to the same. -/
theorem report
    (hAlike : Alike s s')
    (debug : Bool) :
    s'.report debug = s.report debug := by
  have hConfig := hAlike.configOf
  have hTransport : s'.hasTransport = s.hasTransport := by
    funext provider
    simp only [Session.hasTransport, ← List.getElem?_map,
      hAlike.transports]
  have hShows : s'.shows = s.shows := by
    funext debug origin
    cases origin with
    | registry number scope =>
        simp only [shows, hAlike.diagnoses]
    | _ => rfl
  have hNoted : s'.noted = s.noted := by
    funext debug origin level message
    simp only [noted, hShows]
  funext effect
  cases effect with
  | note origin level message =>
      simp only [Session.report, hNoted]
  | push cx payload =>
      simp only [Session.report, delivered, hNoted, hConfig,
        hTransport]
  | _ => rfl

theorem counted
    (hAlike : Alike s s')
    (effects : List Effect) :
    Alike
      { s with
        providers := effects.foldl countRun s.providers }
      { s' with
        providers := effects.foldl countRun s'.providers } :=
  { hAlike with
    transports := by
      simp only [transports_countRun]
      exact hAlike.transports }

/- Any sequence of events comes to the same. -/
theorem outputs
    (hAlike : Alike s s')
    (events : List (NodeId × String)) :
    s'.outputs (events.map eventAt) =
      s.outputs (events.map eventAt) := by
  induction events generalizing s s' with
  | nil => rfl
  | cons e rest ih =>
      have hDispatch :=
        hAlike.page.dispatch (Handler.run s.diagnoses) e.1 e.2
      rw [List.map_cons, Session.outputs, Session.outputs,
        step_eventAt, step_eventAt, hAlike.diagnoses, hDispatch]
      cases
          s.page.dispatch (Handler.run s.diagnoses) e.1 e.2 with
      | fault why => rfl
      | done n effects =>
          have hNext := ih (hAlike.counted effects)
          simp only [Outcome.ok_bind, hAlike.report, hNext]

end Alike

/-
  Two sessions are the same but for the numbers of listeners:
  in the tree, in the listeners of every node, in the bindings
  of every provider, and in what every later event does.
-/
structure Likewise
    (s s' : Session) : Prop where
  tree : s'.page.tree = s.page.tree
  listeners :
    ∀ node,
      (s'.page.listenersOf node).map Listener.unnumbered =
        (s.page.listenersOf node).map Listener.unnumbered
  names : s'.registry.names = s.registry.names
  bindings :
    ∀ name,
      ((s'.registry.bindings name).map
          Binding.unnumbered).Perm
        ((s.registry.bindings name).map Binding.unnumbered)
  calls :
    ∀ target event,
      (s'.page.calls target event).map
          (List.map Call.unnumbered) =
        (s.page.calls target event).map
          (List.map Call.unnumbered)
  outputs :
    ∀ events : List (NodeId × String),
      s'.outputs (events.map eventAt) =
        s.outputs (events.map eventAt)

/-
  Sessions that are alike, and whose providers are the same,
  are the same in all of this if no record has lost its
  listener.
-/
theorem Alike.likewise
    {s s' : Session}
    (hAlike : Alike s s')
    (hMembers : s'.registry.members = s.registry.members)
    (hDistinct : s.registry.names.Nodup)
    (hAccounts :
      Registry.Accounts (fun _ => true) s.page s.registry)
    (hAccounts' :
      Registry.Accounts (fun _ => true) s'.page s'.registry) :
    Likewise s s' := by
  have hNames : s'.registry.names = s.registry.names := by
    rw [Registry.names_eq_members, hMembers,
      Registry.names_eq_members]
  refine
    ⟨hAlike.page.tree, hAlike.page.listeners, hNames, ?_,
      hAlike.page.calls, hAlike.outputs⟩
  intro name
  have hFirst := hAccounts.perm_bindings name
  have hSecond := hAccounts'.perm_bindings name
  rw [Registry.meant_eq_bindings hDistinct] at hFirst
  rw [Registry.meant_eq_bindings (hNames ▸ hDistinct),
    hAlike.number] at hSecond
  refine hSecond.trans (List.Perm.trans ?_ hFirst.symm)
  exact
    ((hAlike.page.perm.filterMap _).filter _).map _

end Session

end MarkupMetrics
