import MarkupMetrics.Proofs.Registry.Scanning
import MarkupMetrics.Proofs.Session.History
import MarkupMetrics.Provider.Samples
import Mathlib

/-
  This file proves what a scan of a page makes of a session.

  The elements below the root are gone through in document
  order, and for each of them the providers in the order of
  registration.  For every pair for which a handler is built
  there is one listener more, and one record of it.  Nothing
  else changes.

  Key definitions include:
    * `RegistryOperation.scanning`
    * `Session.scanned`
    * `Session.Scans`

  Key theorems include:
    * `Registry.recording_of_not_meant`
    * `Session.scanning_of_distinct`
-/

namespace MarkupMetrics

open Dom

/- The operation that scans for all providers, or for one. -/
def RegistryOperation.scanning
    (only : Option String)
    (root : Option NodeId) : RegistryOperation :=
  match only with
  | none => .parse root
  | some name => .parseFor name root

/- What is offered comes from providers that are meant. -/
theorem Registry.recording_of_not_meant
    {r : Registry}
    {only : Option String}
    {e : Entry}
    (hOther : e.isMeant only = false)
    (t : Tree)
    (below : List NodeId)
    (first : Nat) :
    e.recording
        (numbered first (r.offered t (r.pairs only t below))) =
      e := by
  apply Entry.recording_of_others
  intro x hMember hName
  rcases List.mem_map.mp hMember with ⟨⟨o, id⟩, hNumbered, rfl⟩
  have hOffer := List.fst_mem_of_mem_zipIdx hNumbered
  simp only [offered, List.mem_filterMap,
    Option.map_eq_some_iff] at hOffer
  rcases hOffer with ⟨⟨x, m⟩, hPair, h, _, rfl⟩
  have hChosen := (List.mem_product.mp hPair).2
  have hMeant := (List.mem_filter.mp hChosen).2
  have hSame : m.1.shortName = e.shortName := hName
  rw [hSame] at hMeant
  rw [Entry.isMeant, hMeant] at hOther
  cases hOther

namespace Session

/- A session after a scan has attached and recorded a plan. -/
def scanned
    (s : Session)
    (offers : List Offer) : Session :=
  s.withPage (s.page.fulfilled offers)
    (s.registry.recording
      (Registry.numbered s.page.nextListener offers))

theorem perform_scanning_gives_iff
    {s : Session}
    {only : Option String}
    {root : Option NodeId}
    {result : Session × Answer} :
    (s.perform (.registry (.scanning only root))).Gives
        result ↔
      ∃ w,
        (s.registry.scan s.page root only).Gives w ∧
          result = (s.withPage w.1 w.2.1, .count w.2.2) := by
  cases only with
  | none =>
      simp only [perform, RegistryOperation.scanning,
        RegistryOperation.perform, Trace.gives_bind_iff,
        Trace.gives_pure_iff]
      simp only [eq_comm]
  | some name =>
      simp only [perform, RegistryOperation.scanning,
        RegistryOperation.perform, Trace.gives_bind_iff,
        Trace.gives_pure_iff]
      simp only [eq_comm]

/-
  What a scan of some nodes makes of a session: building ends
  for all pairs of an element and a provider, the handlers that
  are built are attached, recorded and counted, and all other
  providers stay as they are.
-/
structure Scans
    (s : Session)
    (only : Option String)
    (below : List NodeId)
    (s' : Session)
    (answer : Answer) : Prop where
  built :
    ∀ p ∈ s.registry.pairs only s.page.tree below,
      ∃ built, (s.registry.build s.page.tree p).Gives built
  session :
    s' =
      s.scanned
        (s.registry.offered s.page.tree
          (s.registry.pairs only s.page.tree below))
  answer :
    answer =
      .count
        (s.registry.offered s.page.tree
          (s.registry.pairs only s.page.tree below)).length
  others :
    ∀ e ∈ s.registry.entries, e.isMeant only = false →
      e ∈ s'.registry.entries

/- A scan comes to an end if its walk and all building do. -/
theorem perform_scanning_iff_scans
    {s : Session}
    (hDistinct : s.registry.names.Nodup)
    (only : Option String)
    (root : Option NodeId)
    {s' : Session}
    {answer : Answer} :
    (s.perform (.registry (.scanning only root))).Gives
        (s', answer) ↔
      ∃ below,
        s.page.tree.Tries s.registry.eventSelector
            (root.getD 0) below ∧
          s.Scans only below s' answer := by
  simp only [perform_scanning_gives_iff,
    Registry.scan_gives_iff hDistinct]
  constructor
  · rintro ⟨w, ⟨below, offers, hTries, hBuilt, rfl, rfl⟩,
      hResult⟩
    rw [Prod.mk.injEq] at hResult
    rcases hResult with ⟨hSession, hAnswer⟩
    refine ⟨below, hTries, hBuilt, hSession, hAnswer, ?_⟩
    intro e hMember hOther
    rw [hSession]
    exact
      List.mem_map.mpr
        ⟨e, hMember, Registry.recording_of_not_meant hOther _ _ _⟩
  · rintro ⟨below, hTries, hScans⟩
    refine
      ⟨_, ⟨below, _, hTries, hScans.built, rfl, rfl⟩, ?_⟩
    rw [Prod.mk.injEq]
    exact ⟨hScans.session, hScans.answer⟩

/-
  A scan comes to an end if the walk below its root and all
  building do, and attaches what was built.  If the links of
  the tree agree, the walk ends, and the elements gone through
  are those below the root that match and have words.  The
  providers of a registry are kept by their short names, so
  no two of those are the same.
-/
theorem scanning_of_distinct
    {s : Session}
    (hDistinct : s.registry.names.Nodup)
    (only : Option String)
    (root : Option NodeId) :
    (∀ s' answer,
      (s.perform (.registry (.scanning only root))).Gives
          (s', answer) ↔
        ∃ below,
          s.page.tree.Tries s.registry.eventSelector
              (root.getD 0) below ∧
            s.Scans only below s' answer) ∧
      (s.page.tree.Linked →
        ∃ below,
          s.page.tree.Tries s.registry.eventSelector
              (root.getD 0) below ∧
            below.Nodup ∧
              ∀ x,
                x ∈ s.registry.declaring s.page.tree below ↔
                  s.registry.Visits s.page.tree (root.getD 0)
                    x) := by
  constructor
  · exact fun s' answer =>
      perform_scanning_iff_scans hDistinct only root
  · intro hLinked
    rcases
      Tree.exists_tries hLinked s.registry.eventSelector
        (root.getD 0)
      with ⟨below, hTries⟩
    exact
      ⟨below, hTries, hTries.nodup hLinked, fun _ =>
        Registry.mem_declaring_iff hLinked hTries⟩

/- An element that declares an event for some providers. -/
private def declaringElement
    (id : NodeId)
    (event : String)
    (providers : List String) : Option Node :=
  some
    { id, parent := some 0
      data :=
        .element
          ⟨.html "i",
            .plain "data-metric-event" event ::
              providers.map fun name =>
                .plain ("data-" ++ name ++ "-method") "test"⟩ }

/- A session with two providers and one listener. -/
private def threeElements : Session :=
  { page :=
      { tree :=
          ⟨#[some
                { id := 0, children := [1, 2, 3]
                  data := .document },
              declaringElement 1 "e" ["r"],
              declaringElement 2 "x b e" ["q", "r"],
              declaringElement 3 " " ["q", "r"]], []⟩
        listeners := [⟨0, 1, "e", none, .recorder "old"⟩]
        nextListener := 1 }
    registry :=
      { number := 0, config := {}
        entries :=
          [{ provider := .counting "r", number := 0 },
            { provider := .counting "q", number := 1 }] }
    initial := {}
    providers := [⟨true, 0⟩, ⟨true, 0⟩] }

/-
  Of three elements one declares an event for a provider, one
  for both by a selector, and one no event at all.
-/
theorem scanning_of_three_elements :
    ∃ s',
      threeElements.registry.names.Nodup ∧
        (threeElements.perform (.registry (.parse none))).Gives
            (s', .count 3) ∧
          s'.page.listeners.map
              (fun l => (l.id, l.node, l.source?)) =
            [(0, 1, none), (1, 1, none), (2, 2, some "b"),
              (3, 2, some "b")] ∧
          s'.registry.bindings "r" =
            [⟨1, "e", none, 1⟩, ⟨2, "e", some "b", 2⟩] := by
  let r := threeElements.registry
  let t := threeElements.page.tree
  have hDistinct : r.names.Nodup := by decide
  have hTries : t.Tries r.eventSelector 0 [1, 2, 3] := by
    have hSelector :
        (Selector.parse r.eventSelector).toOption.isSome =
          true := by
      cbv
    cases hParse : Selector.parse r.eventSelector with
    | error e => simp [hParse, Except.toOption] at hSelector
    | ok list => exact .all list hParse rfl
  have hPairs :
      r.pairs none t [1, 2, 3] =
        [(1, .counting "r", 0), (1, .counting "q", 1),
          (2, .counting "r", 0), (2, .counting "q", 1)] := by
    have hDeclaring : r.declaring t [1, 2, 3] = [1, 2] := by
      cbv
    rw [Registry.pairs, hDeclaring]
    rfl
  have hBuilt :
      ∀ p ∈ r.pairs none t [1, 2, 3],
        ∃ built, (r.build t p).Gives built := by
    rw [hPairs]
    simp only [List.forall_mem_cons]
    exact
      ⟨⟨_, _, rfl⟩, ⟨_, _, rfl⟩, ⟨_, _, rfl⟩, ⟨_, _, rfl⟩,
        by simp⟩
  let s' :=
    threeElements.scanned
      (r.offered t (r.pairs none t [1, 2, 3]))
  have hCount :
      (r.offered t (r.pairs none t [1, 2, 3])).length = 3 := by
    rw [hPairs]
    cbv
  have hScans :
      threeElements.Scans none [1, 2, 3] s' (.count 3) := by
    refine ⟨hBuilt, rfl, congrArg Answer.count hCount.symm, ?_⟩
    intro e _ hOther
    cases hOther
  have hGives :=
    (scanning_of_distinct hDistinct none none).1 s' (.count 3)
  refine
    ⟨s', hDistinct, hGives.mpr ⟨_, hTries, hScans⟩, ?_, ?_⟩
  · simp only [s', hPairs]
    cbv
  · simp only [s', hPairs]
    cbv

end Session

end MarkupMetrics
