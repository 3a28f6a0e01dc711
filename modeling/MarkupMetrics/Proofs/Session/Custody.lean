import MarkupMetrics.Proofs.Registry.Plan
import MarkupMetrics.Proofs.Session.Accounts

/-
  This file proves what every run keeps about a registry,
  whatever the calls of the page do.

  Its records account for its listeners, though a record may
  have lost its listener to a call of the page.  Its providers
  have different short names, and stand in the order of their
  numbers, which were given out in the order of registration.

  Key definitions include:
    * `Registry.Custody`
    * `Session.Roster`

  Key theorems include:
    * `Session.History.custody`
    * `Session.History.roster`
-/

namespace MarkupMetrics

open Dom

------------------------------------------------------------
-- Custody
------------------------------------------------------------

namespace Registry

/-
  The records of a registry account for its listeners on a
  page, some of the records being alive.
-/
def Custody
    (r : Registry)
    (page : Page) : Prop :=
  ∃ alive, Accounts alive page r

namespace Accounts

variable {alive : Binding → Bool}
variable {page : Page}
variable {r : Registry}

/- Whether a number that was not given out is alive is free. -/
theorem reopen
    (hAccounts : Accounts alive page r) :
    Accounts
      (fun b =>
        alive b || decide (page.nextListener ≤ b.listener))
      page r := by
  apply hAccounts.ofAlive
  intro x hRecord
  have hBelow := hAccounts.below x hRecord
  have hOld : ¬ page.nextListener ≤ x.2.listener := by omega
  simp [hOld]

/-
  A call of the page may detach any listener.  The record of
  one that belongs to the registry is then no longer alive.
-/
theorem detached
    (hAccounts : Accounts alive page r)
    (node : NodeId)
    (event : String)
    (source : Option String)
    (id : Nat) :
    Accounts
      (fun b =>
        !(b.element == node && b.listener == id &&
          b.event == event && b.selector == source) &&
            alive b)
      (page.detach node event source id) r := by
  refine
    hAccounts.restrict
      (fun x =>
        !(x.2.element == node && x.2.listener == id &&
          x.2.event == event && x.2.selector == source))
      rfl rfl rfl (List.Sublist.refl _) ?_ ?_ ?_
  · rw [List.filter_filter]
  · intro l _ x hOwn
    have hNames := (Listener.names_of_own? hOwn).1
    simp only [Binding.names, Bool.and_eq_true, beq_iff_eq]
      at hNames
    rcases hNames with ⟨⟨⟨hNode, hId⟩, hEvent⟩, hSource⟩
    rw [hNode, hId, hEvent, hSource]
  · intro x hRecord hCounts
    rw [Bool.and_eq_true] at hCounts
    exact hAccounts.live x hRecord hCounts.2

end Accounts

/- A scan leaves all accounted for. -/
theorem Custody.bindings
    {only : Option String}
    {w w' : Page × Registry}
    (hCustody : w.2.Custody w.1)
    (hNumbered : w.1.Numbered)
    (hScan : Bindings only w w') :
    w'.2.Custody w'.1 := by
  rcases hCustody with ⟨alive, hAccounts⟩
  refine
    ⟨_, (hAccounts.reopen.bindings hNumbered ?_ hScan).1⟩
  intro b hFresh
  simp [hFresh]

/- So does an operation on a page. -/
theorem Custody.page
    {page page' : Page}
    {r : Registry}
    {operation : PageOperation}
    (hCustody : r.Custody page)
    (hOutcome : operation.Outcome page page') :
    r.Custody page' := by
  rcases hCustody with ⟨alive, hAccounts⟩
  cases operation with
  | remove node =>
      rcases hOutcome with ⟨tree, _, rfl⟩
      exact ⟨_, (hAccounts.removed tree).1⟩
  | bind node event label =>
      have hPage : page' = _ := hOutcome
      exact ⟨_, hPage ▸ hAccounts.recorder _ _ _ _⟩
  | delegate node selector event label =>
      have hPage : page' = _ := hOutcome
      exact ⟨_, hPage ▸ hAccounts.recorder _ _ _ _⟩
  | unbind node event listener =>
      have hPage : page' = _ := hOutcome
      exact ⟨_, hPage ▸ hAccounts.detached _ _ _ _⟩
  | undelegate node selector event listener =>
      have hPage : page' = _ := hOutcome
      exact ⟨_, hPage ▸ hAccounts.detached _ _ _ _⟩
  | _ =>
      rcases hOutcome with ⟨tree, rfl, hEdited⟩
      exact ⟨_, hAccounts.ofKeeps hEdited.keeps⟩

/- So does an operation on a registry. -/
theorem Custody.registry
    {s s' : Session}
    {operation : RegistryOperation}
    (hCustody : s.registry.Custody s.page)
    (hNumbered : s.page.Numbered)
    (hOutcome : operation.Outcome s s') :
    s'.registry.Custody s'.page := by
  have hScanned :
      ∀ only,
        Bindings only (s.page, s.registry)
            (s'.page, s'.registry) →
          s'.registry.Custody s'.page :=
    fun only hScan =>
      (Custody.bindings (w := (_, _)) hCustody hNumbered hScan :)
  rcases hCustody with ⟨alive, hAccounts⟩
  cases operation with
  | addProvider provider hasTransport =>
      have hEnrolled :=
        (hAccounts.evicted provider.shortName).1.enrolled
          provider s.providers.length
      have hScan :=
        Custody.bindings (w := (_, _)) ⟨_, hEnrolled⟩
          (hNumbered.succeeds (.without _ _)) hOutcome.1
      exact hScan
  | parse root => exact hScanned none hOutcome
  | parseFor name root => exact hScanned (some name) hOutcome
  | removeProvider name =>
      have hPair : (s'.page, s'.registry) = _ := hOutcome
      have hEvicted := (hAccounts.evicted name).1
      rw [← hPair] at hEvicted
      exact ⟨_, hEvicted⟩
  | clear =>
      have hPair : (s'.page, s'.registry) = _ := hOutcome
      have hClear := hAccounts.clear.1
      rw [← hPair] at hClear
      exact ⟨_, hClear⟩
  | unbind name =>
      have hPair : (s'.page, s'.registry) = _ := hOutcome
      have hUnbind := (hAccounts.unbind name).1
      rw [← hPair] at hUnbind
      exact ⟨_, hUnbind⟩
  | teardown =>
      rcases hOutcome with ⟨hPage, hRegistry⟩
      rw [hPage]
      exact
        ⟨_, (hAccounts.clear.1.retired s'.registry
          (by rw [hRegistry]; rfl)
          (by rw [hRegistry]; rfl)).1⟩
  | replace config =>
      rcases hOutcome with ⟨hPage, hRegistry⟩
      rw [hPage]
      exact
        ⟨_, (hAccounts.retired s'.registry
          (by rw [hRegistry]; rfl)
          (by rw [hRegistry]; rfl)).1⟩
  | setEnabled enabled =>
      rcases hOutcome with ⟨hPage, hRegistry⟩
      rw [hPage, hRegistry]
      exact ⟨_, hAccounts.ofRecorded rfl rfl⟩
  | setDebug debug =>
      rcases hOutcome with ⟨hPage, hRegistry⟩
      rw [hPage, hRegistry]
      exact ⟨_, hAccounts.ofRecorded rfl rfl⟩
  | push name payload =>
      rcases hOutcome with ⟨hPage, hRegistry⟩
      rw [hPage, hRegistry]
      exact ⟨_, hAccounts⟩
  | setTransport provider hasTransport =>
      rcases hOutcome with ⟨hPage, hRegistry⟩
      rw [hPage, hRegistry]
      exact ⟨_, hAccounts⟩

------------------------------------------------------------
-- Members
------------------------------------------------------------

/- Unbinding leaves the providers in use. -/
theorem members_unbind
    (r : Registry)
    (page : Page)
    (only : Option String) :
    (r.unbind page only).2.members = r.members := by
  rw [unbind_eq]
  simp only [members, List.map_map]
  apply List.map_congr_left
  intro e _
  cases hMeant : e.isMeant only with
  | true => simp [hMeant, Entry.released]
  | false => simp [hMeant]

/- Dropping a name takes the providers with it out. -/
theorem members_drop
    (r : Registry)
    (name : String) :
    (r.drop name).members =
      r.members.filter (·.1.shortName != name) := by
  simp only [members, drop, List.filter_map]
  rfl

end Registry

namespace Session

/-
  The providers in use have different short names, and their
  numbers increase in the order of registration.
-/
structure Roster
    (s : Session) : Prop where
  distinct : (s.registry.members.map (·.1.shortName)).Nodup
  ordered : s.registry.members.Pairwise fun m m' => m.2 < m'.2
  given : ∀ m ∈ s.registry.members, m.2 < s.providers.length

variable {s s' : Session}

/-
  An action takes providers out and leaves the others in their
  order.  It may add one, with a new number and a name that no
  other has.
-/
theorem Becomes.members
    {action : Action}
    (hBecomes : s.Becomes s' action) :
    s'.registry.members.Sublist s.registry.members ∨
      ∃ provider hasTransport kept,
        action =
            .operation
              (.registry
                (.addProvider provider hasTransport)) ∧
          kept.Sublist s.registry.members ∧
          (∀ m ∈ kept, m.1.shortName ≠ provider.shortName) ∧
            s'.registry.members =
              kept ++ [(provider, s.providers.length)] ∧
              s'.providers.length =
                s.providers.length + 1 := by
  have hSame :
      s'.registry.members = s.registry.members →
        s'.registry.members.Sublist s.registry.members :=
    fun hMembers => hMembers ▸ List.Sublist.refl _
  cases action with
  | build call =>
      exact Or.inl (hSame (by rw [hBecomes.1]))
  | operation operation =>
  cases operation with
  | page operation =>
      exact Or.inl (hSame (by rw [hBecomes.1]))
  | language caller operation =>
      exact Or.inl (hSame (by rw [hBecomes.1]))
  | registry operation =>
  cases operation with
  | addProvider provider hasTransport =>
      refine
        Or.inr
          ⟨provider, hasTransport,
            s.registry.members.filter
              (·.1.shortName != provider.shortName),
            rfl, List.filter_sublist, ?_, ?_, hBecomes.2⟩
      · intro m hMember
        simpa using (List.mem_filter.mp hMember).2
      · have hMembers := hBecomes.1.members
        rw [← Registry.members_drop]
        simpa [Registry.members, Registry.enrolled,
          Registry.evicted] using hMembers
  | removeProvider name =>
      have hRegistry : s'.registry = s.registry.drop name :=
        congrArg Prod.snd hBecomes
      rw [hRegistry, Registry.members_drop]
      exact Or.inl List.filter_sublist
  | clear =>
      have hRegistry : s'.registry = _ :=
        congrArg Prod.snd hBecomes
      rw [hRegistry]
      exact Or.inl (List.nil_sublist _)
  | teardown =>
      rw [hBecomes.2]
      exact Or.inl (List.nil_sublist _)
  | replace config =>
      rw [hBecomes.2]
      exact Or.inl (List.nil_sublist _)
  | parse root =>
      exact Or.inl (hSame (Registry.Bindings.members hBecomes))
  | parseFor name root =>
      exact Or.inl (hSame (Registry.Bindings.members hBecomes))
  | unbind name =>
      have hRegistry : s'.registry = _ :=
        congrArg Prod.snd hBecomes
      apply Or.inl
      apply hSame
      rw [hRegistry]
      exact Registry.members_unbind s.registry s.page name
  | push name payload =>
      exact Or.inl (hSame (by rw [hBecomes.2]))
  | setTransport provider hasTransport =>
      exact Or.inl (hSame (by rw [hBecomes.2]))
  | setEnabled enabled =>
      exact Or.inl (hSame (by rw [hBecomes.2]; rfl))
  | setDebug debug =>
      exact Or.inl (hSame (by rw [hBecomes.2]; rfl))

theorem Roster.after
    {action : Action}
    (hRoster : s.Roster)
    (hBecomes : s.Becomes s' action)
    (hLength : s.providers.length ≤ s'.providers.length) :
    s'.Roster := by
  rcases hBecomes.members with
    hFewer |
      ⟨provider, _, kept, _, hKept, hOther, hMembers, hMore⟩
  · constructor
    · exact hRoster.distinct.sublist (hFewer.map _)
    · exact hRoster.ordered.sublist hFewer
    · intro m hMember
      have hBelow := hRoster.given m (hFewer.subset hMember)
      omega
  · constructor
    · rw [hMembers, List.map_append, List.nodup_append]
      refine
        ⟨hRoster.distinct.sublist (hKept.map _), by simp, ?_⟩
      intro name hOld name' hNew
      rcases List.mem_map.mp hOld with ⟨m, hMember, rfl⟩
      simp only [List.map_cons, List.map_nil,
        List.mem_singleton] at hNew
      rw [hNew]
      exact hOther m hMember
    · rw [hMembers, List.pairwise_append]
      refine
        ⟨hRoster.ordered.sublist hKept,
          List.pairwise_singleton _ _, ?_⟩
      intro m hOld m' hNew
      rw [List.mem_singleton] at hNew
      rw [hNew]
      exact hRoster.given m (hKept.subset hOld)
    · intro m hMember
      rw [hMembers, List.mem_append, List.mem_singleton]
        at hMember
      rcases hMember with hOld | rfl
      · have hBelow := hRoster.given m (hKept.subset hOld)
        omega
      · simp only
        omega

------------------------------------------------------------
-- Whole histories
------------------------------------------------------------

variable {allowed : Session → Action → Prop}

/- All is accounted for throughout a run. -/
theorem History.custody
    {states : List Session}
    (hHistory : History allowed states) :
    ∀ s ∈ states, s.registry.Custody s.page := by
  have hBoth :
      ∀ s ∈ states,
        s.registry.Custody s.page ∧ s.page.Numbered := by
    refine hHistory.holds ?_ ?_
    · intro config complaints
      exact
        ⟨⟨_, (Kept.atStart config complaints).accounts⟩,
          Document.numbered_ofTree _⟩
    · rintro s action s' ⟨hCustody, hNumbered⟩ _ hBecomes
      refine ⟨?_, hNumbered.succeeds hBecomes.succeeds⟩
      cases action with
      | build call =>
          rcases hBecomes with ⟨hRegistry, tree, hPage, hEdited⟩
          rcases hCustody with ⟨alive, hAccounts⟩
          rw [hRegistry, hPage]
          exact ⟨_, hAccounts.ofKeeps hEdited.keeps⟩
      | operation operation =>
      cases operation with
      | page operation =>
          rw [hBecomes.1]
          exact hCustody.page hBecomes.2
      | registry operation =>
          exact hCustody.registry hNumbered hBecomes
      | language caller operation =>
          rw [hBecomes.1, hBecomes.2]
          exact hCustody
  exact fun s hMember => (hBoth s hMember).1

/- The providers in use are in order throughout a run. -/
theorem History.roster
    {earlier : List Session}
    (hHistory : History allowed (s :: earlier)) :
    s.Roster := by
  generalize hStates : s :: earlier = states at hHistory
  induction hHistory generalizing s earlier with
  | start config =>
      cases hStates
      constructor
      · exact List.nodup_nil
      · exact List.Pairwise.nil
      · intro m hMember
        cases hMember
  | step action s' hBefore hAllowed hAct ih =>
      cases hStates
      rcases becomes_of_act hAct with ⟨hBecomes, hLength⟩
      exact (ih rfl).after hBecomes hLength

end Session

end MarkupMetrics
