import MarkupMetrics.Proofs.Registry.Accounts
import MarkupMetrics.Proofs.Session.History
import MarkupMetrics.Provider.Samples
import Mathlib

/-
  This file proves that throughout a run the listeners of a
  page are accounted for: the foreign ones, which the calls
  of the page itself have attached, and one for each record
  of the registry whose element was not removed.

  A ledger keeps the foreign listeners beside a run.  It goes
  by what is called on the page only, and not by what the
  registry does.

  Key definitions include:
    * `Binding.intact`
    * `Action.foreignAfter`
    * `Action.Spares`
    * `Session.Ledger`
    * `Session.Accounted`

  Key theorems include:
    * `Session.accounted_of_ledger`
-/

namespace MarkupMetrics

open Dom

------------------------------------------------------------
-- Records that are intact
------------------------------------------------------------

/- Whether a registry holds a record. -/
def Registry.records
    (r : Registry)
    (b : Binding) : Bool :=
  r.entries.any fun e => e.bindings.contains b

theorem Registry.records_iff
    {r : Registry}
    {b : Binding} :
    r.records b = true ↔ ∃ cx, (cx, b) ∈ r.recorded := by
  simp only [records, List.any_eq_true, mem_recorded_iff,
    List.contains_iff_mem]
  constructor
  · rintro ⟨e, hEntry, hMember⟩
    exact ⟨r.context e, e, hEntry, rfl, hMember⟩
  · rintro ⟨cx, e, hEntry, _, hMember⟩
    exact ⟨e, hEntry, hMember⟩

/-
  Whether the element of a record was a node in all of the
  sessions that hold the record.
-/
def Binding.intact
    (states : List Session)
    (b : Binding) : Bool :=
  states.all fun s =>
    !s.registry.records b || s.page.tree.contains b.element

theorem Binding.intact_cons
    (s : Session)
    (states : List Session)
    (b : Binding) :
    b.intact (s :: states) =
      ((!s.registry.records b ||
        s.page.tree.contains b.element) &&
          b.intact states) := by
  simp [intact]

/- What no session holds is intact. -/
theorem Binding.intact_of_unrecorded
    {states : List Session}
    {b : Binding}
    (hNone :
      ∀ s ∈ states, ∀ x ∈ s.registry.recorded, x.2 ≠ b) :
    b.intact states = true := by
  rw [intact, List.all_eq_true]
  intro s hMember
  have hFalse : s.registry.records b = false := by
    rw [← Bool.not_eq_true, Registry.records_iff]
    rintro ⟨cx, hRecord⟩
    exact hNone s hMember _ hRecord rfl
  simp [hFalse]

------------------------------------------------------------
-- The ledger
------------------------------------------------------------

/-
  The foreign listeners after an action.  The calls of the
  page do to them what they would do to a page that has no
  others.  With a new registry all listeners become foreign.
-/
def Action.foreignAfter
    (s s' : Session)
    (foreign : List (Listener Handler))
    (action : Action) : List (Listener Handler) :=
  let page : Page := { s.page with listeners := foreign }
  match action with
  | .operation (.page (.bind node event label)) =>
      (page.attached node event none
        (.recorder label)).listeners
  | .operation (.page (.delegate node selector event label)) =>
      (page.attached node event (some (.ofText selector))
        (.recorder label)).listeners
  | .operation (.page (.unbind node event listener)) =>
      (page.detach node event none listener).listeners
  | .operation
      (.page (.undelegate node selector event listener)) =>
      (page.detach node event (some selector)
        listener).listeners
  | .operation (.page (.remove _)) =>
      foreign.filter fun l => s'.page.tree.contains l.node
  | .operation (.registry (.replace _)) => s.page.listeners
  | _ => foreign

/- Whether calls of the page detach foreign listeners only. -/
def Action.Spares
    (s : Session)
    (foreign : List (Listener Handler)) : Action → Prop
  | .operation (.page (.unbind node event listener)) =>
      ∀ l ∈ s.page.listeners,
        l ∉ (s.page.detach node event none
          listener).listeners → l ∈ foreign
  | .operation
      (.page (.undelegate node selector event listener)) =>
      ∀ l ∈ s.page.listeners,
        l ∉ (s.page.detach node event (some selector)
          listener).listeners → l ∈ foreign
  | _ => True

/- Whether an action takes the provider of an entry out. -/
def Action.Retires
    (e : Entry) : Action → Prop
  | .operation (.registry (.removeProvider name)) =>
      name = e.shortName
  | .operation (.registry (.addProvider provider _)) =>
      provider.shortName = e.shortName
  | .operation (.registry .clear) => True
  | .operation (.registry .teardown) => True
  | _ => False

/- Providers with the same name are taken out together. -/
theorem Action.Retires.ofName
    {action : Action}
    {e e' : Entry}
    (hRetires : action.Retires e)
    (hName : e.shortName = e'.shortName) :
    action.Retires e' := by
  unfold Action.Retires at hRetires ⊢
  rw [← hName]
  exact hRetires

namespace Session

/-
  The sessions of a run whose page calls leave the listeners
  of providers alone, the last one first, with the foreign
  listeners at its end.
-/
inductive Ledger :
    List Session → List (Listener Handler) → Prop where
  | start
      (config : Config)
      (complaints : String → List String := typelessComplaints) :
      Ledger [Session.start Document.empty config complaints] []
  | step
      {s : Session}
      {earlier : List Session}
      {foreign : List (Listener Handler)}
      (action : Action)
      (s' : Session)
      (hBefore : Ledger (s :: earlier) foreign)
      (hSpares : action.Spares s foreign)
      (hAct : s.act action = .ok s') :
      Ledger (s' :: s :: earlier)
        (action.foreignAfter s s' foreign)

/-
  The listeners of a page are accounted for.  Those that do
  not belong to the registry are the foreign ones.  Those that
  do are one for each intact record, with its element, event,
  selector and number.  No two records have the same number.
-/
structure Accounted
    (states : List Session)
    (foreign : List (Listener Handler))
    (s : Session) : Prop where
  others : s.registry.others s.page = foreign
  own :
    (s.page.listeners.filterMap
      (·.own? s.registry.number)).Perm
        (s.registry.recorded.filter fun x =>
          x.2.intact states)
  once : (s.registry.recorded.map (·.2.listener)).Nodup

------------------------------------------------------------
-- Entries
------------------------------------------------------------

/- An entry that is there after a scan was there before. -/
theorem entry_of_bindings
    {only : Option String}
    {w w' : Page × Registry}
    (hScan : Registry.Bindings only w w')
    {e' : Entry}
    (hEntry : e' ∈ w'.2.entries) :
    ∃ e ∈ w.2.entries,
      w'.2.context e' = w.2.context e ∧
        e'.number = e.number := by
  have hMember :
      (e'.provider, e'.number) ∈
        w'.2.entries.map fun e => (e.provider, e.number) :=
    List.mem_map_of_mem hEntry
  rw [hScan.members] at hMember
  rcases List.mem_map.mp hMember with ⟨e, hOld, hSame⟩
  rw [Prod.mk.injEq] at hSame
  refine ⟨e, hOld, ?_, hSame.2.symm⟩
  simp [Registry.context, Entry.shortName, hScan.same.2.1,
    hSame.1, hSame.2]

/-
  An entry that is there after an action is one from before,
  whose provider was not taken out, or that of a provider with
  a new number.
-/
theorem Becomes.entry_cases
    {s s' : Session}
    {action : Action}
    (hBecomes : s.Becomes s' action)
    {e' : Entry}
    (hEntry : e' ∈ s'.registry.entries) :
    (∃ e ∈ s.registry.entries,
      s'.registry.context e' = s.registry.context e ∧
        ¬action.Retires e) ∨
      s.providers.length ≤ e'.number ∧
        e'.number < s'.providers.length := by
  have hSame :
      s'.registry = s.registry →
        (∀ e, ¬action.Retires e) →
          ∃ e ∈ s.registry.entries,
            s'.registry.context e' = s.registry.context e ∧
              ¬action.Retires e := by
    intro hRegistry hKept
    rw [hRegistry] at hEntry ⊢
    exact ⟨e', hEntry, rfl, hKept e'⟩
  cases action with
  | build call => exact Or.inl (hSame hBecomes.1 fun _ => id)
  | operation operation =>
  cases operation with
  | page operation =>
      exact Or.inl (hSame hBecomes.1 fun _ => id)
  | language caller operation =>
      exact Or.inl (hSame hBecomes.1 fun _ => id)
  | registry operation =>
  cases operation with
  | addProvider provider hasTransport =>
      rcases entry_of_bindings hBecomes.1 hEntry with
        ⟨e, hOld, hContext, hNumber⟩
      rcases List.mem_append.mp hOld with hDropped | hNew
      · refine Or.inl ⟨e, List.mem_of_mem_filter hDropped, ?_⟩
        refine ⟨hContext, ?_⟩
        intro hName
        have hOther := (List.mem_filter.mp hDropped).2
        rw [bne_iff_ne] at hOther
        exact hOther (Eq.symm hName)
      · rw [List.mem_singleton] at hNew
        rw [hNew] at hNumber
        have hLength := hBecomes.2
        refine Or.inr ⟨?_, ?_⟩
        · exact Nat.le_of_eq hNumber.symm
        · simp only at hNumber
          omega
  | removeProvider name =>
      have hRegistry : s'.registry = s.registry.drop name :=
        congrArg Prod.snd hBecomes
      rw [hRegistry] at hEntry
      refine Or.inl ⟨e', List.mem_of_mem_filter hEntry, ?_⟩
      refine ⟨by rw [hRegistry]; rfl, ?_⟩
      intro hName
      have hOther := (List.mem_filter.mp hEntry).2
      rw [bne_iff_ne] at hOther
      exact hOther (Eq.symm hName)
  | clear =>
      have hRegistry : s'.registry = _ :=
        congrArg Prod.snd hBecomes
      rw [hRegistry] at hEntry
      cases hEntry
  | teardown =>
      rw [hBecomes.2] at hEntry
      cases hEntry
  | replace config =>
      rw [hBecomes.2] at hEntry
      cases hEntry
  | parse root =>
      rcases entry_of_bindings hBecomes hEntry with
        ⟨e, hOld, hContext, _⟩
      exact Or.inl ⟨e, hOld, hContext, id⟩
  | parseFor name root =>
      rcases entry_of_bindings hBecomes hEntry with
        ⟨e, hOld, hContext, _⟩
      exact Or.inl ⟨e, hOld, hContext, id⟩
  | unbind name =>
      have hRegistry : s'.registry = _ :=
        congrArg Prod.snd hBecomes
      rw [Registry.unbind_eq] at hRegistry
      rw [hRegistry] at hEntry
      rcases List.mem_map.mp hEntry with ⟨e, hOld, rfl⟩
      refine Or.inl ⟨e, hOld, ?_, id⟩
      rw [hRegistry]
      cases e.isMeant name <;> rfl
  | push name payload =>
      exact Or.inl (hSame hBecomes.2 fun _ => id)
  | setTransport provider hasTransport =>
      exact Or.inl (hSame hBecomes.2 fun _ => id)
  | setEnabled enabled =>
      rw [hBecomes.2] at hEntry ⊢
      exact Or.inl ⟨e', hEntry, rfl, id⟩
  | setDebug debug =>
      rw [hBecomes.2] at hEntry ⊢
      exact Or.inl ⟨e', hEntry, rfl, id⟩

------------------------------------------------------------
-- What a run keeps
------------------------------------------------------------

/-
  What a run keeps, so that its listeners are accounted for:
  also, the records of all its sessions have numbers that
  were given out, and so have the providers in use.
-/
structure Kept
    (states : List Session)
    (foreign : List (Listener Handler))
    (s : Session) : Prop where
  accounts :
    s.registry.Accounts (Binding.intact states) s.page
  others : s.registry.others s.page = foreign
  numbered : s.page.Numbered
  past :
    ∀ r ∈ states, ∀ x ∈ r.registry.recorded,
      x.2.listener < s.page.nextListener
  members :
    ∀ e ∈ s.registry.entries, e.number < s.providers.length

namespace Kept

variable {s s' : Session}
variable {earlier : List Session}
variable {foreign : List (Listener Handler)}

------------------------------------------------------------
-- One action
------------------------------------------------------------

/- Numbers not given out yet are in no record. -/
theorem intact_of_fresh
    (hKept : Kept (s :: earlier) foreign s)
    {b : Binding}
    (hFresh : s.page.nextListener ≤ b.listener) :
    b.intact (s :: earlier) = true := by
  apply Binding.intact_of_unrecorded
  rintro r hMember x hRecord rfl
  have hBelow := hKept.past r hMember x hRecord
  omega

/-
  It is enough that the records whose elements are still there
  account for the listeners.
-/
theorem next
    {foreign' : List (Listener Handler)}
    (hKept : Kept (s :: earlier) foreign s)
    (hAccounts :
      s'.registry.Accounts
        (fun b =>
          s'.page.tree.contains b.element &&
            b.intact (s :: earlier)) s'.page)
    (hOthers : s'.registry.others s'.page = foreign')
    (hAfter : Document.Succeeds s.page s'.page)
    (hMembers :
      ∀ e ∈ s'.registry.entries,
        e.number < s'.providers.length) :
    Kept (s' :: s :: earlier) foreign' s' where
  accounts := by
    apply hAccounts.ofAlive
    rintro ⟨cx, b⟩ hRecord
    have hRecords : s'.registry.records b = true :=
      Registry.records_iff.mpr ⟨cx, hRecord⟩
    rw [Binding.intact_cons, hRecords]
    rfl
  others := hOthers
  numbered := hKept.numbered.succeeds hAfter
  past := by
    intro r hMember x hRecord
    rcases List.mem_cons.mp hMember with rfl | hOld
    · exact hAccounts.below x hRecord
    · exact
        Nat.lt_of_lt_of_le (hKept.past r hOld x hRecord)
          hAfter.counter
  members := hMembers

/- Where no element is removed all records stay alive. -/
theorem still
    {page : Page}
    {r : Registry}
    (hAccounts :
      r.Accounts (Binding.intact (s :: earlier)) page) :
    r.Accounts
      (fun b =>
        page.tree.contains b.element &&
          b.intact (s :: earlier)) page := by
  apply hAccounts.ofAlive
  intro x hRecord
  cases hCounts : x.2.intact (s :: earlier) with
  | false => simp
  | true => simp [hAccounts.live x hRecord hCounts]

/- What an operation on a page leaves accounted for. -/
theorem page
    {operation : PageOperation}
    (hKept : Kept (s :: earlier) foreign s)
    (hSpares :
      (Action.operation (.page operation)).Spares s foreign)
    (hOutcome : operation.Outcome s.page s'.page) :
    s.registry.Accounts
        (fun b =>
          s'.page.tree.contains b.element &&
            b.intact (s :: earlier)) s'.page ∧
      s.registry.others s'.page =
        (Action.operation (.page operation)).foreignAfter s s'
          foreign := by
  have hAccounts := hKept.accounts
  have hOthers := hKept.others
  cases operation with
  | remove node =>
      rcases hOutcome with ⟨tree, _, hPage⟩
      have hRemoved := hAccounts.removed tree
      rw [hOthers] at hRemoved
      simp only [Action.foreignAfter, hPage]
      exact hRemoved
  | bind node event label =>
      have hPage : s'.page = _ := hOutcome
      rw [hPage]
      refine ⟨still (hAccounts.recorder _ _ _ _), ?_⟩
      rw [Registry.Accounts.others_recorder, hOthers]
      rfl
  | delegate node selector event label =>
      have hPage : s'.page = _ := hOutcome
      rw [hPage]
      refine ⟨still (hAccounts.recorder _ _ _ _), ?_⟩
      rw [Registry.Accounts.others_recorder, hOthers]
      rfl
  | unbind node event listener =>
      have hPage : s'.page = _ := hOutcome
      have hDetach := hAccounts.detach (hOthers ▸ hSpares)
      rw [hOthers] at hDetach
      rw [hPage]
      exact ⟨still hDetach.1, hDetach.2⟩
  | undelegate node selector event listener =>
      have hPage : s'.page = _ := hOutcome
      have hDetach := hAccounts.detach (hOthers ▸ hSpares)
      rw [hOthers] at hDetach
      rw [hPage]
      exact ⟨still hDetach.1, hDetach.2⟩
  | _ =>
      rcases hOutcome with ⟨tree, hPage, hEdited⟩
      rw [hPage]
      exact ⟨still (hAccounts.ofKeeps hEdited.keeps), hOthers⟩

/- A scan of the page leaves all accounted for. -/
theorem scanned
    {only : Option String}
    (hKept : Kept (s :: earlier) foreign s)
    (hScan :
      Registry.Bindings only (s.page, s.registry)
        (s'.page, s'.registry)) :
    s'.registry.Accounts (Binding.intact (s :: earlier))
        s'.page ∧
      s'.registry.others s'.page = foreign := by
  have hAll :=
    hKept.accounts.bindings
      (w := (s.page, s.registry))
      hKept.numbered
      (fun b hAbove => hKept.intact_of_fresh hAbove)
      hScan
  exact ⟨hAll.1, hAll.2.trans hKept.others⟩

/- What an operation on a registry leaves accounted for. -/
theorem registry
    {operation : RegistryOperation}
    (hKept : Kept (s :: earlier) foreign s)
    (hOutcome : operation.Outcome s s') :
    s'.registry.Accounts (Binding.intact (s :: earlier))
        s'.page ∧
      s'.registry.others s'.page =
        (Action.operation (.registry operation)).foreignAfter
          s s' foreign := by
  have hAccounts := hKept.accounts
  have hOthers := hKept.others
  cases operation with
  | addProvider provider hasTransport =>
      have hEvicted := hAccounts.evicted provider.shortName
      have hEnrolled :=
        hEvicted.1.enrolled provider s.providers.length
      have hAll :=
        hEnrolled.bindings
          (w := (_, _))
          (hKept.numbered.succeeds (.without _ _))
          (fun b hAbove => hKept.intact_of_fresh hAbove)
          hOutcome.1
      exact ⟨hAll.1, (hAll.2.trans hEvicted.2).trans hOthers⟩
  | removeProvider name =>
      have hEvicted := hAccounts.evicted name
      have hPair : (s'.page, s'.registry) = _ := hOutcome
      rw [← hPair] at hEvicted
      exact ⟨hEvicted.1, hEvicted.2.trans hOthers⟩
  | clear =>
      have hClear := hAccounts.clear
      have hPair : (s'.page, s'.registry) = _ := hOutcome
      rw [← hPair] at hClear
      exact ⟨hClear.1, hClear.2.trans hOthers⟩
  | unbind name =>
      have hUnbind := hAccounts.unbind name
      have hPair : (s'.page, s'.registry) = _ := hOutcome
      rw [← hPair] at hUnbind
      exact ⟨hUnbind.1, hUnbind.2.trans hOthers⟩
  | teardown =>
      rcases hOutcome with ⟨hPage, hRegistry⟩
      have hClear := hAccounts.clear
      have hRetired :=
        hClear.1.retired s'.registry
          (by rw [hRegistry]; rfl)
          (by rw [hRegistry]; rfl)
      rw [hPage]
      refine ⟨hRetired.1, ?_⟩
      rw [hRetired.2, ← hClear.1.others_of_nil rfl, hClear.2,
        hOthers]
      rfl
  | replace config =>
      rcases hOutcome with ⟨hPage, hRegistry⟩
      have hRetired :=
        hAccounts.retired s'.registry
          (by rw [hRegistry]; rfl)
          (by rw [hRegistry]; rfl)
      rw [hPage]
      exact hRetired
  | parse root =>
      exact hKept.scanned hOutcome
  | parseFor name root =>
      exact hKept.scanned hOutcome
  | push name payload =>
      rcases hOutcome with ⟨hPage, hRegistry⟩
      rw [hPage, hRegistry]
      exact ⟨hAccounts, hOthers⟩
  | setTransport provider hasTransport =>
      rcases hOutcome with ⟨hPage, hRegistry⟩
      rw [hPage, hRegistry]
      exact ⟨hAccounts, hOthers⟩
  | setEnabled enabled =>
      rcases hOutcome with ⟨hPage, hRegistry⟩
      rw [hPage, hRegistry]
      exact ⟨hAccounts.ofRecorded rfl rfl, hOthers⟩
  | setDebug debug =>
      rcases hOutcome with ⟨hPage, hRegistry⟩
      rw [hPage, hRegistry]
      exact ⟨hAccounts.ofRecorded rfl rfl, hOthers⟩

/- The providers in use have numbers that were given out. -/
theorem members_after
    {action : Action}
    (hKept : Kept (s :: earlier) foreign s)
    (hBecomes : s.Becomes s' action)
    (hLength : s.providers.length ≤ s'.providers.length) :
    ∀ e ∈ s'.registry.entries,
      e.number < s'.providers.length := by
  intro e' hEntry
  rcases hBecomes.entry_cases hEntry with
    ⟨e, hOld, hContext, _⟩ | ⟨_, hNew⟩
  · have hNumber : e'.number = e.number :=
      congrArg Context.provider hContext
    have hBelow := hKept.members e hOld
    omega
  · exact hNew

/- An action leaves all accounted for. -/
theorem after
    {action : Action}
    (hKept : Kept (s :: earlier) foreign s)
    (hSpares : action.Spares s foreign)
    (hAct : s.act action = .ok s') :
    Kept (s' :: s :: earlier)
      (action.foreignAfter s s' foreign) s' := by
  rcases becomes_of_act hAct with ⟨hBecomes, hLength⟩
  have hMembers := hKept.members_after hBecomes hLength
  cases action with
  | build call =>
      have hAfter := Becomes.succeeds hBecomes
      rcases hBecomes with ⟨hRegistry, tree, hPage, hEdited⟩
      refine hKept.next ?_ ?_ hAfter hMembers
      · rw [hRegistry, hPage]
        exact still (hKept.accounts.ofKeeps hEdited.keeps)
      · rw [hRegistry, hPage]
        exact hKept.others
  | operation operation =>
  cases operation with
  | page operation =>
      have hAfter := Becomes.succeeds hBecomes
      rcases hBecomes with ⟨hRegistry, hOutcome⟩
      have hAll := hKept.page hSpares hOutcome
      rw [← hRegistry] at hAll
      exact hKept.next hAll.1 hAll.2 hAfter hMembers
  | registry operation =>
      have hAll := hKept.registry hBecomes
      exact
        hKept.next (still hAll.1) hAll.2
          (Becomes.succeeds hBecomes) hMembers
  | language caller operation =>
      have hAfter := Becomes.succeeds hBecomes
      rcases hBecomes with ⟨hRegistry, hPage⟩
      refine hKept.next ?_ ?_ hAfter hMembers
      · rw [hRegistry, hPage]
        exact still hKept.accounts
      · rw [hRegistry, hPage]
        exact hKept.others

/- At the start there is nothing to account for. -/
theorem atStart
    (config : Config)
    (complaints : String → List String) :
    Kept [Session.start Document.empty config complaints] []
      (Session.start Document.empty config complaints) where
  accounts := by
    constructor
    · exact List.Perm.refl _
    · intro x hMember
      cases hMember
    · exact List.nodup_nil
    · intro x hMember
      cases hMember
    · intro l hMember
      cases hMember
    · intro l hMember
      cases hMember
  others := rfl
  numbered := Document.numbered_ofTree _
  past := by
    intro r hMember x hRecord
    rw [List.mem_singleton] at hMember
    subst hMember
    cases hRecord
  members := by
    intro e hEntry
    cases hEntry

/- All is accounted for throughout a run. -/
theorem ofLedger
    (hLedger : Ledger (s :: earlier) foreign) :
    Kept (s :: earlier) foreign s := by
  generalize hStates : s :: earlier = states at hLedger
  induction hLedger generalizing s earlier with
  | start config complaints =>
      cases hStates
      exact atStart config complaints
  | step action s' hBefore hSpares hAct ih =>
      cases hStates
      exact (ih rfl).after hSpares hAct

/- Taking a provider out leaves the foreign listeners alone. -/
theorem foreignAfter_of_retires
    {action : Action}
    {e : Entry}
    (hRetires : action.Retires e) :
    action.foreignAfter s s' foreign = foreign := by
  cases action with
  | build call => cases hRetires
  | operation operation =>
  cases operation with
  | page operation => cases hRetires
  | language caller operation => cases hRetires
  | registry operation =>
      cases operation with
      | addProvider provider hasTransport => rfl
      | removeProvider name => rfl
      | clear => rfl
      | teardown => rfl
      | _ => cases hRetires

/-
  After a provider was taken out no listener is left that was
  attached for it.
-/
theorem none_left
    {action : Action}
    (hKept : Kept (s :: earlier) foreign s)
    (hSpares : action.Spares s foreign)
    (hAct : s.act action = .ok s')
    {e : Entry}
    (hEntry : e ∈ s.registry.entries)
    (hRetires : action.Retires e)
    {l : Listener Handler}
    (hMember : l ∈ s'.page.listeners)
    (guard : Guard)
    (raw : RawHandler) :
    l.handler ≠ .provided (s.registry.context e) guard raw := by
  intro hHandler
  have hAfter := hKept.after hSpares hAct
  cases hOwn : l.own? s'.registry.number with
  | none =>
      have hOther : l ∈ s'.registry.others s'.page := by
        apply List.mem_filter.mpr
        exact ⟨hMember, by simp [hOwn]⟩
      rw [hAfter.others, foreignAfter_of_retires hRetires,
        ← hKept.others] at hOther
      have hNone := (List.mem_filter.mp hOther).2
      simp [Listener.own?, hHandler, Registry.context]
        at hNone
  | some x =>
      have hDue := List.mem_filterMap.mpr ⟨l, hMember, hOwn⟩
      rw [hAfter.accounts.own.mem_iff] at hDue
      rcases Registry.mem_recorded_iff.mp
          (List.mem_of_mem_filter hDue) with
        ⟨e', hStill, hFor, _⟩
      have hContext :
          s'.registry.context e' = s.registry.context e := by
        rw [← hFor]
        exact Listener.context_of_own? hOwn hHandler
      rcases (becomes_of_act hAct).1.entry_cases hStill with
        ⟨e₀, hOld, hSame, hSpared⟩ | ⟨hNew, _⟩
      · have hName : e₀.shortName = e.shortName :=
          congrArg Context.shortName (hSame.symm.trans hContext)
        exact hSpared (hRetires.ofName hName.symm)
      · have hNumber : e'.number = e.number :=
          congrArg Context.provider hContext
        have hBelow := hKept.members e hEntry
        omega

end Kept

------------------------------------------------------------
-- The main theorem
------------------------------------------------------------

/-
  In every session of a run the listeners are the foreign ones
  and one for each intact record.  Once a provider was taken
  out or replaced, no listener is left that was attached for
  it.
-/
theorem accounted_of_ledger
    {s : Session}
    {earlier : List Session}
    {foreign : List (Listener Handler)}
    (hLedger : Ledger (s :: earlier) foreign) :
    s.Accounted (s :: earlier) foreign ∧
      ∀ (action : Action) (s' : Session),
        action.Spares s foreign → s.act action = .ok s' →
          ∀ e ∈ s.registry.entries, action.Retires e →
            ∀ l ∈ s'.page.listeners, ∀ guard raw,
              l.handler ≠
                .provided (s.registry.context e) guard raw := by
  have hKept := Kept.ofLedger hLedger
  constructor
  · exact
      ⟨hKept.others, hKept.accounts.own, hKept.accounts.once⟩
  · intro action s' hSpares hAct e hEntry hRetires l hMember
    exact
      hKept.none_left hSpares hAct hEntry hRetires hMember

/- A provider that sends the same for each element. -/
private def steadySender : Provider :=
  .custom "Sender" "S" "m" [("send", .literal .null)]

/-
  An element is bound and removed.  Another one takes its id,
  and is bound in turn by the provider and by the page: the
  first record is not intact.  Taking the provider out leaves
  the listener of the page.
-/
theorem accounted_of_reused_id :
    ∃ s earlier foreign s',
      Ledger (s :: earlier) foreign ∧
        s.registry.recorded.map (·.2.listener) = [0, 1] ∧
        s.page.listeners.map (·.id) = [1, 2] ∧
        s.Accounted (s :: earlier) foreign ∧
        s.act (.operation (.registry (.removeProvider "S"))) =
          .ok s' ∧
        s'.page.listeners.map (·.id) = [2] ∧
        ∀ l ∈ s'.page.listeners, ∀ guard raw,
          l.handler ≠ .provided ⟨0, 0, "S"⟩ guard raw := by
  let attrs : List (String × String) :=
    [("data-metric-event", "e"), ("m", "send")]
  let root (children : List NodeId) : Option Node :=
    some { id := 0, children, data := .document }
  let box (parent : Option NodeId) : Option Node :=
    some
      { id := 1, parent
        data :=
          .element
            ⟨.html "i", attrs.map fun a => .plain a.1 a.2⟩ }
  let linked : Tree := ⟨#[root [1], box (some 0)], []⟩
  let own (id : Nat) : Listener Handler :=
    ⟨id, 1, "e", none,
      .provided ⟨0, 0, "S"⟩ .always
        (pushHandler ⟨0, 0, "S"⟩ (.literal .null))⟩
  let other : Listener Handler :=
    ⟨2, 1, "e", none, .recorder "other"⟩
  let entry (ids : List Nat) : Entry :=
    { provider := steadySender, number := 0
      bindings := ids.map fun id => ⟨1, "e", none, id⟩ }
  let bare (nodes : List (Option Node)) : Session :=
    start (Document.ofTree ⟨nodes.toArray, []⟩) {}
  let state (tree : Tree) (nextListener : Nat)
      (listeners : List (Listener Handler))
      (entries : List Entry) : Session :=
    { page := { tree, listeners, nextListener }
      registry := { number := 0, config := {}, entries }
      initial := {}
      providers := [{ hasTransport := true }] }
  have h₀ : Ledger [bare [root []]] [] := .start {}
  have h₁ :=
    h₀.step (.operation (.page (.createElement "i" attrs)))
      (bare [root [], box none]) trivial rfl
  have h₂ :=
    h₁.step (.operation (.page (.append 0 [1])))
      (bare [root [1], box (some 0)]) trivial rfl
  have h₃ :=
    h₂.step
      (.operation
        (.registry (.addProvider steadySender true)))
      (state linked 1 [own 0] [entry [0]]) trivial (by cbv)
  have h₄ :=
    h₃.step (.operation (.page (.remove 1)))
      (state ⟨#[root [], none], [1]⟩ 1 [] [entry [0]]) trivial
      (by cbv)
  have h₅ :=
    h₄.step (.operation (.page (.createElement "i" attrs)))
      (state ⟨#[root [], box none], []⟩ 1 [] [entry [0]])
      trivial rfl
  have h₆ :=
    h₅.step (.operation (.page (.append 0 [1])))
      (state linked 1 [] [entry [0]]) trivial rfl
  have h₇ :=
    h₆.step (.operation (.registry (.parse none)))
      (state linked 2 [own 1] [entry [0, 1]]) trivial
      (by cbv)
  have h₈ :=
    h₇.step (.operation (.page (.bind 1 "e" "other")))
      (state linked 3 [own 1, other] [entry [0, 1]])
      trivial rfl
  have hRemove :
      (state linked 3 [own 1, other] [entry [0, 1]]).act
          (.operation (.registry (.removeProvider "S"))) =
        .ok (state linked 3 [other] []) := by
    cbv
  rcases accounted_of_ledger h₈ with ⟨hAccounted, hGone⟩
  refine
    ⟨_, _, _, _, h₈, rfl, rfl, hAccounted, hRemove, rfl, ?_⟩
  exact
    hGone (.operation (.registry (.removeProvider "S"))) _
      trivial hRemove (entry [0, 1])
      (List.mem_singleton.mpr rfl) rfl

end Session

end MarkupMetrics
