import MarkupMetrics.Proofs.Session.Custody
import MarkupMetrics.Proofs.Session.Dispatch
import MarkupMetrics.Provider.Samples

/-
  This file proves in which order an event runs the listeners
  of different providers.

  One scan attaches for an element in the order of
  registration.  But providers can be bound in different
  scans, and then the one that was bound first runs first,
  whether or not it was registered first.

  Key definitions include:
    * `Registry.Inherits`
    * `Session.Scanned`

  Key theorems include:
    * `Session.Scanned.listener_lt`
    * `Session.listener_lt_iff`
    * `Session.sublist_calls_iff`
-/

namespace MarkupMetrics

open Dom

------------------------------------------------------------
-- Old and new records
------------------------------------------------------------

namespace Registry

/- Every record was there before, for the same provider. -/
def Inherits
    (r r' : Registry) : Prop :=
  ∀ e' ∈ r'.entries, ∀ b ∈ e'.bindings,
    ∃ e ∈ r.entries, e.number = e'.number ∧ b ∈ e.bindings

/- No record is new if none was made. -/
theorem Inherits.ofEntries
    {r r' : Registry}
    (hEntries : r'.entries = r.entries) :
    r.Inherits r' := by
  intro e' hEntry b hBinding
  exact ⟨e', hEntries ▸ hEntry, rfl, hBinding⟩

theorem Inherits.nil
    {r r' : Registry}
    (hEntries : r'.entries = []) :
    r.Inherits r' := by
  intro e' hEntry
  rw [hEntries] at hEntry
  cases hEntry

theorem inherits_drop
    (r : Registry)
    (name : String) :
    r.Inherits (r.drop name) := by
  intro e' hEntry b hBinding
  exact ⟨e', List.mem_of_mem_filter hEntry, rfl, hBinding⟩

theorem inherits_unbind
    (r : Registry)
    (page : Page)
    (only : Option String) :
    r.Inherits (r.unbind page only).2 := by
  intro e' hEntry b hBinding
  rw [unbind_eq] at hEntry
  rcases List.mem_map.mp hEntry with ⟨e, hOld, rfl⟩
  cases hMeant : e.isMeant only with
  | true => simp [hMeant, Entry.released] at hBinding
  | false =>
      simp only [hMeant, Bool.false_eq_true, if_false]
        at hBinding ⊢
      exact ⟨e, hOld, rfl, hBinding⟩

/- A new provider has no records yet. -/
theorem Inherits.enrolled
    {r r' : Registry}
    (hInherits : r.Inherits r')
    (provider : Provider)
    (number : Nat) :
    r.Inherits (r'.enrolled provider number) := by
  intro e' hEntry b hBinding
  rcases List.mem_append.mp hEntry with hOld | hNew
  · exact hInherits e' hOld b hBinding
  · rw [List.mem_singleton] at hNew
    rw [hNew] at hBinding
    cases hBinding

/- The records that a scan makes have new numbers. -/
theorem binding_cases
    {only : Option String}
    {w w' : Page × Registry}
    (hScan : Bindings only w w')
    {e' : Entry}
    (hEntry : e' ∈ w'.2.entries)
    {b : Binding}
    (hBinding : b ∈ e'.bindings) :
    (∃ e ∈ w.2.entries,
      e.number = e'.number ∧ b ∈ e.bindings) ∨
      w.1.nextListener ≤ b.listener := by
  induction hScan generalizing e' with
  | refl => exact Or.inl ⟨e', hEntry, rfl, hBinding⟩
  | tail hBefore hStep ih =>
      have hCounter := (Bindings.succeeds hBefore).counter
      cases hStep with
      | step page r before after e d h hEntries =>
          simp only [List.mem_append, List.mem_cons] at hEntry
          rw [hEntries] at ih
          rcases hEntry with hFirst | rfl | hLast
          · exact ih (by simp [hFirst]) hBinding
          · rcases List.mem_append.mp hBinding with
              hOld | hNew
            · have hThere : e ∈ before ++ e :: after := by simp
              have hFound := ih hThere
              exact hFound hOld
            · rw [List.mem_singleton] at hNew
              rw [hNew]
              exact Or.inr hCounter
          · exact ih (by simp [hLast]) hBinding

end Registry

------------------------------------------------------------
-- Scans
------------------------------------------------------------

namespace Session

/-
  A session comes about by a scan, after some listeners and
  records of the one before were taken away.
-/
structure Scanned
    (s s' : Session)
    (page : Page)
    (r : Registry) : Prop where
  inherits : s.registry.Inherits r
  reduced : Document.Reduced s.page page
  custody : r.Custody page
  scan :
    ∃ root only n,
      (r.scan page root only).Gives (s'.page, s'.registry, n)

/- An action makes no record, or comes about by a scan. -/
theorem inherits_or_scanned_of_act
    {s s' : Session}
    {action : Action}
    (hCustody : s.registry.Custody s.page)
    (hAct : s.act action = .ok s') :
    s.registry.Inherits s'.registry ∨
      ∃ page r, Scanned s s' page r := by
  have hBecomes := (becomes_of_act hAct).1
  cases action with
  | build call =>
      exact Or.inl (.ofEntries (by rw [hBecomes.1]))
  | operation operation =>
  cases operation with
  | page operation =>
      exact Or.inl (.ofEntries (by rw [hBecomes.1]))
  | language caller operation =>
      exact Or.inl (.ofEntries (by rw [hBecomes.1]))
  | registry operation =>
  rcases step_of_act hAct with ⟨answer, reports, hStep⟩
  rcases step_cases hStep with ⟨s₁, effects, hPerform, rfl, _⟩
  have hRun : (operation.perform s).Gives (s₁, answer) :=
    ⟨effects, hPerform⟩
  have hReduced := Document.reduced_refl s.page
  cases operation with
  | addProvider provider hasTransport =>
      rw [RegistryOperation.perform, Trace.gives_bind_iff]
        at hRun
      rcases hRun with ⟨⟨page, r, n⟩, hAdd, hDone⟩
      simp only [Trace.gives_pure_iff, Prod.mk.injEq] at hDone
      rcases hDone with ⟨rfl, _⟩
      rcases hCustody with ⟨alive, hAccounts⟩
      have hEnrolled :=
        (hAccounts.evicted provider.shortName).1.enrolled
          provider s.providers.length
      exact
        Or.inr
          ⟨_, _,
            (s.registry.inherits_drop
              provider.shortName).enrolled provider _,
            ⟨_, rfl⟩, ⟨_, hEnrolled⟩, _, _, n,
            Registry.add_gives_iff.mp hAdd⟩
  | parse root =>
      rw [RegistryOperation.perform, Trace.gives_bind_iff]
        at hRun
      rcases hRun with ⟨⟨page, r, n⟩, hScan, hDone⟩
      simp only [Trace.gives_pure_iff, Prod.mk.injEq] at hDone
      rcases hDone with ⟨rfl, _⟩
      exact
        Or.inr
          ⟨_, _, .ofEntries rfl, hReduced, hCustody, _, _, n,
            hScan⟩
  | parseFor name root =>
      rw [RegistryOperation.perform, Trace.gives_bind_iff]
        at hRun
      rcases hRun with ⟨⟨page, r, n⟩, hScan, hDone⟩
      simp only [Trace.gives_pure_iff, Prod.mk.injEq] at hDone
      rcases hDone with ⟨rfl, _⟩
      exact
        Or.inr
          ⟨_, _, .ofEntries rfl, hReduced, hCustody, _, _, n,
            hScan⟩
  | removeProvider name =>
      have hRegistry : s₁.registry = s.registry.drop name :=
        congrArg Prod.snd hBecomes
      simp only [hRegistry]
      exact Or.inl (s.registry.inherits_drop name)
  | clear =>
      have hRegistry : s₁.registry = _ :=
        congrArg Prod.snd hBecomes
      simp only [hRegistry]
      exact Or.inl (.nil rfl)
  | unbind name =>
      have hRegistry : s₁.registry = _ :=
        congrArg Prod.snd hBecomes
      simp only [hRegistry]
      exact Or.inl (s.registry.inherits_unbind s.page name)
  | teardown => exact Or.inl (.nil (by rw [hBecomes.2]; rfl))
  | replace config =>
      exact Or.inl (.nil (by rw [hBecomes.2]; rfl))
  | setEnabled enabled =>
      exact Or.inl (.ofEntries (by rw [hBecomes.2]; rfl))
  | setDebug debug =>
      exact Or.inl (.ofEntries (by rw [hBecomes.2]; rfl))
  | push name payload =>
      exact Or.inl (.ofEntries (by rw [hBecomes.2]))
  | setTransport provider hasTransport =>
      exact Or.inl (.ofEntries (by rw [hBecomes.2]))

/-
  A new record has a listener.  It was attached for an offer
  of the plan, which acts for the entry of the record.
-/
theorem Scanned.planned
    {s s' : Session}
    {page : Page}
    {r : Registry}
    {plan : List Offer}
    (hScanned : Scanned s s' page r)
    (hNumbered : s.page.Numbered)
    (hPage : s'.page = page.fulfilled plan)
    (hHandlers :
      ∀ o ∈ plan, ∃ guard raw,
        o.handler = .provided o.context guard raw)
    {e : Entry}
    (hEntry : e ∈ s'.registry.entries)
    {b : Binding}
    (hBinding : b ∈ e.bindings)
    (hNew : s.page.nextListener ≤ b.listener) :
    ∃ o,
      (o, b.listener) ∈ plan.zipIdx s.page.nextListener ∧
        o.declaration.element = b.element ∧
          o.context.provider = e.number := by
  rcases hScanned.reduced with ⟨keep, hReduced⟩
  have hNext : page.nextListener = s.page.nextListener := by
    rw [hReduced]
  have hFewer : Document.Succeeds s.page page := by
    rw [hReduced]
    exact .ofSublist rfl List.filter_sublist
  have hBefore := hNumbered.succeeds hFewer
  rcases hScanned.scan with ⟨root, only, n, hScan⟩
  rcases hScanned.custody with ⟨alive, hAccounts⟩
  have hAfter :=
    (hAccounts.reopen.bindings (w := (page, r)) hBefore
      (by
        intro b' hFresh
        simp [hFresh])
      (Registry.scan_bindings hScan)).1
  have hRecord :
      (s'.registry.context e, b) ∈ s'.registry.recorded :=
    Registry.mem_recorded_iff.mpr ⟨e, hEntry, rfl, hBinding⟩
  have hDue :
      (s'.registry.context e, b) ∈
        s'.registry.recorded.filter fun x =>
          alive x.2 ||
            decide (page.nextListener ≤ x.2.listener) := by
    rw [List.mem_filter]
    refine ⟨hRecord, ?_⟩
    simp [hNext, hNew]
  rw [← hAfter.own.mem_iff, List.mem_filterMap] at hDue
  rcases hDue with ⟨l, hMember, hOwn⟩
  rcases Listener.names_of_own? hOwn with ⟨_, hElement, hId⟩
  rw [hPage] at hMember
  rcases List.mem_append.mp hMember with hOld | hThere
  · have hBelow := hBefore.below l hOld
    simp only at hId
    omega
  · rcases List.mem_map.mp hThere with ⟨⟨o, i⟩, hOffer, rfl⟩
    rcases hHandlers o (List.fst_mem_of_mem_zipIdx hOffer)
      with ⟨guard, raw, hHandler⟩
    have hContext := Listener.context_of_own? hOwn hHandler
    have hPlace : b.listener = i := hId
    refine ⟨o, ?_, hElement.symm, ?_⟩
    · rw [hPlace, ← hNext]
      exact hOffer
    · rw [← hContext]
      rfl

/-
  One scan attaches for an element in the order of
  registration.
-/
theorem Scanned.listener_lt
    {s s' : Session}
    {page : Page}
    {r : Registry}
    (hScanned : Scanned s s' page r)
    (hNumbered : s.page.Numbered)
    (hLinked : s.page.tree.Linked)
    (hRoster : s'.Roster)
    {p q : Entry}
    (hFirst : p ∈ s'.registry.entries)
    (hSecond : q ∈ s'.registry.entries)
    (hOrder : p.number < q.number)
    {b b' : Binding}
    (hBinding : b ∈ p.bindings)
    (hOther : b' ∈ q.bindings)
    (hElement : b.element = b'.element)
    (hNew : s.page.nextListener ≤ b.listener)
    (hNew' : s.page.nextListener ≤ b'.listener) :
    b.listener < b'.listener := by
  rcases hScanned.scan with ⟨root, only, n, hScan⟩
  rcases hScanned.reduced with ⟨keep, hReduced⟩
  rcases Registry.exists_scan_iff.mp ⟨_, n, hScan⟩ with
    ⟨elements, hFind, _, hPage⟩
  have hTree : page.tree = s.page.tree := by rw [hReduced]
  have hMembers : s'.registry.members = r.members :=
    Registry.Bindings.members (Registry.scan_bindings hScan)
  have hOrdered := hRoster.ordered
  rw [hMembers] at hOrdered
  have hPlan :=
    Registry.pairwise_plan hOrdered only page.tree
      (Tree.nodup_of_find (hTree ▸ hLinked) hFind)
  have hHandlers :
      ∀ o ∈ r.plan only page.tree elements, ∃ guard raw,
        o.handler = .provided o.context guard raw :=
    fun _ => Registry.handler_of_mem_plan
  rcases hScanned.planned hNumbered hPage hHandlers hFirst
      hBinding hNew with ⟨o, hOffer, hAt, hProvider⟩
  rcases hScanned.planned hNumbered hPage hHandlers hSecond
      hOther hNew' with ⟨o', hOffer', hAt', hProvider'⟩
  have hSame :
      o'.declaration.element = o.declaration.element :=
    hAt'.trans (hElement.symm.trans hAt.symm)
  rcases List.mem_zipIdx hOffer with ⟨_, hInside, hGet⟩
  rcases List.mem_zipIdx hOffer' with ⟨_, hInside', hGet'⟩
  by_contra hLate
  rw [List.pairwise_iff_getElem] at hPlan
  rcases Nat.lt_or_eq_of_le (Nat.le_of_not_lt hLate) with
    hLess | hEqual
  · have hWrong :=
      hPlan (b'.listener - s.page.nextListener)
        (b.listener - s.page.nextListener) (by omega)
        (by omega) (by omega)
    rw [← hGet, ← hGet'] at hWrong
    have hProviders := hWrong hSame
    omega
  · have hBoth : o = o' := by
      rw [hGet, hGet']
      congr 1
      omega
    rw [hBoth] at hProvider
    omega

------------------------------------------------------------
-- Whole histories
------------------------------------------------------------

/- What a registry holds has a number that was given out. -/
theorem History.listener_lt_next
    {allowed : Session → Action → Prop}
    {states : List Session}
    (hHistory : History allowed states)
    {s : Session}
    (hMember : s ∈ states)
    {b : Binding}
    (hRecords : s.registry.records b = true) :
    b.listener < s.page.nextListener := by
  rcases hHistory.custody s hMember with ⟨alive, hAccounts⟩
  rcases Registry.records_iff.mp hRecords with ⟨cx, hRecord⟩
  exact hAccounts.below _ hRecord

/- So has what a registry held at any time before. -/
theorem History.listener_lt_of_records
    {allowed : Session → Action → Prop}
    {s : Session}
    {earlier : List Session}
    (hHistory : History allowed (s :: earlier))
    {r : Session}
    (hMember : r ∈ s :: earlier)
    {b : Binding}
    (hRecords : r.registry.records b = true) :
    b.listener < s.page.nextListener :=
  Nat.lt_of_lt_of_le
    (hHistory.listener_lt_next hMember hRecords)
    (hHistory.succeeds r hMember).counter

/- A record was there before the action, or a scan made it. -/
theorem held_or_scanned
    {s s' : Session}
    {action : Action}
    (hCustody : s.registry.Custody s.page)
    (hAct : s.act action = .ok s')
    {e : Entry}
    (hEntry : e ∈ s'.registry.entries)
    {b : Binding}
    (hBinding : b ∈ e.bindings) :
    (∃ e₀ ∈ s.registry.entries,
      e₀.number = e.number ∧ b ∈ e₀.bindings) ∨
      s.page.nextListener ≤ b.listener ∧
        ∃ page r, Scanned s s' page r := by
  rcases inherits_or_scanned_of_act hCustody hAct with
    hInherits | ⟨page, r, hScanned⟩
  · exact Or.inl (hInherits e hEntry b hBinding)
  · rcases hScanned.scan with ⟨root, only, n, hScan⟩
    rcases hScanned.reduced with ⟨keep, hReduced⟩
    rcases Registry.binding_cases
        (Registry.scan_bindings hScan) hEntry hBinding with
      ⟨e₁, hThere, hNumber, hOld⟩ | hNew
    · rcases hScanned.inherits e₁ hThere b hOld with
        ⟨e₀, hStill, hSame, hOlder⟩
      exact
        Or.inl ⟨e₀, hStill, hSame.trans hNumber, hOlder⟩
    · rw [hReduced] at hNew
      exact Or.inr ⟨hNew, page, r, hScanned⟩

/-
  Of two providers with records for one element, the one that
  was registered first has the smaller number, unless there
  was a moment at which only the other one was bound.
-/
theorem listener_lt_iff
    {s : Session}
    {earlier : List Session}
    (hHistory : History Permits (s :: earlier))
    {p q : Entry}
    (hFirst : p ∈ s.registry.entries)
    (hSecond : q ∈ s.registry.entries)
    (hOrder : p.number < q.number)
    {b b' : Binding}
    (hBinding : b ∈ p.bindings)
    (hOther : b' ∈ q.bindings)
    (hElement : b.element = b'.element) :
    b.listener < b'.listener ↔
      ∀ r ∈ earlier, r.registry.records b' = true →
        r.registry.records b = true := by
  generalize hStates : s :: earlier = states at hHistory
  induction hHistory generalizing s earlier p q with
  | start config =>
      cases hStates
      cases hFirst
  | step action s' hBefore hAllowed hAct ih =>
      rename_i s₀ older
      cases hStates
      have hLast := hBefore.custody s₀ (by simp)
      have hNumbered := hBefore.numbered s₀ (by simp)
      have hPast :
          ∀ r ∈ s₀ :: older, ∀ x : Binding,
            r.registry.records x = true →
              x.listener < s₀.page.nextListener :=
        fun r hMember x => hBefore.listener_lt_of_records hMember
      have hHeld :
          ∀ {e : Entry} {x : Binding},
            e ∈ s₀.registry.entries → x ∈ e.bindings →
              s₀.registry.records x = true := by
        intro e x hEntry hMember
        exact
          Registry.records_iff.mpr
            ⟨_, Registry.mem_recorded_iff.mpr
              ⟨e, hEntry, rfl, hMember⟩⟩
      rcases held_or_scanned hLast hAct hFirst hBinding with
        ⟨p₀, hFirst₀, hNumber, hBinding₀⟩ | ⟨hNew, _⟩
      · rcases held_or_scanned hLast hAct hSecond hOther with
          ⟨q₀, hSecond₀, hNumber', hOther₀⟩ | ⟨hNew', _⟩
        · -- Both are old: nothing changes for them.
          rw [ih hFirst₀ hSecond₀ (by omega) hBinding₀ hOther₀
            rfl]
          constructor
          · intro hAll r hMember
            rcases List.mem_cons.mp hMember with rfl | hOlder
            · exact fun _ => hHeld hFirst₀ hBinding₀
            · exact hAll r hOlder
          · intro hAll r hMember
            exact hAll r (List.mem_cons_of_mem _ hMember)
        · -- Only the second is new: it was never held before.
          have hBelow :=
            hPast s₀ (by simp) b (hHeld hFirst₀ hBinding₀)
          refine iff_of_true (by omega) ?_
          intro r hMember hRecords
          have hWrong := hPast r hMember b' hRecords
          omega
      · rcases held_or_scanned hLast hAct hSecond hOther with
          ⟨q₀, hSecond₀, hNumber', hOther₀⟩ |
            ⟨hNew', page, r, hScanned⟩
        · -- Only the first is new: the second was held alone.
          have hThere := hHeld hSecond₀ hOther₀
          have hBelow := hPast s₀ (by simp) b' hThere
          refine iff_of_false (by omega) ?_
          intro hAll
          have hWrong :=
            hPast s₀ (by simp) b (hAll s₀ (by simp) hThere)
          omega
        · -- Both are new: one scan has attached them in order.
          have hRoster := (hBefore.step action s' hAllowed
            hAct).roster
          refine
            iff_of_true
              (hScanned.listener_lt hNumbered
                hBefore.linked_last hRoster hFirst hSecond
                hOrder hBinding hOther hElement hNew hNew') ?_
          intro r hMember hRecords
          have hWrong := hPast r hMember b' hRecords
          omega

------------------------------------------------------------
-- Calls
------------------------------------------------------------

/- Of two items of a list one comes before the other. -/
theorem pair_sublist_or
    {α : Type}
    {items : List α}
    {a b : α}
    (hFirst : a ∈ items)
    (hSecond : b ∈ items)
    (hOther : a ≠ b) :
    [a, b].Sublist items ∨ [b, a].Sublist items := by
  induction items with
  | nil => cases hFirst
  | cons x rest ih =>
      rcases List.mem_cons.mp hFirst with rfl | hLater
      · rcases List.mem_cons.mp hSecond with rfl | hLast
        · exact (hOther rfl).elim
        · exact
            Or.inl
              ((List.singleton_sublist.mpr hLast).cons_cons _)
      · rcases List.mem_cons.mp hSecond with rfl | hLast
        · exact
            Or.inr
              ((List.singleton_sublist.mpr hLater).cons_cons _)
        · rcases ih hLater hLast with hOrder | hOrder
          · exact Or.inl (hOrder.cons x)
          · exact Or.inr (hOrder.cons x)

/-
  For one node the calls of listeners that were attached to
  one node in one way come in the order of attaching.
-/
theorem sublist_iff_id_lt
    {chain : List NodeId}
    {calls : List (Call Handler)}
    (hOrdered : calls.Pairwise (Call.Before chain))
    {c c' : Call Handler}
    (hFirst : c ∈ calls)
    (hSecond : c' ∈ calls)
    (hNode : c.listener.node = c'.listener.node)
    (hSource : c.listener.source? = c'.listener.source?)
    (hCurrent : c.current = c'.current)
    (hOther : c.listener.id ≠ c'.listener.id) :
    [c, c'].Sublist calls ↔
      c.listener.id < c'.listener.id := by
  have hKind : c.listener.isDirect = c'.listener.isDirect := by
    rw [Bool.eq_iff_iff, Document.isDirect_iff,
      Document.isDirect_iff, hSource]
  have hRank :
      ∀ x y : Call Handler,
        x.listener.node = y.listener.node →
          x.listener.isDirect = y.listener.isDirect →
            x.current = y.current →
              x.Before chain y →
                x.listener.id < y.listener.id := by
    intro x y hNode hKind hCurrent hBefore
    simpa [Call.Before, Call.rank, Prod.lex_def, hNode, hKind,
      hCurrent] using hBefore
  rw [List.pairwise_iff_forall_sublist] at hOrdered
  constructor
  · intro hOrder
    exact hRank c c' hNode hKind hCurrent (hOrdered hOrder)
  · intro hLess
    have hApart : c ≠ c' := by
      rintro rfl
      exact hOther rfl
    rcases pair_sublist_or hFirst hSecond hApart with
      hOrder | hOrder
    · exact hOrder
    · have hWrong :=
        hRank c' c hNode.symm hKind.symm hCurrent.symm
          (hOrdered hOrder)
      omega

/-
  Two providers have records for one element with the same
  event and selector, and an event reaches both listeners for
  the same node.  The provider that was registered first runs
  first exactly if there was no moment at which only the other
  one was bound.
-/
theorem sublist_calls_iff
    {s : Session}
    {earlier : List Session}
    (hHistory : History Permits (s :: earlier))
    {target : NodeId}
    {event : String}
    {calls : List (Call Handler)}
    (hCalls : s.page.calls target event = .ok calls)
    {p q : Entry}
    (hEntries : [p, q].Sublist s.registry.entries)
    {b b' : Binding}
    (hBinding : b ∈ p.bindings)
    (hOther : b' ∈ q.bindings)
    (hElement : b.element = b'.element)
    (hSelector : b.selector = b'.selector)
    {c c' : Call Handler}
    (hFirst : c ∈ calls)
    (hSecond : c' ∈ calls)
    (hNamed : c.listener.id = b.listener)
    (hNamed' : c'.listener.id = b'.listener)
    (hCurrent : c.current = c'.current) :
    [c, c'].Sublist calls ↔
      ∀ r ∈ earlier, r.registry.records b' = true →
        r.registry.records b = true := by
  have hEntry : p ∈ s.registry.entries :=
    hEntries.subset (by simp)
  have hEntry' : q ∈ s.registry.entries :=
    hEntries.subset (by simp)
  have hOrder : p.number < q.number := by
    have hOrdered := hHistory.roster.ordered
    rw [Registry.members, List.pairwise_map] at hOrdered
    exact List.pairwise_iff_forall_sublist.mp hOrdered hEntries
  rcases dispatches_of_history hHistory target event with
    ⟨chain, calls', hDispatches⟩
  have hSame := hDispatches.found
  rw [hCalls] at hSame
  cases hSame
  rcases hHistory.custody s (by simp) with ⟨alive, hAccounts⟩
  have hRead :
      ∀ {e : Entry} {x : Binding} {k : Call Handler},
        e ∈ s.registry.entries → x ∈ e.bindings → k ∈ calls →
          k.listener.id = x.listener →
            k.listener.own? s.registry.number =
              some (s.registry.context e, x) := by
    intro e x k hThere hMember hCall hId
    exact
      hAccounts.apart k.listener
        ((hDispatches.due k).mp hCall).attached _
        (Registry.mem_recorded_iff.mpr
          ⟨e, hThere, rfl, hMember⟩) hId
  have hOwn := hRead hEntry hBinding hFirst hNamed
  have hOwn' := hRead hEntry' hOther hSecond hNamed'
  have hNames := (Listener.names_of_own? hOwn).1
  have hNames' := (Listener.names_of_own? hOwn').1
  simp only [Binding.names, Bool.and_eq_true, beq_iff_eq]
    at hNames hNames'
  have hApart : c.listener.id ≠ c'.listener.id := by
    rw [hNamed, hNamed']
    intro hBoth
    have hOne :=
      hAccounts.eq_of_listener
        (x := (s.registry.context p, b))
        (y := (s.registry.context q, b'))
        (Registry.mem_recorded_iff.mpr
          ⟨p, hEntry, rfl, hBinding⟩)
        (Registry.mem_recorded_iff.mpr
          ⟨q, hEntry', rfl, hOther⟩) hBoth
    have hNumber : p.number = q.number :=
      congrArg (·.1.provider) hOne
    omega
  rw [sublist_iff_id_lt hDispatches.ordered hFirst hSecond
      (by rw [hNames.1.1.1, hNames'.1.1.1, hElement])
      (by rw [hNames.2, hNames'.2, hSelector]) hCurrent hApart,
    hNamed, hNamed',
    listener_lt_iff hHistory hEntry hEntry' hOrder hBinding
      hOther hElement]

------------------------------------------------------------
-- Two providers
------------------------------------------------------------

/- An element that declares an event for two providers. -/
private def sharedElement
    (parent : Option NodeId) : Option Node :=
  some
    { id := 1, parent
      data :=
        .element
          ⟨.html "i",
            [.plain "data-metric-event" "e",
              .plain "data-p-method" "test",
              .plain "data-q-method" "test"]⟩ }

/- A listener of the element for a provider. -/
private def sharedListener
    (id number : Nat)
    (name : String) : Listener Handler :=
  ⟨id, 1, "e", none,
    .provided ⟨0, number, name⟩ .always
      (Provider.countingHandler ⟨0, number, name⟩)⟩

/- A provider with the numbers of its listeners. -/
private def sharedEntry
    (number : Nat)
    (name : String)
    (ids : List Nat) : Entry :=
  { provider := .counting name, number
    bindings := ids.map fun id => ⟨1, "e", none, id⟩ }

/- A session with the element below the document. -/
private def sharedSession
    (nextListener : Nat)
    (listeners : List (Listener Handler))
    (entries : List Entry) : Session :=
  { page :=
      { tree :=
          ⟨#[some { id := 0, children := [1], data := .document },
            sharedElement (some 0)], []⟩
        listeners
        nextListener }
    registry := { number := 0, config := {}, entries }
    initial := {}
    providers := entries.map fun _ => ⟨true, 0⟩ }

/- The session in which both providers are registered. -/
private def bothRegistered : Session :=
  sharedSession 2
    [sharedListener 0 0 "p", sharedListener 1 1 "q"]
    [sharedEntry 0 "p" [0], sharedEntry 1 "q" [1]]

/- The sessions before, the last one first. -/
private def beforeBoth : List Session :=
  [sharedSession 1 [sharedListener 0 0 "p"]
      [sharedEntry 0 "p" [0]],
    sharedSession 0 [] [],
    start
      (Document.ofTree
        ⟨#[some { id := 0, data := .document },
          sharedElement none], []⟩) {},
    start Document.empty {}]

private theorem history_bothRegistered :
    History Permits (bothRegistered :: beforeBoth) := by
  have h₀ : History Permits [start Document.empty {}] :=
    .start {}
  have h₁ :=
    h₀.step
      (.operation
        (.page
          (.createElement "i"
            [("data-metric-event", "e"),
              ("data-p-method", "test"),
              ("data-q-method", "test")])))
      (start
        (Document.ofTree
          ⟨#[some { id := 0, data := .document },
            sharedElement none], []⟩) {}) trivial rfl
  have h₂ :=
    h₁.step (.build (.append 0 (.node 1)))
      (sharedSession 0 [] [])
      (permits_build h₁.linked_last (by decide)) rfl
  have h₃ :=
    h₂.step
      (.operation
        (.registry (.addProvider (.counting "p") true)))
      (sharedSession 1 [sharedListener 0 0 "p"]
        [sharedEntry 0 "p" [0]]) trivial (by cbv)
  exact
    h₃.step
      (.operation
        (.registry (.addProvider (.counting "q") true)))
      bothRegistered trivial (by cbv)

/-
  Two providers are registered one after the other, and the
  first of them runs first.
-/
theorem sublist_calls_of_registered :
    ∃ s earlier calls c c',
      History Permits (s :: earlier) ∧
        s.registry.names = ["p", "q"] ∧
        s.registry.bindings "p" = [⟨1, "e", none, 0⟩] ∧
        s.registry.bindings "q" = [⟨1, "e", none, 1⟩] ∧
        s.page.calls 1 "e" = .ok calls ∧
        c.listener.id = 0 ∧ c'.listener.id = 1 ∧
        [c, c'].Sublist calls := by
  have hCalls :
      bothRegistered.page.calls 1 "e" =
        .ok
          [⟨sharedListener 0 0 "p", 1⟩,
            ⟨sharedListener 1 1 "q", 1⟩] := by
    cbv
  refine
    ⟨bothRegistered, beforeBoth, _,
      ⟨sharedListener 0 0 "p", 1⟩, ⟨sharedListener 1 1 "q", 1⟩,
      history_bothRegistered, rfl, rfl, rfl, hCalls, rfl, rfl,
      ?_⟩
  have hFirst :
      ⟨1, "e", none, 0⟩ ∈ (sharedEntry 0 "p" [0]).bindings :=
    List.mem_singleton.mpr rfl
  have hSecond :
      ⟨1, "e", none, 1⟩ ∈ (sharedEntry 1 "q" [1]).bindings :=
    List.mem_singleton.mpr rfl
  refine
    (sublist_calls_iff history_bothRegistered hCalls
      (List.Sublist.refl _) hFirst hSecond rfl rfl
      List.mem_cons_self
      (List.mem_cons_of_mem _ List.mem_cons_self) rfl rfl
      rfl).mpr ?_
  have hNone :
      ∀ r ∈ beforeBoth,
        r.registry.records ⟨1, "e", none, 1⟩ = false := by
    simp [beforeBoth, sharedSession, sharedEntry,
      Registry.records, start]
  intro r hMember hRecords
  rw [hNone r hMember] at hRecords
  cases hRecords

/-
  The provider that was registered first is unbound, and bound
  again.  Each provider has one binding, and they are for the
  same element, event and selector; but the provider that was
  registered first runs last.
-/
theorem calls_of_bound_again :
    ∃ s earlier calls c c',
      History Permits (s :: earlier) ∧
        s.registry.names = ["p", "q"] ∧
        s.registry.bindings "p" = [⟨1, "e", none, 2⟩] ∧
        s.registry.bindings "q" = [⟨1, "e", none, 1⟩] ∧
        s.page.calls 1 "e" = .ok calls ∧
        c.listener.id = 2 ∧ c'.listener.id = 1 ∧
        c ∈ calls ∧ c' ∈ calls ∧ c.current = c'.current ∧
        ¬ [c, c'].Sublist calls ∧ [c', c].Sublist calls := by
  have h₁ :=
    history_bothRegistered.step
      (.operation (.registry (.unbind (some "p"))))
      (sharedSession 2 [sharedListener 1 1 "q"]
        [sharedEntry 0 "p" [], sharedEntry 1 "q" [1]]) trivial
      (by cbv)
  have h₂ :=
    h₁.step
      (.operation (.registry (.parseFor "p" none)))
      (sharedSession 3
        [sharedListener 1 1 "q", sharedListener 2 0 "p"]
        [sharedEntry 0 "p" [2], sharedEntry 1 "q" [1]]) trivial
      (by cbv)
  refine
    ⟨_, _,
      [⟨sharedListener 1 1 "q", 1⟩,
        ⟨sharedListener 2 0 "p", 1⟩],
      ⟨sharedListener 2 0 "p", 1⟩, ⟨sharedListener 1 1 "q", 1⟩,
      h₂, rfl, rfl, rfl, by cbv, rfl, rfl,
      List.mem_cons_of_mem _ List.mem_cons_self,
      List.mem_cons_self, rfl, ?_, List.Sublist.refl _⟩
  intro hOrder
  have hSame := hOrder.eq_of_length rfl
  simp [sharedListener] at hSame

end Session

end MarkupMetrics
