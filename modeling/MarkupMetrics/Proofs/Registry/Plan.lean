import MarkupMetrics.Proofs.Provider.Building
import MarkupMetrics.Proofs.Registry.Binding

/-
  This file proves which listeners a scan attaches, and in
  which order.

  The plan of a scan lists what the providers have built: for
  one element after the other, and for each of them in the
  order of registration.  The scan attaches the plan at the
  end of the listeners.

  Key definitions include:
    * `Registry.members`
    * `Registry.offers`
    * `Registry.plan`
    * `Document.fulfilled`

  Key theorems include:
    * `Registry.exists_bindElements_iff`
    * `Registry.exists_scan_iff`
    * `Registry.pairwise_plan`
-/

namespace MarkupMetrics

open Dom

------------------------------------------------------------
-- Results
------------------------------------------------------------

/- The result that a trace comes to, if it comes to one. -/
def Trace.result?
    {α : Type} : Trace α → Option α
  | .fault _ => none
  | .done a _ => some a

theorem Trace.result?_eq_some_iff
    {α : Type}
    {x : Trace α}
    {a : α} :
    x.result? = some a ↔ x.Gives a := by
  cases x with
  | fault why => simp [result?]
  | done b effects => simp [result?]

------------------------------------------------------------
-- Offers
------------------------------------------------------------

/-
  A handler that a provider has built for a declaration, with
  on whose behalf it acts.
-/
structure Offer where
  context : Context
  declaration : Declaration
  handler : Handler

/- The listener that is attached for an offer. -/
def Offer.listener
    (o : Offer)
    (id : Nat) : Listener Handler :=
  ⟨id, o.declaration.element, o.declaration.event,
    o.declaration.selector.map .ofText, o.handler⟩

/- What one provider has built for a declaration, if anything. -/
def Declaration.offer?
    (d : Declaration)
    (number : Nat)
    (debug : Bool)
    (t : Tree)
    (m : Provider × Nat) : Option Offer :=
  let cx : Context := ⟨number, m.2, m.1.shortName⟩
  let built :=
    m.1.buildHandler cx debug t d.element d.condition
  built.result?.join.map fun h => ⟨cx, d, h⟩

namespace Registry

/- The providers in use, with their numbers. -/
def members
    (r : Registry) : List (Provider × Nat) :=
  r.entries.map fun e => (e.provider, e.number)

theorem names_eq_members
    (r : Registry) :
    r.names = r.members.map (·.1.shortName) := by
  simp [names, members, Entry.shortName]

/- The providers that are meant by an optional name. -/
def chosen
    (r : Registry)
    (only : Option String) : List (Provider × Nat) :=
  r.members.filter fun m => only.all (· == m.1.shortName)

/- What an element declares, if it does. -/
def declared?
    (r : Registry)
    (t : Tree)
    (element : NodeId) : Option Declaration := do
  let value ← t.attr? element r.config.eventAttribute
  let (event, selector) ← declaredEvent? value
  return ⟨element, event, selector,
    t.attr? element r.config.conditionAttribute⟩

/- What the providers have built for an element, in order. -/
def offers
    (r : Registry)
    (only : Option String)
    (t : Tree)
    (element : NodeId) : List Offer :=
  (r.declared? t element).toList.flatMap fun d =>
    (r.chosen only).filterMap
      (d.offer? r.number r.config.debug t)

/- What they have built for several elements. -/
def plan
    (r : Registry)
    (only : Option String)
    (t : Tree)
    (elements : List NodeId) : List Offer :=
  elements.flatMap (r.offers only t)

/- Whether building comes to an end for an element. -/
def Builds
    (r : Registry)
    (only : Option String)
    (t : Tree)
    (element : NodeId) : Prop :=
  ∀ d ∈ r.declared? t element, ∀ m ∈ r.chosen only,
    ∃ built,
      (m.1.buildHandler ⟨r.number, m.2, m.1.shortName⟩
        r.config.debug t d.element d.condition).Gives built

end Registry

/- A page with a plan attached at the end of its listeners. -/
def Document.fulfilled
    (page : Page)
    (offers : List Offer) : Page :=
  { page with
    listeners :=
      page.listeners ++
        (offers.zipIdx page.nextListener).map fun x =>
          x.1.listener x.2
    nextListener := page.nextListener + offers.length }

@[simp] theorem Document.fulfilled_tree
    (page : Page)
    (offers : List Offer) :
    (page.fulfilled offers).tree = page.tree :=
  rfl

theorem Document.fulfilled_nil
    (page : Page) :
    page.fulfilled [] = page := by
  simp [fulfilled]

/- Plans are attached one after the other. -/
theorem Document.fulfilled_append
    (page : Page)
    (first second : List Offer) :
    page.fulfilled (first ++ second) =
      (page.fulfilled first).fulfilled second := by
  simp [fulfilled, List.zipIdx_append, Nat.add_assoc]

theorem Document.attached_eq_fulfilled
    {page : Page}
    {d : Declaration}
    (hLive : page.tree.contains d.element = true)
    (cx : Context)
    (h : Handler) :
    page.attached d.element d.event
        (d.selector.map .ofText) h =
      page.fulfilled [⟨cx, d, h⟩] := by
  simp [attached, fulfilled, hLive, Offer.listener]

------------------------------------------------------------
-- Entries
------------------------------------------------------------

namespace Registry

theorem declaration?_gives_iff
    {r : Registry}
    {t : Tree}
    {element : NodeId}
    {found : Option Declaration} :
    (r.declaration? t element).Gives found ↔
      found = r.declared? t element := by
  unfold declaration? declared?
  cases hValue : t.attr? element r.config.eventAttribute with
  | none => simp [eq_comm]
  | some value =>
      cases hEvent : declaredEvent? value with
      | none =>
          simp only [hEvent, note, Trace.gives_note_bind_iff,
            Trace.gives_pure_iff]
          simp [hEvent, eq_comm]
      | some declared => simp [hEvent, eq_comm]

/- An offer is what a provider comes to. -/
theorem offer?_of_gives
    {d : Declaration}
    {number : Nat}
    {debug : Bool}
    {t : Tree}
    {m : Provider × Nat}
    {built : Option Handler}
    (hBuilt :
      (m.1.buildHandler ⟨number, m.2, m.1.shortName⟩ debug t
        d.element d.condition).Gives built) :
    d.offer? number debug t m =
      built.map fun h =>
        ⟨⟨number, m.2, m.1.shortName⟩, d, h⟩ := by
  rw [← Trace.result?_eq_some_iff] at hBuilt
  simp [Declaration.offer?, hBuilt]

/-
  One provider attaches its offer, if it makes one, as soon as
  building comes to an end.
-/
theorem exists_bindEntry_iff
    {r : Registry}
    {d : Declaration}
    {page page' : Page}
    {n : Nat}
    {e : Entry}
    (hLive : page.tree.contains d.element = true) :
    (∃ n' e', (r.bindEntry d page n e).Gives
        (page', n', e')) ↔
      (∃ built,
        (e.provider.buildHandler (r.context e) r.config.debug
          page.tree d.element d.condition).Gives built) ∧
        page' =
          page.fulfilled
            (d.offer? r.number r.config.debug page.tree
              (e.provider, e.number)).toList := by
  simp only [bindEntry, Trace.gives_bind_iff]
  constructor
  · rintro ⟨n', e', built, hBuilt, hRest⟩
    refine ⟨⟨built, hBuilt⟩, ?_⟩
    rw [offer?_of_gives (m := (e.provider, e.number)) hBuilt]
    cases built with
    | none =>
        rw [Trace.gives_pure_iff, Prod.mk.injEq] at hRest
        rw [← hRest.1]
        exact page.fulfilled_nil.symm
    | some h =>
        rcases Trace.gives_bind_iff.mp hRest with
          ⟨⟨attached, id⟩, hAttach, hDone⟩
        rw [attachDeclared_gives_iff, Prod.mk.injEq] at hAttach
        rw [Trace.gives_pure_iff, Prod.mk.injEq] at hDone
        rw [← hDone.1, hAttach.1]
        exact Document.attached_eq_fulfilled hLive _ h
  · rintro ⟨⟨built, hBuilt⟩, rfl⟩
    rw [offer?_of_gives (m := (e.provider, e.number)) hBuilt]
    cases built with
    | none =>
        refine ⟨n, e, none, hBuilt, ?_⟩
        rw [Trace.gives_pure_iff, Prod.mk.injEq]
        exact ⟨page.fulfilled_nil.symm, rfl⟩
    | some h =>
        refine
          ⟨n + 1, e.bound (d.binding page.nextListener),
            some h, hBuilt, ?_⟩
        refine
          Trace.gives_bind_iff.mpr
            ⟨_, attachDeclared_gives_iff.mpr rfl, ?_⟩
        rw [Trace.gives_pure_iff, Prod.mk.injEq]
        exact
          ⟨Document.attached_eq_fulfilled hLive _ h, rfl⟩

/- An entry that is not meant is left as it is. -/
theorem exists_bindEntries_of_not_meant
    {r : Registry}
    {only : Option String}
    {d : Declaration}
    {page page' : Page}
    {n : Nat}
    {e : Entry}
    {rest : List Entry}
    (hMeant : e.isMeant only = false) :
    (∃ n' entries',
      (r.bindEntries only d page n (e :: rest)).Gives
        (page', n', entries')) ↔
      ∃ n' rest',
        (r.bindEntries only d page n rest).Gives
          (page', n', rest') := by
  simp only [bindEntries, hMeant, Bool.false_eq_true, if_false,
    pure_bind, Trace.gives_bind_iff, Trace.gives_pure_iff,
    Prod.exists, Prod.mk.injEq]
  constructor
  · rintro ⟨_, _, last, m, rest', hRest, rfl, _⟩
    exact ⟨m, rest', hRest⟩
  · rintro ⟨m, rest', hRest⟩
    exact ⟨_, _, page', m, rest', hRest, rfl, rfl, rfl⟩

/- An entry that is meant is bound before the ones after it. -/
theorem exists_bindEntries_of_meant
    {r : Registry}
    {only : Option String}
    {d : Declaration}
    {page page' : Page}
    {n : Nat}
    {e : Entry}
    {rest : List Entry}
    (hMeant : e.isMeant only = true) :
    (∃ n' entries',
      (r.bindEntries only d page n (e :: rest)).Gives
        (page', n', entries')) ↔
      ∃ middle m,
        (∃ e', (r.bindEntry d page n e).Gives
            (middle, m, e')) ∧
          ∃ n' rest',
            (r.bindEntries only d middle m rest).Gives
              (page', n', rest') := by
  simp only [bindEntries, hMeant, if_true,
    Trace.gives_bind_iff, Prod.exists, Trace.gives_pure_iff,
    Prod.mk.injEq]
  constructor
  · rintro
      ⟨_, _, middle, m, e', hBind, last, n', rest', hRest, rfl,
        _⟩
    exact ⟨middle, m, ⟨e', hBind⟩, n', rest', hRest⟩
  · rintro ⟨middle, m, ⟨e', hBind⟩, n', rest', hRest⟩
    exact
      ⟨_, _, middle, m, e', hBind, page', n', rest', hRest, rfl,
        rfl, rfl⟩

/- The entries that are meant attach their offers in order. -/
theorem exists_bindEntries_iff
    {r : Registry}
    {only : Option String}
    {d : Declaration}
    {page page' : Page}
    {n : Nat}
    {entries : List Entry}
    (hLive : page.tree.contains d.element = true) :
    (∃ n' entries',
      (r.bindEntries only d page n entries).Gives
        (page', n', entries')) ↔
      (∀ e ∈ entries, e.isMeant only = true →
        ∃ built,
          (e.provider.buildHandler (r.context e)
            r.config.debug page.tree d.element
              d.condition).Gives built) ∧
        page' =
          page.fulfilled
            ((entries.filter (·.isMeant only)).filterMap
              fun e =>
                d.offer? r.number r.config.debug page.tree
                  (e.provider, e.number)) := by
  induction entries generalizing page n with
  | nil =>
      rw [List.filter_nil, List.filterMap_nil,
        Document.fulfilled_nil, bindEntries]
      constructor
      · rintro ⟨_, _, hDone⟩
        rw [Trace.gives_pure_iff, Prod.mk.injEq] at hDone
        exact ⟨by simp, hDone.1.symm⟩
      · rintro ⟨_, rfl⟩
        exact ⟨n, [], Trace.gives_pure_iff.mpr rfl⟩
  | cons e rest ih =>
      cases hMeant : e.isMeant only with
      | false =>
          rw [exists_bindEntries_of_not_meant hMeant, ih hLive,
            List.filter_cons_of_neg (by simp [hMeant])]
          simp [hMeant]
      | true =>
          have hList :
              ((e :: rest).filter (·.isMeant only)).filterMap
                  (fun e =>
                    d.offer? r.number r.config.debug page.tree
                      (e.provider, e.number)) =
                (d.offer? r.number r.config.debug page.tree
                  (e.provider, e.number)).toList ++
                  (rest.filter (·.isMeant only)).filterMap
                    fun e =>
                      d.offer? r.number r.config.debug
                        page.tree (e.provider, e.number) := by
            rw [List.filter_cons_of_pos hMeant,
              List.filterMap_cons]
            cases d.offer? r.number r.config.debug page.tree
                (e.provider, e.number) with
            | none => rfl
            | some o => rfl
          have hStill :
              (page.fulfilled
                (d.offer? r.number r.config.debug page.tree
                  (e.provider, e.number)).toList).tree.contains
                d.element = true :=
            hLive
          have hNext := fun m => ih (n := m) hStill
          rw [exists_bindEntries_of_meant hMeant, hList,
            Document.fulfilled_append]
          simp only [List.forall_mem_cons, hMeant, true_implies]
          constructor
          · rintro ⟨middle, m, ⟨e', hBind⟩, hRest⟩
            rcases (exists_bindEntry_iff hLive).mp
              ⟨m, e', hBind⟩ with ⟨hBuilt, rfl⟩
            rw [hNext] at hRest
            exact ⟨⟨hBuilt, hRest.1⟩, hRest.2⟩
          · rintro ⟨⟨hBuilt, hOthers⟩, hPage⟩
            rcases (exists_bindEntry_iff (n := n) hLive).mpr
              ⟨hBuilt, rfl⟩ with ⟨m, e', hBind⟩
            exact
              ⟨_, m, ⟨e', hBind⟩,
                (hNext m).mpr ⟨hOthers, hPage⟩⟩

------------------------------------------------------------
-- Elements
------------------------------------------------------------

/- The members that are meant are those of the entries meant. -/
theorem chosen_eq
    (r : Registry)
    (only : Option String) :
    r.chosen only =
      (r.entries.filter (·.isMeant only)).map fun e =>
        (e.provider, e.number) := by
  simp only [chosen, members, List.filter_map]
  rfl

/- An element has its offers attached. -/
theorem exists_bindElement_iff
    {only : Option String}
    {page page' : Page}
    {r : Registry}
    {n : Nat}
    {element : NodeId}
    (hLive : page.tree.contains element = true) :
    (∃ r' n', (bindElement only (page, r, n) element).Gives
        (page', r', n')) ↔
      r.Builds only page.tree element ∧
        page' =
          page.fulfilled (r.offers only page.tree element) := by
  have hDeclared :
      ∀ d ∈ r.declared? page.tree element,
        d.element = element := by
    intro d hMember
    rw [Option.mem_def, ← eq_comm,
      ← declaration?_gives_iff] at hMember
    exact (declaration?_gives hMember).1
  simp only [bindElement, Trace.gives_bind_iff,
    declaration?_gives_iff, exists_eq_left, Builds, offers]
  cases hFound : r.declared? page.tree element with
  | none =>
      rw [Option.toList_none, List.flatMap_nil,
        Document.fulfilled_nil]
      simp [eq_comm]
  | some d =>
      rw [hFound] at hDeclared
      have hElement := hDeclared d rfl
      have hDeclaring : page.tree.contains d.element = true :=
        hElement.symm ▸ hLive
      have hEntries :
          (∃ n' entries',
            (r.bindEntries only d page n r.entries).Gives
              (page', n', entries')) ↔ _ :=
        exists_bindEntries_iff hDeclaring
      simp only [note, Trace.gives_note_bind_iff]
      simp only [Trace.gives_bind_iff, Trace.gives_pure_iff,
        Prod.exists, Prod.mk.injEq]
      refine Iff.trans ?_ (hEntries.trans ?_)
      · constructor
        · rintro ⟨_, _, last, m, entries', hRest, rfl, _⟩
          exact ⟨m, entries', hRest⟩
        · rintro ⟨m, entries', hRest⟩
          exact
            ⟨_, _, page', m, entries', hRest, rfl, rfl, rfl⟩
      · simp only [chosen_eq, Option.mem_some, forall_eq',
          List.forall_mem_map, List.mem_filter, and_imp,
          Option.toList_some, List.flatMap_cons,
          List.flatMap_nil, List.append_nil,
          List.filterMap_map]
        rfl

/- Only the settings and the members matter for a plan. -/
theorem offers_congr
    {r r' : Registry}
    (hNumber : r'.number = r.number)
    (hConfig : r'.config = r.config)
    (hMembers : r'.members = r.members) :
    r'.offers = r.offers ∧ r'.Builds = r.Builds := by
  constructor
  · funext only t element
    simp only [offers, declared?, chosen, hNumber, hConfig,
      hMembers]
  · funext only t element
    simp only [Builds, declared?, chosen, hNumber, hConfig,
      hMembers]

/- One element after the other has its offers attached. -/
theorem exists_bindElements_iff
    {only : Option String}
    {page page' : Page}
    {r : Registry}
    {n : Nat}
    {elements : List NodeId}
    (hLive : ∀ x ∈ elements, page.tree.contains x = true) :
    (∃ r' n',
      (elements.foldlM (bindElement only) (page, r, n)).Gives
        (page', r', n')) ↔
      (∀ x ∈ elements, r.Builds only page.tree x) ∧
        page' =
          page.fulfilled (r.plan only page.tree elements) := by
  induction elements generalizing page r n with
  | nil =>
      rw [plan, List.flatMap_nil, Document.fulfilled_nil,
        List.foldlM_nil]
      constructor
      · rintro ⟨_, _, hDone⟩
        rw [Trace.gives_pure_iff, Prod.mk.injEq] at hDone
        exact ⟨by simp, hDone.1.symm⟩
      · rintro ⟨_, rfl⟩
        exact ⟨r, n, Trace.gives_pure_iff.mpr rfl⟩
  | cons x rest ih =>
      have hFirst := hLive x (by simp)
      have hOthers :
          ∀ y ∈ rest, page.tree.contains y = true :=
        fun y hMember => hLive y (by simp [hMember])
      have hSplit :
          r.plan only page.tree (x :: rest) =
            r.offers only page.tree x ++
              r.plan only page.tree rest :=
        List.flatMap_cons
      -- The registry is not the same after the first element,
      -- but the rest of the plan is.
      have hSame :
          ∀ {r' : Registry} {m : Nat},
            (bindElement only (page, r, n) x).Gives
                (page.fulfilled (r.offers only page.tree x),
                  r', m) →
              r'.plan = r.plan ∧ r'.Builds = r.Builds := by
        intro r' m hRun
        have hBound := bindElement_bindings hFirst hRun
        have hOffers :=
          offers_congr hBound.same.2.1 hBound.same.2.2
            hBound.members
        refine ⟨?_, hOffers.2⟩
        funext only t elements
        rw [plan, hOffers.1, plan]
      have hStill :
          ∀ y ∈ rest,
            (page.fulfilled
              (r.offers only page.tree x)).tree.contains y =
                true :=
        hOthers
      have hNext := fun r' m => ih (r := r') (n := m) hStill
      simp only [List.foldlM_cons, Trace.gives_bind_iff,
        List.forall_mem_cons]
      rw [hSplit, Document.fulfilled_append]
      constructor
      · rintro ⟨last, n', ⟨middle, r', m⟩, hRun, hRest⟩
        rcases (exists_bindElement_iff hFirst).mp
          ⟨r', m, hRun⟩ with ⟨hBuilds, rfl⟩
        rcases (hNext r' m).mp ⟨last, n', hRest⟩ with
          ⟨hLater, hPage⟩
        rw [Document.fulfilled_tree, (hSame hRun).1] at hPage
        rw [(hSame hRun).2] at hLater
        exact ⟨⟨hBuilds, hLater⟩, hPage⟩
      · rintro ⟨⟨hBuilds, hLater⟩, hPage⟩
        rcases (exists_bindElement_iff hFirst).mpr
          ⟨hBuilds, rfl⟩ with ⟨r', m, hRun⟩
        rw [← (hSame hRun).1] at hPage
        rw [← (hSame hRun).2] at hLater
        rcases (hNext r' m).mpr ⟨hLater, hPage⟩ with
          ⟨last, n', hRest⟩
        exact ⟨last, n', _, hRun, hRest⟩

------------------------------------------------------------
-- Scans
------------------------------------------------------------

/-
  A scan attaches the plan for the elements that it finds, if
  the search and all building come to an end.
-/
theorem exists_scan_iff
    {r : Registry}
    {page page' : Page}
    {root : Option NodeId}
    {only : Option String} :
    (∃ r' n, (r.scan page root only).Gives (page', r', n)) ↔
      ∃ elements,
        (page.tree.find (root.getD 0) r.eventSelector).Gives
          elements ∧
          (∀ x ∈ elements, r.Builds only page.tree x) ∧
            page' =
              page.fulfilled
                (r.plan only page.tree elements) := by
  simp only [scan, Trace.gives_bind_iff]
  constructor
  · rintro ⟨r', n, elements, hFind, hLoop⟩
    exact
      ⟨elements, hFind,
        (exists_bindElements_iff
            (Tree.contains_of_find hFind)).mp ⟨r', n, hLoop⟩⟩
  · rintro ⟨elements, hFind, hPlan⟩
    rcases (exists_bindElements_iff
        (Tree.contains_of_find hFind)).mpr hPlan with
      ⟨r', n, hLoop⟩
    exact ⟨r', n, elements, hFind, hLoop⟩

------------------------------------------------------------
-- Order
------------------------------------------------------------

/- An offer is made for a member, and for the declaration. -/
theorem context_of_offer?
    {d : Declaration}
    {number : Nat}
    {debug : Bool}
    {t : Tree}
    {m : Provider × Nat}
    {o : Offer}
    (hOffer : d.offer? number debug t m = some o) :
    o.context = ⟨number, m.2, m.1.shortName⟩ ∧
      o.declaration = d := by
  simp only [Declaration.offer?, Option.map_eq_some_iff]
    at hOffer
  rcases hOffer with ⟨h, _, rfl⟩
  exact ⟨rfl, rfl⟩

theorem element_of_mem_offers
    {r : Registry}
    {only : Option String}
    {t : Tree}
    {element : NodeId}
    {o : Offer}
    (hMember : o ∈ r.offers only t element) :
    o.declaration.element = element := by
  simp only [offers, List.mem_flatMap, Option.mem_toList,
    List.mem_filterMap] at hMember
  rcases hMember with ⟨d, hDeclared, m, _, hOffer⟩
  rw [(context_of_offer? hOffer).2]
  rw [eq_comm, ← declaration?_gives_iff] at hDeclared
  exact (declaration?_gives hDeclared).1

/- The handler of an offer acts for its context. -/
theorem handler_of_mem_plan
    {r : Registry}
    {only : Option String}
    {t : Tree}
    {elements : List NodeId}
    {o : Offer}
    (hMember : o ∈ r.plan only t elements) :
    ∃ guard raw, o.handler = .provided o.context guard raw := by
  simp only [plan, offers, List.mem_flatMap,
    Option.mem_toList, List.mem_filterMap] at hMember
  rcases hMember with ⟨_, _, d, _, m, _, hOffer⟩
  simp only [Declaration.offer?, Option.map_eq_some_iff]
    at hOffer
  rcases hOffer with ⟨h, hJoin, rfl⟩
  rw [Option.join_eq_some_iff, Trace.result?_eq_some_iff]
    at hJoin
  rcases Provider.buildHandler_gives hJoin with
    ⟨guard, raw, hHandler, _, _⟩
  exact ⟨guard, raw, hHandler⟩

/-
  If no element is repeated, then of two offers for the same
  element the earlier one is that of the provider with the
  smaller number.
-/
theorem pairwise_plan
    {r : Registry}
    (hOrdered : r.members.Pairwise fun m m' => m.2 < m'.2)
    (only : Option String)
    (t : Tree)
    {elements : List NodeId}
    (hNodup : elements.Nodup) :
    (r.plan only t elements).Pairwise fun o o' =>
      o.declaration.element = o'.declaration.element →
        o.context.provider < o'.context.provider := by
  rw [plan, List.pairwise_flatMap]
  constructor
  · intro x _
    unfold offers
    cases r.declared? t x with
    | none => exact List.Pairwise.nil
    | some d =>
        rw [Option.toList_some, List.flatMap_singleton,
          List.pairwise_filterMap]
        refine (hOrdered.filter _).imp ?_
        intro m m' hLess o hOffer o' hOffer' _
        rw [(context_of_offer? hOffer).1,
          (context_of_offer? hOffer').1]
        exact hLess
  · refine hNodup.imp ?_
    intro x y hOther o hFirst o' hSecond hSame
    rw [element_of_mem_offers hFirst,
      element_of_mem_offers hSecond] at hSame
    exact (hOther hSame).elim

end Registry

end MarkupMetrics
