import MarkupMetrics.Proofs.Registry.Rounds
import MarkupMetrics.Proofs.Session.Custody
import MarkupMetrics.Proofs.Session.Likewise

/-
  This file proves what a session comes to when providers are
  registered one after another, when markup is added, and when
  a part of the page is scanned.

  The listeners that are attached on the way are those of a
  plan, which says for each element what the providers offer.
  An action comes to an end if the builders that it calls do.

  Key definitions include:
    * `Session.acts`
    * `Session.additions`
    * `Session.Arranged`

  Key theorems include:
    * `Session.Arranged.meets_add`
    * `Session.Arranged.meets_additions`
    * `Session.Arranged.meets_parse`
    * `Session.Arranged.meets_addition`
-/

namespace MarkupMetrics

open Dom

namespace Registry

/- The provider that comes last is meant by its name alone. -/
theorem chosen_of_members_append
    {r : Registry}
    {members : List (Provider × Nat)}
    {m : Provider × Nat}
    (hMembers : r.members = members ++ [m])
    (hNew :
      m.1.shortName ∉ members.map (·.1.shortName)) :
    r.chosen (some m.1.shortName) = [m] := by
  have hOthers :
      members.filter
          (fun m' => m.1.shortName == m'.1.shortName) = [] := by
    apply List.filter_eq_nil_iff.mpr
    intro m' hMember hSame
    apply hNew
    rw [beq_iff_eq.mp hSame]
    exact List.mem_map_of_mem hMember
  rw [Registry.chosen, hMembers, List.filter_append]
  simp [hOthers]

end Registry

namespace Session

open Outcome

------------------------------------------------------------
-- Rows of actions
------------------------------------------------------------

/- Carry out several actions. -/
def acts
    (s : Session)
    (actions : List Action) : Except Fault Session :=
  actions.foldlM act s

/- Register providers, each with a transport or without. -/
def additions
    (providers : List (Provider × Bool)) : List Action :=
  providers.map fun p =>
    .operation (.registry (.addProvider p.1 p.2))

/- Add markup below a node. -/
def addition
    (c : NodeId)
    (html : String) : Action :=
  .operation (.page (.appendPage c html))

theorem acts_append
    (s : Session)
    (first second : List Action) :
    s.acts (first ++ second) =
      s.acts first >>= fun s' => s'.acts second := by
  rw [acts, List.foldlM_append]
  rfl

theorem acts_cons
    (s : Session)
    (action : Action)
    (rest : List Action) :
    s.acts (action :: rest) =
      s.act action >>= fun s' => s'.acts rest :=
  rfl

theorem acts_pair
    (s : Session)
    (first second : Action) :
    s.acts [first, second] =
      s.act first >>= fun s' => s'.act second := by
  rw [acts_cons]
  congr 1
  funext s'
  exact bind_pure _

------------------------------------------------------------
-- Providers in a row
------------------------------------------------------------

/- Providers with numbers in a row. -/
def enumerated
    (first : Nat)
    (providers : List (Provider × Bool)) :
    List (Provider × Nat) :=
  (providers.zipIdx first).map fun x => (x.1.1, x.2)

theorem enumerated_cons
    (first : Nat)
    (p : Provider × Bool)
    (rest : List (Provider × Bool)) :
    enumerated first (p :: rest) =
      (p.1, first) :: enumerated (first + 1) rest := by
  rw [enumerated, List.zipIdx_cons, List.map_cons, enumerated]

theorem enumerated_append
    (first : Nat)
    (providers others : List (Provider × Bool)) :
    enumerated first (providers ++ others) =
      enumerated first providers ++
        enumerated (first + providers.length) others := by
  simp [enumerated, List.zipIdx_append]

theorem names_enumerated
    (first : Nat)
    (providers : List (Provider × Bool)) :
    (enumerated first providers).map (·.1.shortName) =
      providers.map (·.1.shortName) := by
  induction providers generalizing first with
  | nil => rfl
  | cons p rest ih =>
      rw [enumerated_cons, List.map_cons, ih (first + 1),
        List.map_cons]

/- The providers in a row are those that were given. -/
theorem mem_of_enumerated
    {providers : List (Provider × Bool)}
    {first : Nat}
    {m : Provider × Nat}
    (hMember : m ∈ enumerated first providers) :
    ∃ p ∈ providers, m.1 = p.1 := by
  rcases List.mem_map.mp hMember with ⟨⟨p, i⟩, hThere, rfl⟩
  exact ⟨p, List.fst_mem_of_mem_zipIdx hThere, rfl⟩

------------------------------------------------------------
-- Arranged sessions
------------------------------------------------------------

/-
  A session after providers were added to one without any: the
  tree is a certain one, and the listeners are the old ones
  and those of a plan, all of which are recorded.
-/
structure Arranged
    (s : Session)
    (added : List (Provider × Bool))
    (tree : Tree)
    (plan : List Offer)
    (s' : Session) : Prop where
  page :
    s'.page = Document.fulfilled { s.page with tree } plan
  number : s'.registry.number = s.registry.number
  config : s'.registry.config = s.registry.config
  retired : s'.retired = s.retired
  members :
    s'.registry.members =
      enumerated s.providers.length added
  transports :
    s'.providers.map (·.hasTransport) =
      s.providers.map (·.hasTransport) ++ added.map (·.2)
  ordered : s'.page.Numbered
  accounts :
    Registry.Accounts (fun _ => true) s'.page s'.registry

theorem Arranged.atStart
    {s : Session}
    {earlier : List Session}
    (hHistory : History Permits (s :: earlier))
    (hEmpty : s.registry.entries = []) :
    Arranged s [] s.page.tree [] s where
  page := (Document.fulfilled_nil s.page).symm
  number := rfl
  config := rfl
  retired := rfl
  members := by simp [Registry.members, enumerated, hEmpty]
  transports := by simp
  ordered := hHistory.numbered s List.mem_cons_self
  accounts := by
    rcases hHistory.custody s List.mem_cons_self with
      ⟨alive, hAccounts⟩
    apply hAccounts.ofAlive
    intro x hMember
    simp [Registry.recorded, hEmpty] at hMember

theorem Arranged.length_providers
    {s s' : Session}
    {added : List (Provider × Bool)}
    {tree : Tree}
    {plan : List Offer}
    (hArranged : Arranged s added tree plan s') :
    s'.providers.length =
      s.providers.length + added.length := by
  simpa using congrArg List.length hArranged.transports

------------------------------------------------------------
-- Registering and scanning
------------------------------------------------------------

/- An operation of a registry ends as its main part does. -/
theorem meets_act
    {s : Session}
    {operation : RegistryOperation}
    {α : Type}
    {x : Trace α}
    {f : α → Session × Answer}
    (hPerform :
      operation.perform s = (do return f (← x)))
    {Q : Session → Prop}
    (hAfter :
      ∀ a, x.Gives a → ∀ effects : List Effect,
        Q { (f a).1 with
          providers :=
            effects.foldl countRun (f a).1.providers }) :
    Meets (s.act (.operation (.registry operation)))
      (∃ a, x.Gives a) Q := by
  have hStep :
      s.act (.operation (.registry operation)) =
        match x with
        | .fault why => .error why
        | .done a effects =>
            .ok
              { (f a).1 with
                providers :=
                  effects.foldl countRun (f a).1.providers } := by
    rw [act, step]
    simp only [perform, hPerform]
    cases x with
    | fault why => rfl
    | done a effects =>
        simp [bind, Trace.bind, pure, Trace.pure, Trace.after,
          Except.bind, Except.pure, settle]
  rw [hStep]
  cases x with
  | fault why => constructor <;> simp
  | done a effects =>
      constructor
      · simp
      · intro s' hDone
        cases hDone
        exact hAfter a (Trace.gives_done_iff.mpr rfl) effects

/-
  A scan over what is found extends the plan by that of the
  registry at hand, if this one has the settings of the first.
-/
theorem Arranged.scanned
    {s s' : Session}
    {added added' : List (Provider × Bool)}
    {tree : Tree}
    {plan : List Offer}
    (hArranged : Arranged s added tree plan s')
    {r : Registry}
    (hNumber : r.number = s.registry.number)
    (hConfig : r.config = s.registry.config)
    (hMembers :
      r.members = enumerated s.providers.length added')
    (hAccounts :
      Registry.Accounts (fun _ => true) s'.page r)
    {root : Option NodeId}
    {found : List NodeId}
    (hFound :
      tree.Finds (root.getD 0) s.registry.eventSelector found)
    (only : Option String) :
    ((∃ w, (r.scan s'.page root only).Gives w) ↔
      ∀ x ∈ found, r.Builds only tree x) ∧
      ∀ w, (r.scan s'.page root only).Gives w →
        ∀ providers : List ProviderState,
          providers.map (·.hasTransport) =
              s.providers.map (·.hasTransport) ++
                added'.map (·.2) →
            Arranged s added' tree
              (plan ++ r.plan only tree found)
              { s' with
                page := w.1
                registry := w.2.1
                providers } := by
  have hTree : s'.page.tree = tree := by
    rw [hArranged.page]
    rfl
  have hSelector :
      r.eventSelector = s.registry.eventSelector := by
    rw [Registry.eventSelector, hConfig, Registry.eventSelector]
  have hHere :
      s'.page.tree.Finds (root.getD 0) r.eventSelector
        found := by
    rw [hTree, hSelector]
    exact hFound
  have hScan := Registry.scan_found hHere only
  rw [hTree] at hScan
  refine ⟨hScan.1, ?_⟩
  rintro ⟨page', r', n⟩ hRun providers hTransports
  have hBindings := Registry.scan_bindings hRun
  have hSame := hBindings.same
  exact
    { page := by
        rw [hScan.2 _ hRun, hArranged.page,
          Document.fulfilled_append]
      number := hSame.2.1.trans hNumber
      config := hSame.2.2.trans hConfig
      retired := hArranged.retired
      members := hBindings.members.trans hMembers
      transports := hTransports
      ordered :=
        hArranged.ordered.succeeds hBindings.succeeds
      accounts :=
        (hAccounts.bindings hArranged.ordered
          (fun _ _ => rfl) hBindings).1 }

/-
  Registering a provider makes a round over the elements that
  are found in the document.
-/
theorem Arranged.meets_add
    {s s' : Session}
    {added : List (Provider × Bool)}
    {tree : Tree}
    {plan : List Offer}
    (hArranged : Arranged s added tree plan s')
    {p : Provider × Bool}
    (hNew : p.1.shortName ∉ added.map (·.1.shortName))
    {found : List NodeId}
    (hFound : tree.Finds 0 s.registry.eventSelector found) :
    Meets
      (s'.act
        (.operation (.registry (.addProvider p.1 p.2))))
      (∀ x ∈ found,
        s.registry.BuildsFor tree
          (p.1, s.providers.length + added.length) x)
      (Arranged s (added ++ [p]) tree
        (plan ++
          found.filterMap
            (s.registry.offerFor tree
              (p.1, s.providers.length + added.length)))) := by
  have hNames :
      p.1.shortName ∉
        (enumerated s.providers.length added).map
          (·.1.shortName) := by
    rw [names_enumerated]
    exact hNew
  have hMissing :
      s'.registry.contains p.1.shortName = false := by
    rw [← hArranged.members, ← Registry.names_eq_members]
      at hNames
    simpa [Registry.contains, Registry.entry?,
      Registry.names] using hNames
  generalize hEnrolled :
    s'.registry.enrolled p.1
      (s.providers.length + added.length) = r
  have hMembers :
      r.members =
        enumerated s.providers.length added ++
          [(p.1, s.providers.length + added.length)] := by
    rw [← hEnrolled, ← hArranged.members]
    simp [Registry.members, Registry.enrolled]
  have hChosen :=
    Registry.chosen_of_members_append hMembers hNames
  have hNumber : r.number = s.registry.number := by
    rw [← hEnrolled]
    exact hArranged.number
  have hConfig : r.config = s.registry.config := by
    rw [← hEnrolled]
    exact hArranged.config
  have hOffers := Registry.offerFor_congr hNumber hConfig
  have hAccounts :
      Registry.Accounts (fun _ => true) s'.page r :=
    hEnrolled ▸ hArranged.accounts.enrolled p.1 _
  have hRoot :
      tree.Finds ((none : Option NodeId).getD 0)
        s.registry.eventSelector found :=
    hFound
  have hRow :
      r.members =
        enumerated s.providers.length (added ++ [p]) := by
    rw [hMembers, enumerated_append]
    rfl
  have hScan :=
    hArranged.scanned hNumber hConfig hRow hAccounts hRoot
      (some p.1.shortName)
  have hAdd :
      ∀ w,
        (s'.registry.add s'.page p.1 s'.providers.length).Gives
            w ↔
          (r.scan s'.page none (some p.1.shortName)).Gives w := by
    intro w
    rw [Registry.add_gives_iff,
      Registry.evicted_of_not_contains hMissing,
      hArranged.length_providers, hEnrolled]
  have hBuilds :
      (∃ w,
        (s'.registry.add s'.page p.1 s'.providers.length).Gives
          w) ↔
        ∀ x ∈ found,
          s.registry.BuildsFor tree
            (p.1, s.providers.length + added.length) x := by
    simp only [hAdd, hScan.1, Registry.builds_iff, hChosen,
      hOffers.2, List.mem_singleton, forall_eq]
  rw [Registry.plan_some hChosen, hOffers.1] at hScan
  have hPerform :
      RegistryOperation.perform s' (.addProvider p.1 p.2) =
        (do
          let w ←
            s'.registry.add s'.page p.1 s'.providers.length
          return ({ s'.withPage w.1 w.2.1 with
              providers := s'.providers ++ [⟨p.2, 0⟩] },
            .count w.2.2)) :=
    rfl
  have hMeets :=
    meets_act hPerform fun w hRun effects =>
      hScan.2 w ((hAdd w).mp hRun)
        (effects.foldl countRun (s'.providers ++ [⟨p.2, 0⟩]))
        (by simp [transports_countRun, hArranged.transports])
  exact ⟨hMeets.ends.trans hBuilds, hMeets.gives⟩

/- Registering several makes one round after the other. -/
theorem Arranged.meets_additions
    {s s' : Session}
    {added : List (Provider × Bool)}
    {tree : Tree}
    {plan : List Offer}
    (hArranged : Arranged s added tree plan s')
    {providers : List (Provider × Bool)}
    (hDistinct :
      ((added ++ providers).map (·.1.shortName)).Nodup)
    {found : List NodeId}
    (hFound : tree.Finds 0 s.registry.eventSelector found) :
    Meets (s'.acts (additions providers))
      (∀ m ∈
          enumerated (s.providers.length + added.length)
            providers,
        ∀ x ∈ found, s.registry.BuildsFor tree m x)
      (Arranged s (added ++ providers) tree
        (plan ++
          (enumerated (s.providers.length + added.length)
            providers).flatMap fun m =>
              found.filterMap
                (s.registry.offerFor tree m))) := by
  induction providers generalizing s' added plan with
  | nil =>
      have hSame : s'.acts (additions []) = .ok s' := rfl
      constructor
      · simp [hSame, enumerated]
      · intro s'' hDone
        rw [hSame, Except.ok.injEq] at hDone
        rw [← hDone]
        simpa [enumerated] using hArranged
  | cons p rest ih =>
      have hRest :
          (((added ++ [p]) ++ rest).map
            (·.1.shortName)).Nodup := by
        simpa using hDistinct
      have hNew : p.1.shortName ∉ added.map (·.1.shortName) := by
        rw [List.map_append, List.nodup_append] at hDistinct
        intro hThere
        exact
          hDistinct.2.2 _ hThere p.1.shortName (by simp) rfl
      have hHead :
          enumerated (s.providers.length + added.length)
              (p :: rest) =
            (p.1, s.providers.length + added.length) ::
              enumerated
                (s.providers.length + (added ++ [p]).length)
                rest := by
        rw [enumerated_cons, List.length_append,
          List.length_singleton, Nat.add_assoc]
      have hAll :
          s'.acts (additions (p :: rest)) =
            s'.act
                (.operation
                  (.registry (.addProvider p.1 p.2))) >>=
              fun s'' => s''.acts (additions rest) := by
        rw [additions, List.map_cons, acts_cons]
        rfl
      have hMeets :=
        (hArranged.meets_add hNew hFound).bind
          fun s'' hNext => ih hNext hRest
      rw [hAll, hHead]
      refine ⟨hMeets.ends.trans ?_, ?_⟩
      · rw [List.forall_mem_cons]
      · intro s'' hRun
        have hLast := hMeets.gives s'' hRun
        rw [List.append_assoc, List.append_assoc] at hLast
        exact hLast

/- A scan below a node makes a round over what is found there. -/
theorem Arranged.meets_parse
    {s s' : Session}
    {added : List (Provider × Bool)}
    {tree : Tree}
    {plan : List Offer}
    (hArranged : Arranged s added tree plan s')
    {c : NodeId}
    {found : List NodeId}
    (hFound : tree.Finds c s.registry.eventSelector found) :
    Meets
      (s'.act (.operation (.registry (.parse (some c)))))
      (∀ x ∈ found,
        ∀ m ∈ enumerated s.providers.length added,
          s.registry.BuildsFor tree m x)
      (Arranged s added tree
        (plan ++
          found.flatMap fun x =>
            (enumerated s.providers.length added).filterMap
              (s.registry.offerFor tree · x))) := by
  have hOffers :=
    Registry.offerFor_congr hArranged.number hArranged.config
  have hRoot :
      tree.Finds ((some c).getD 0) s.registry.eventSelector
        found :=
    hFound
  have hScan :=
    hArranged.scanned hArranged.number hArranged.config
      hArranged.members hArranged.accounts hRoot none
  have hChosen : s'.registry.chosen none = s'.registry.members :=
    List.filter_eq_self.mpr fun _ _ => rfl
  have hBuilds :
      (∃ w, (s'.registry.scan s'.page (some c) none).Gives w) ↔
        ∀ x ∈ found,
          ∀ m ∈ enumerated s.providers.length added,
            s.registry.BuildsFor tree m x := by
    simp only [hScan.1, Registry.builds_iff, hChosen,
      hArranged.members, hOffers.2]
  rw [Registry.plan_none, hArranged.members, hOffers.1] at hScan
  have hPerform :
      RegistryOperation.perform s' (.parse (some c)) =
        (do
          let w ← s'.registry.scan s'.page (some c) none
          return (s'.withPage w.1 w.2.1, .count w.2.2)) :=
    rfl
  have hMeets :=
    meets_act hPerform fun w hRun effects =>
      hScan.2 w hRun (effects.foldl countRun s'.providers)
        (by rw [transports_countRun, hArranged.transports])
  exact ⟨hMeets.ends.trans hBuilds, hMeets.gives⟩

------------------------------------------------------------
-- Adding markup
------------------------------------------------------------

/- Adding markup changes the tree, and nothing else. -/
theorem act_addition
    (s : Session)
    (c : NodeId)
    (html : String) :
    s.act (addition c html) =
      (s.page.tree.appendPage c html).map fun r =>
        { s with page := { s.page with tree := r.1 } } := by
  rw [addition, act]
  cases hRun : s.page.tree.appendPage c html with
  | error why =>
      simp only [step, perform, PageOperation.perform,
        Document.appendPage, hRun]
      rfl
  | ok r =>
      rw [step_appendPage hRun]
      rfl

theorem Arranged.meets_addition
    {s s' : Session}
    {added : List (Provider × Bool)}
    {tree : Tree}
    {plan : List Offer}
    (hArranged : Arranged s added tree plan s')
    (c : NodeId)
    (html : String)
    {tree' : Tree}
    {ids : List NodeId}
    (hAppend : tree.appendPage c html = .ok (tree', ids)) :
    Meets (s'.act (addition c html)) True
      (Arranged s added tree' plan) := by
  have hTree : s'.page.tree = tree := by
    rw [hArranged.page]
    rfl
  have hKeeps : s'.page.tree.Keeps tree' := by
    rw [hTree]
    exact (Tree.touched_of_appendPage hAppend).keeps
  rw [act_addition, hTree, hAppend]
  constructor
  · simp [Except.map]
  · intro s'' hDone
    cases hDone
    exact
      { hArranged with
        page := by
          rw [hArranged.page]
          rfl
        ordered :=
          hArranged.ordered.succeeds
            (.ofSublist rfl (List.Sublist.refl _))
        accounts := hArranged.accounts.ofKeeps hKeeps }

/- Where the markup cannot be added there is no result. -/
theorem Arranged.meets_no_addition
    {s s' : Session}
    {added : List (Provider × Bool)}
    {tree : Tree}
    {plan : List Offer}
    (hArranged : Arranged s added tree plan s')
    {c : NodeId}
    {html : String}
    {why : Fault}
    (hAppend : tree.appendPage c html = .error why)
    (Q : Session → Prop) :
    Meets (s'.act (addition c html)) False Q := by
  have hTree : s'.page.tree = tree := by
    rw [hArranged.page]
    rfl
  rw [act_addition, hTree, hAppend]
  constructor <;> simp [Except.map]

end Session

end MarkupMetrics
