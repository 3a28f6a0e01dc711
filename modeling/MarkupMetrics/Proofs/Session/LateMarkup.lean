import MarkupMetrics.Proofs.Dom.Grafts
import MarkupMetrics.Proofs.Selector.Attribute
import MarkupMetrics.Proofs.Session.Registering
import MarkupMetrics.Provider.Samples

/-
  This file proves that markup which is added late is bound as
  if it had been there from the start.

  One run registers providers, adds markup below a node, and
  scans below that node.  Another run adds the markup first
  and registers the providers then.  Both come to an end under
  the same conditions, and to sessions that differ in the
  numbers of listeners only.

  Key definitions include:
    * `Session.early`
    * `Session.late`

  Key theorems include:
    * `Session.meets_early`
    * `Session.meets_late`
    * `Session.parts_of_grafted`
    * `Session.likewise_of_late`
-/

namespace MarkupMetrics

open Dom

namespace Session

open Outcome

------------------------------------------------------------
-- The two runs
------------------------------------------------------------

/- Register, add the markup, and scan below the node. -/
def early
    (c : NodeId)
    (html : String)
    (providers : List (Provider × Bool)) : List Action :=
  additions providers ++
    [addition c html, .operation (.registry (.parse (some c)))]

/- Add the markup, and register. -/
def late
    (c : NodeId)
    (html : String)
    (providers : List (Provider × Bool)) : List Action :=
  addition c html :: additions providers

------------------------------------------------------------
-- Whole runs
------------------------------------------------------------

/- Registration where there was no provider before. -/
theorem Arranged.meets_registrations
    {s s' : Session}
    {tree : Tree}
    (hArranged : Arranged s [] tree [] s')
    {providers : List (Provider × Bool)}
    (hDistinct : (providers.map (·.1.shortName)).Nodup)
    {found : List NodeId}
    (hFound : tree.Finds 0 s.registry.eventSelector found) :
    Meets (s'.acts (additions providers))
      (∀ m ∈ enumerated s.providers.length providers,
        ∀ x ∈ found, s.registry.BuildsFor tree m x)
      (Arranged s providers tree
        ((enumerated s.providers.length providers).flatMap
          fun m =>
            found.filterMap (s.registry.offerFor tree m))) :=
  hArranged.meets_additions hDistinct hFound

variable {s : Session}
variable {c : NodeId}
variable {html : String}
variable {providers : List (Provider × Bool)}
variable {tree : Tree}
variable {ids all before below after : List NodeId}

theorem meets_early
    (hStart : Arranged s [] s.page.tree [] s)
    (hAppend : s.page.tree.appendPage c html = .ok (tree, ids))
    (hDistinct : (providers.map (·.1.shortName)).Nodup)
    (hAll :
      s.page.tree.Finds 0 s.registry.eventSelector all)
    (hBelow : tree.Finds c s.registry.eventSelector below) :
    Meets (s.acts (early c html providers))
      ((∀ m ∈ enumerated s.providers.length providers,
          ∀ x ∈ all, s.registry.BuildsFor s.page.tree m x) ∧
        True ∧
          ∀ x ∈ below,
            ∀ m ∈ enumerated s.providers.length providers,
              s.registry.BuildsFor tree m x)
      (Arranged s providers tree
        (((enumerated s.providers.length providers).flatMap
            fun m =>
              all.filterMap
                (s.registry.offerFor s.page.tree m)) ++
          below.flatMap fun x =>
            (enumerated s.providers.length
              providers).filterMap
                (s.registry.offerFor tree · x))) := by
  have hRun :
      s.acts (early c html providers) =
        s.acts (additions providers) >>= fun s₁ =>
          s₁.act (addition c html) >>= fun s₂ =>
            s₂.act
              (.operation (.registry (.parse (some c)))) := by
    rw [early, acts_append]
    simp only [acts_pair]
  rw [hRun]
  refine (hStart.meets_registrations hDistinct hAll).bind ?_
  intro s₁ hFirst
  refine (hFirst.meets_addition c html hAppend).bind ?_
  intro s₂ hSecond
  exact hSecond.meets_parse hBelow

/- Without the markup there is no result. -/
theorem meets_early_error
    {why : Fault}
    (hStart : Arranged s [] s.page.tree [] s)
    (hAppend : s.page.tree.appendPage c html = .error why)
    (hDistinct : (providers.map (·.1.shortName)).Nodup)
    (hAll :
      s.page.tree.Finds 0 s.registry.eventSelector all) :
    Meets (s.acts (early c html providers))
      ((∀ m ∈ enumerated s.providers.length providers,
          ∀ x ∈ all, s.registry.BuildsFor s.page.tree m x) ∧
        False ∧ True)
      fun _ => True := by
  rw [early, acts_append]
  refine (hStart.meets_registrations hDistinct hAll).bind ?_
  intro s₁ hFirst
  rw [acts_cons]
  refine
    (hFirst.meets_no_addition hAppend fun _ => False).bind ?_
  intro s₂ hNever
  exact hNever.elim

theorem meets_late_error
    {why : Fault}
    (hStart : Arranged s [] s.page.tree [] s)
    (hAppend : s.page.tree.appendPage c html = .error why)
    (providers : List (Provider × Bool)) :
    Meets (s.acts (late c html providers)) (False ∧ True)
      fun _ => True := by
  rw [late, acts_cons]
  refine
    (hStart.meets_no_addition hAppend fun _ => False).bind ?_
  intro s₂ hNever
  exact hNever.elim

theorem meets_late
    (hStart : Arranged s [] s.page.tree [] s)
    (hAppend : s.page.tree.appendPage c html = .ok (tree, ids))
    (hDistinct : (providers.map (·.1.shortName)).Nodup)
    (hAll : tree.Finds 0 s.registry.eventSelector all) :
    Meets (s.acts (late c html providers))
      (True ∧
        ∀ m ∈ enumerated s.providers.length providers,
          ∀ x ∈ all, s.registry.BuildsFor tree m x)
      (Arranged s providers tree
        ((enumerated s.providers.length providers).flatMap
          fun m =>
            all.filterMap (s.registry.offerFor tree m))) := by
  rw [late, acts_cons]
  refine (hStart.meets_addition c html hAppend).bind ?_
  intro s₁ hFirst
  exact hFirst.meets_registrations hDistinct hAll

------------------------------------------------------------
-- Comparing the runs
------------------------------------------------------------

/- Plans that agree at each node make sessions the same. -/
theorem Arranged.likewise
    {plan plan' : List Offer}
    {s₁ s₂ : Session}
    (hFirst : Arranged s providers tree plan s₁)
    (hSecond : Arranged s providers tree plan' s₂)
    (hDistinct : (providers.map (·.1.shortName)).Nodup)
    (hPlans :
      ∀ node : NodeId,
        plan'.filter (·.declaration.element = node) =
          plan.filter (·.declaration.element = node)) :
    Likewise s₁ s₂ := by
  have hMatches : s₁.page.Matches s₂.page := by
    constructor
    · rw [hFirst.page, hSecond.page]
      rfl
    · intro node
      rw [hFirst.page, hSecond.page,
        Document.listenersOf_fulfilled,
        Document.listenersOf_fulfilled, hPlans node]
  have hAlike : Alike s₁ s₂ :=
    { page := hMatches
      number := hSecond.number.trans hFirst.number.symm
      config := hSecond.config.trans hFirst.config.symm
      retired := hSecond.retired.trans hFirst.retired.symm
      transports :=
        hSecond.transports.trans hFirst.transports.symm }
  have hNames : s₁.registry.names.Nodup := by
    rw [Registry.names_eq_members, hFirst.members,
      names_enumerated]
    exact hDistinct
  exact
    hAlike.likewise
      (hSecond.members.trans hFirst.members.symm) hNames
      hFirst.accounts hSecond.accounts

/-
  Markup below a node at which no element carries the attribute
  splits what a search finds: into what it found before, which
  is offered the same, and what it finds below the node.
-/
theorem parts_of_grafted
    (hLinked : s.page.tree.Linked)
    (hLive : s.page.tree.contains c = true)
    (hAttached : s.page.tree.Within c 0)
    (hBare :
      ∀ x,
        ¬ s.page.tree.CarriesBelow c
          s.registry.config.eventAttribute x)
    (hReads : ∀ p ∈ providers, p.1.ReadsAttributes)
    (hGrafted : Tree.Grafted c s.page.tree tree)
    (hOnce : before.Nodup ∧ below.Nodup ∧ after.Nodup)
    (hBefore :
      ∀ x, x ∈ before ↔
        s.page.tree.CarriesBelow 0
          s.registry.config.eventAttribute x)
    (hBelow :
      ∀ x, x ∈ below ↔
        tree.CarriesBelow c s.registry.config.eventAttribute x)
    (hAfter :
      ∀ x, x ∈ after ↔
        tree.CarriesBelow 0
          s.registry.config.eventAttribute x) :
    s.registry.Parts
      (enumerated s.providers.length providers) s.page.tree tree
      before below after := by
  have hFound :=
    hGrafted.carrying_iff hLinked hLive hAttached hBare
  simp only [← hBefore, ← hAfter, ← hBelow] at hFound
  have hSame :
      ∀ m ∈ enumerated s.providers.length providers,
        ∀ x ∈ before,
          s.registry.offerFor tree m x =
              s.registry.offerFor s.page.tree m x ∧
            (s.registry.BuildsFor tree m x ↔
              s.registry.BuildsFor s.page.tree m x) := by
    intro m hMember x hThere
    rcases mem_of_enumerated hMember with
      ⟨p, hGiven, hProvider⟩
    have hOld :=
      Tree.contains_of_carries ((hBefore x).mp hThere).2.2
    apply Registry.offerFor_of_attrs?
    · rw [hProvider]
      exact hReads p hGiven
    · rw [Tree.attrs?, hGrafted.elementAt?_eq hOld, Tree.attrs?]
  exact
    { onceBefore := hOnce.1
      onceBelow := hOnce.2.1
      onceAfter := hOnce.2.2
      all := fun x => (hFound x).1
      apart := fun x hOld hNew => (hFound x).2 ⟨hOld, hNew⟩
      offers := fun m hMember x hOld =>
        (hSame m hMember x hOld).1
      builds := fun m hMember x hOld =>
        (hSame m hMember x hOld).2 }

/-
  Providers are registered in a document, where no element
  below a node carries the attribute that declares events.
  Adding markup below that node and scanning there comes to an
  end if registering the providers after that does, and then
  makes no difference.
-/
theorem likewise_of_late
    {earlier : List Session}
    (hHistory : History Permits (s :: earlier))
    (hEmpty : s.registry.entries = [])
    (hLive : s.page.tree.contains c = true)
    (hAttached : s.page.tree.Within c 0)
    (hName : Css.IsIdentifier s.registry.config.eventAttribute)
    (hLower :
      Selector.lower s.registry.config.eventAttribute =
        s.registry.config.eventAttribute)
    (hBare :
      ∀ x,
        ¬ s.page.tree.CarriesBelow c
          s.registry.config.eventAttribute x)
    (hDistinct : (providers.map (·.1.shortName)).Nodup)
    (hReads : ∀ p ∈ providers, p.1.ReadsAttributes)
    (html : String) :
    ((∃ s₁, s.acts (early c html providers) = .ok s₁) ↔
      ∃ s₂, s.acts (late c html providers) = .ok s₂) ∧
      ∀ s₁ s₂,
        s.acts (early c html providers) = .ok s₁ →
          s.acts (late c html providers) = .ok s₂ →
            Likewise s₁ s₂ := by
  have hStart := Arranged.atStart hHistory hEmpty
  have hLinked := hHistory.linked_last
  have hRoot : s.page.tree.contains 0 = true :=
    hLinked.contains_of_within hLive hAttached
  rcases Tree.exists_finds_bracketed hLinked hRoot hName hLower
    with ⟨before, hBefore, hOnceBefore, hInBefore⟩
  cases hAppend : s.page.tree.appendPage c html with
  | error why =>
      have hEarly :=
        meets_early_error hStart hAppend hDistinct hBefore
      have hLate := meets_late_error hStart hAppend providers
      constructor
      · rw [hEarly.ends, hLate.ends]
        simp
      · intro s₁ s₂ _ hSecond
        exact (hLate.ends.mp ⟨s₂, hSecond⟩).1.elim
  | ok added =>
      rcases added with ⟨tree, ids⟩
      have hGrafted :=
        Tree.grafted_of_appendPage hLinked hLive hAppend
      rcases Tree.exists_finds_bracketed hGrafted.linked
          (hGrafted.kept 0 hRoot) hName hLower with
        ⟨after, hAfter, hOnceAfter, hInAfter⟩
      rcases Tree.exists_finds_bracketed hGrafted.linked
          (hGrafted.kept c hLive) hName hLower with
        ⟨below, hBelow, hOnceBelow, hInBelow⟩
      have hParts :=
        parts_of_grafted hLinked hLive hAttached hBare hReads
          hGrafted ⟨hOnceBefore, hOnceBelow, hOnceAfter⟩
          hInBefore hInBelow hInAfter
      have hEarly :=
        meets_early hStart hAppend hDistinct hBefore hBelow
      have hLate := meets_late hStart hAppend hDistinct hAfter
      constructor
      · rw [hEarly.ends, hLate.ends, true_and, true_and]
        exact hParts.builds_iff
      · intro s₁ s₂ hFirst hSecond
        exact
          (hEarly.gives s₁ hFirst).likewise
            (hLate.gives s₂ hSecond) hDistinct
            hParts.filter_eq

------------------------------------------------------------
-- Late markup for two providers
------------------------------------------------------------

/- An element with a link up and the attributes of events. -/
private def lateElement
    (id : NodeId)
    (parent : Option NodeId)
    (children : List NodeId)
    (attrs : List (String × String)) : Option Node :=
  some
    { id, parent, children
      data :=
        .element
          ⟨.html "main", attrs.map fun a => .plain a.1 a.2⟩ }

/- What declares an event for two providers. -/
private def lateDeclaration : List (String × String) :=
  [("data-metric-event", "e"), ("data-p-method", "test"),
    ("data-q-method", "test")]

/- An element that declares an event, as text. -/
private def lateText : String :=
  "<main data-metric-event=e data-p-method=test " ++
    "data-q-method=test>"

/- The document node with its children. -/
private def lateRoot
    (children : List NodeId) : Option Node :=
  some { id := 0, children, data := .document }

/- A tree before the markup is added below node 2. -/
private def treeBeforeLate : Tree :=
  ⟨#[lateRoot [1, 2],
    lateElement 1 (some 0) [] lateDeclaration,
    lateElement 2 (some 0) [] []], []⟩

/- The tree after that. -/
private def treeAfterLate : Tree :=
  ⟨#[lateRoot [1, 2],
    lateElement 1 (some 0) [] lateDeclaration,
    lateElement 2 (some 0) [3] [],
    lateElement 3 (some 2) [] lateDeclaration], []⟩

/- A listener of an element for a provider. -/
private def lateListener
    (id node number : Nat)
    (name : String) : Listener Handler :=
  ⟨id, node, "e", none,
    .provided ⟨0, number, name⟩ .always
      (Provider.countingHandler ⟨0, number, name⟩)⟩

/- A provider with the elements and numbers of its listeners. -/
private def lateEntry
    (number : Nat)
    (name : String)
    (places : List (NodeId × Nat)) : Entry :=
  { provider := .counting name, number
    bindings := places.map fun x => ⟨x.1, "e", none, x.2⟩ }

/- A session on a tree with listeners and providers. -/
private def lateSession
    (tree : Tree)
    (listeners : List (Listener Handler))
    (entries : List Entry) : Session :=
  { page :=
      { tree, listeners, nextListener := listeners.length }
    registry := { number := 0, config := {}, entries }
    initial := {}
    providers := entries.map fun _ => ⟨true, 0⟩ }

private theorem history_beforeLate :
    ∃ earlier,
      History Permits
        (lateSession treeBeforeLate [] [] :: earlier) := by
  let bare (nodes : List (Option Node)) : Session :=
    lateSession ⟨nodes.toArray, []⟩ [] []
  have h₀ : History Permits [bare [lateRoot []]] := .start {}
  have h₁ :=
    h₀.step
      (.operation
        (.page (.createElement "main" lateDeclaration)))
      (bare
        [lateRoot [], lateElement 1 none [] lateDeclaration])
      trivial rfl
  have h₂ :=
    h₁.step (.operation (.page (.createElement "main" [])))
      (bare
        [lateRoot [], lateElement 1 none [] lateDeclaration,
          lateElement 2 none [] []])
      trivial rfl
  have h₃ :=
    h₂.step (.build (.append 0 (.node 1)))
      (bare
        [lateRoot [1],
          lateElement 1 (some 0) [] lateDeclaration,
          lateElement 2 none [] []])
      (permits_build h₂.linked_last (by decide)) rfl
  have h₄ :=
    h₃.step (.build (.append 0 (.node 2)))
      (lateSession treeBeforeLate [] [])
      (permits_build h₃.linked_last (by decide)) rfl
  exact ⟨_, h₄⟩

/-
  The tag is read on its own, by `rfl`: `cbv` would have the
  table of references compared at each letter of a value.
-/
private theorem pageCalls_lateText :
    Html.pageCalls lateText =
      .ok
        [.createElement (.html "html") [],
          .append 0 (.node 1),
          .createElement (.html "head") [],
          .append 1 (.node 2),
          .createElement (.html "body") [],
          .append 1 (.node 3),
          .createElement (.html "main")
            (lateDeclaration.map fun a => .plain a.1 a.2),
          .append 3 (.node 4)] := by
  have hText :
      (Html.Source.ofText lateText).text = lateText.toList :=
    rfl
  have hToken :
      Html.readToken { sections := false } lateText.toList =
        ([.startTag ⟨"main", lateDeclaration, false⟩], []) :=
    rfl
  have hForeign :
      (({} : Html.Builder).currentIs
        fun n => n.space != .html) = false :=
    rfl
  rw [Html.pageCalls]
  simp only [hText]
  rw [Html.readPage]
  · simp only [bind, StateT.bind, get, getThe,
      MonadStateOf.get, StateT.get, StateT.run, Except.bind,
      pure, Except.pure, hForeign, hToken]
    cbv
  · decide

private theorem appendPage_lateText :
    treeBeforeLate.appendPage 2 lateText =
      .ok (treeAfterLate, [3]) := by
  rw [Tree.appendPage, Tree.ofPage, Tree.addPage,
    pageCalls_lateText]
  cbv

/- The providers are registered first. -/
private theorem acts_early_lateText :
    (lateSession treeBeforeLate [] []).acts
        (early 2 lateText
          [(.counting "p", true), (.counting "q", true)]) =
      .ok
        (lateSession treeAfterLate
          [lateListener 0 1 0 "p", lateListener 1 1 1 "q",
            lateListener 2 3 0 "p", lateListener 3 3 1 "q"]
          [lateEntry 0 "p" [(1, 0), (3, 2)],
            lateEntry 1 "q" [(1, 1), (3, 3)]]) := by
  let first :=
    lateSession treeBeforeLate [lateListener 0 1 0 "p"]
      [lateEntry 0 "p" [(1, 0)]]
  let both (tree : Tree) :=
    lateSession tree
      [lateListener 0 1 0 "p", lateListener 1 1 1 "q"]
      [lateEntry 0 "p" [(1, 0)], lateEntry 1 "q" [(1, 1)]]
  have hFirst :
      (lateSession treeBeforeLate [] []).act
          (.operation
            (.registry (.addProvider (.counting "p") true))) =
        .ok first := by
    cbv
  have hSecond :
      first.act
          (.operation
            (.registry (.addProvider (.counting "q") true))) =
        .ok (both treeBeforeLate) := by
    cbv
  have hAdded :
      (both treeBeforeLate).act (addition 2 lateText) =
        .ok (both treeAfterLate) := by
    rw [act_addition]
    exact congrArg (Except.map _) appendPage_lateText
  simp only [early, additions, List.map_cons, List.map_nil,
    List.cons_append, List.nil_append, acts_cons, hFirst,
    hSecond, hAdded, ok_bind]
  cbv

theorem readsAttributes_counting
    (shortName : String) :
    (Provider.counting shortName).ReadsAttributes := by
  intro method hMember cx debug t t' x _
  rcases List.mem_singleton.mp hMember with rfl
  rfl

/-
  An element that declares an event for two providers is added
  below a node.  Whenever it is added, both listen there in
  the same order, and an event makes both of them send.
-/
theorem likewise_of_two_providers :
    ∃ s earlier s₁ s₂,
      History Permits (s :: earlier) ∧
        s.acts
            (early 2 lateText
              [(.counting "p", true), (.counting "q", true)]) =
          .ok s₁ ∧
        s.acts
            (late 2 lateText
              [(.counting "p", true), (.counting "q", true)]) =
          .ok s₂ ∧
        Likewise s₁ s₂ ∧
        (s₂.page.listenersOf 3).map Listener.unnumbered =
          [lateListener 0 3 0 "p", lateListener 0 3 1 "q"] ∧
        s₂.outputs [eventAt (3, "e")] =
          .ok
            [(.count 2,
              [.log .trace none
                  "Dispatching e at node 3 to 2 listeners",
                .pushed (.list [.text "test", .text "p"]),
                .pushed (.list [.text "test", .text "q"])])] := by
  rcases history_beforeLate with ⟨earlier, hHistory⟩
  have hLinked := hHistory.linked_last
  have hAttached : treeBeforeLate.Within 2 0 :=
    Relation.ReflTransGen.single
      (show treeBeforeLate.parent? 2 = some 0 from rfl)
  have hName : Css.IsIdentifier "data-metric-event" :=
    ⟨rfl, List.all_eq_true.mp rfl⟩
  have hBare :
      ∀ x,
        ¬ treeBeforeLate.CarriesBelow 2
          "data-metric-event" x := by
    rintro x ⟨hOther, hWithin, _⟩
    exact hOther (hLinked.eq_of_within_childless rfl hWithin)
  have hReads :
      ∀ p ∈ [(Provider.counting "p", true),
          (Provider.counting "q", true)],
        p.1.ReadsAttributes := by
    intro p hMember
    rcases List.mem_pair.mp hMember with rfl | rfl
    · exact readsAttributes_counting "p"
    · exact readsAttributes_counting "q"
  have hBoth :=
    likewise_of_late hHistory rfl rfl hAttached hName rfl
      hBare (by decide) hReads lateText
  have hEarly := acts_early_lateText
  rcases hBoth.1.mp ⟨_, hEarly⟩ with ⟨s₂, hLate⟩
  have hLikewise := hBoth.2 _ s₂ hEarly hLate
  refine
    ⟨_, earlier, _, s₂, hHistory, hEarly, hLate, hLikewise,
      (hLikewise.listeners 3).trans rfl,
      (hLikewise.outputs [(3, "e")]).trans ?_⟩
  cbv

end Session

end MarkupMetrics
