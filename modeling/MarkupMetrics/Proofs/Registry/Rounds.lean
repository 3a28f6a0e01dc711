import MarkupMetrics.Proofs.Document.Comparing
import MarkupMetrics.Proofs.Registry.Plan
import MarkupMetrics.Proofs.Selector.Attribute
import Mathlib.Data.List.Nodup

/-
  This file compares two ways to go through elements and
  providers: a round over all elements for one provider after
  the other, and a round over all providers for one element
  after the other.

  At each single element the offers are the same, in the order
  of the providers.  And an offer depends on no more of a tree
  than the attributes of its element, if the builder does.

  Key definitions include:
    * `Registry.offerFor`
    * `Registry.BuildsFor`
    * `Registry.Parts`
    * `Provider.ReadsAttributes`

  Key theorems include:
    * `Registry.plan_some`
    * `Registry.plan_none`
    * `Registry.filter_providers`
    * `Registry.filter_elements`
    * `Registry.offerFor_of_attrs?`
    * `Registry.Parts.filter_eq`
    * `Registry.scan_found`
    * `Document.listenersOf_fulfilled`
-/

namespace MarkupMetrics

open Dom

------------------------------------------------------------
-- One provider and one element
------------------------------------------------------------

namespace Registry

/- What one provider has built for one element, if anything. -/
def offerFor
    (r : Registry)
    (t : Tree)
    (m : Provider × Nat)
    (element : NodeId) : Option Offer :=
  (r.declared? t element).bind fun d =>
    d.offer? r.number r.config.debug t m

/- Whether its building comes to an end. -/
def BuildsFor
    (r : Registry)
    (t : Tree)
    (m : Provider × Nat)
    (element : NodeId) : Prop :=
  ∀ d ∈ r.declared? t element,
    ∃ built,
      (m.1.buildHandler ⟨r.number, m.2, m.1.shortName⟩
        r.config.debug t d.element d.condition).Gives built

theorem offers_eq
    (r : Registry)
    (only : Option String)
    (t : Tree)
    (element : NodeId) :
    r.offers only t element =
      (r.chosen only).filterMap (r.offerFor t · element) := by
  unfold offers offerFor
  cases r.declared? t element with
  | none => simp
  | some d => simp

theorem builds_iff
    {r : Registry}
    {only : Option String}
    {t : Tree}
    {element : NodeId} :
    r.Builds only t element ↔
      ∀ m ∈ r.chosen only, r.BuildsFor t m element :=
  ⟨fun hAll m hMember d hDeclared =>
      hAll d hDeclared m hMember,
    fun hEach d hDeclared m hMember =>
      hEach m hMember d hDeclared⟩

theorem element_of_offerFor
    {r : Registry}
    {t : Tree}
    {m : Provider × Nat}
    {element : NodeId}
    {o : Offer}
    (hOffer : r.offerFor t m element = some o) :
    o.declaration.element = element := by
  rcases Option.bind_eq_some_iff.mp hOffer with
    ⟨d, hDeclared, hBuilt⟩
  rw [(context_of_offer? hBuilt).2]
  rw [eq_comm, ← declaration?_gives_iff] at hDeclared
  exact (declaration?_gives hDeclared).1

/- Only the settings of a registry matter for it. -/
theorem offerFor_congr
    {r r' : Registry}
    (hNumber : r'.number = r.number)
    (hConfig : r'.config = r.config) :
    r'.offerFor = r.offerFor ∧ r'.BuildsFor = r.BuildsFor := by
  constructor
  · funext t m element
    simp only [offerFor, declared?, hNumber, hConfig]
  · funext t m element
    simp only [BuildsFor, declared?, hNumber, hConfig]

------------------------------------------------------------
-- Rounds
------------------------------------------------------------

/- A scan for one provider is a round over the elements. -/
theorem plan_some
    {r : Registry}
    {m : Provider × Nat}
    {name : String}
    (hChosen : r.chosen (some name) = [m])
    (t : Tree)
    (elements : List NodeId) :
    r.plan (some name) t elements =
      elements.filterMap (r.offerFor t m) := by
  rw [plan, List.filterMap_eq_flatMap_toList]
  apply List.flatMap_congr
  intro x _
  rw [offers_eq, hChosen]
  cases hOffer : r.offerFor t m x <;> simp [hOffer]

/- A scan for all makes a round over them at each element. -/
theorem plan_none
    (r : Registry)
    (t : Tree)
    (elements : List NodeId) :
    r.plan none t elements =
      elements.flatMap fun x =>
        r.members.filterMap (r.offerFor t · x) := by
  have hChosen : r.chosen none = r.members :=
    List.filter_eq_self.mpr fun _ _ => rfl
  rw [plan]
  apply List.flatMap_congr
  intro x _
  rw [offers_eq, hChosen]

/- Without repetition only one element counts, if any. -/
theorem flatMap_of_nodup
    {α : Type}
    {elements : List NodeId}
    (hNodup : elements.Nodup)
    {node : NodeId}
    {f : NodeId → List α}
    (hOthers : ∀ x, x ≠ node → f x = []) :
    elements.flatMap f =
      if node ∈ elements then f node else [] := by
  induction elements with
  | nil => rfl
  | cons x rest ih =>
      rw [List.nodup_cons] at hNodup
      rw [List.flatMap_cons, ih hNodup.2]
      by_cases hSame : x = node
      · subst hSame
        simp [hNodup.1]
      · have hThere : node ∈ x :: rest ↔ node ∈ rest := by
          simp [Ne.symm hSame]
        simp only [hOthers x hSame, List.nil_append, hThere]

/- Offers for one element are those of it, or of another. -/
theorem filter_offers
    {r : Registry}
    {t : Tree}
    {x node : NodeId}
    {offers : List Offer}
    (hOffers :
      ∀ o ∈ offers, ∃ m, r.offerFor t m x = some o) :
    offers.filter (·.declaration.element = node) =
      if x = node then offers else [] := by
  have hElement :
      ∀ o ∈ offers, o.declaration.element = x := by
    intro o hMember
    rcases hOffers o hMember with ⟨m, hOffer⟩
    exact element_of_offerFor hOffer
  split
  · rename_i hSame
    apply List.filter_eq_self.mpr
    intro o hMember
    simp [hElement o hMember, hSame]
  · rename_i hOther
    apply List.filter_eq_nil_iff.mpr
    intro o hMember
    simp [hElement o hMember, hOther]

/-
  The offers at one element, in a round over the elements for
  each provider.
-/
theorem filter_providers
    (r : Registry)
    (t : Tree)
    (members : List (Provider × Nat))
    {elements : List NodeId}
    (hNodup : elements.Nodup)
    (node : NodeId) :
    (members.flatMap fun m =>
        elements.filterMap (r.offerFor t m)).filter
          (·.declaration.element = node) =
      if node ∈ elements then
        members.filterMap (r.offerFor t · node)
      else [] := by
  have hOne :
      ∀ m x,
        (r.offerFor t m x).toList.filter
            (·.declaration.element = node) =
          if x = node then (r.offerFor t m x).toList
          else [] := by
    intro m x
    apply filter_offers
    intro o hMember
    exact ⟨m, Option.mem_toList.mp hMember⟩
  have hEach :
      ∀ m,
        (elements.filterMap (r.offerFor t m)).filter
            (·.declaration.element = node) =
          if node ∈ elements then
            (r.offerFor t m node).toList
          else [] := by
    intro m
    rw [List.filterMap_eq_flatMap_toList, List.filter_flatMap,
      flatMap_of_nodup hNodup]
    · rw [hOne, if_pos rfl]
    · intro x hOther
      rw [hOne, if_neg hOther]
  rw [List.filter_flatMap, List.filterMap_eq_flatMap_toList]
  simp only [hEach]
  split
  · rfl
  · exact List.flatMap_eq_nil_iff.mpr fun _ _ => rfl

/- The same in a round over the providers for each element. -/
theorem filter_elements
    (r : Registry)
    (t : Tree)
    (members : List (Provider × Nat))
    {elements : List NodeId}
    (hNodup : elements.Nodup)
    (node : NodeId) :
    (elements.flatMap fun x =>
        members.filterMap (r.offerFor t · x)).filter
          (·.declaration.element = node) =
      if node ∈ elements then
        members.filterMap (r.offerFor t · node)
      else [] := by
  have hOne :
      ∀ x,
        (members.filterMap (r.offerFor t · x)).filter
            (·.declaration.element = node) =
          if x = node then members.filterMap (r.offerFor t · x)
          else [] := by
    intro x
    apply filter_offers
    intro o hMember
    rcases List.mem_filterMap.mp hMember with ⟨m, _, hOffer⟩
    exact ⟨m, hOffer⟩
  rw [List.filter_flatMap, flatMap_of_nodup hNodup]
  · rw [hOne, if_pos rfl]
  · intro x hOther
    rw [hOne, if_neg hOther]

end Registry

------------------------------------------------------------
-- Attributes
------------------------------------------------------------

/- The attributes of a node, if it is an element. -/
def Dom.Tree.attrs?
    (t : Tree)
    (x : NodeId) : Option (List Attribute) :=
  (t.elementAt? x).map (·.attrs)

/-
  The builders of a provider read no more of a tree than the
  attributes of the element that they are given.
-/
def Provider.ReadsAttributes
    (p : Provider) : Prop :=
  ∀ method ∈ p.methods.entries, ∀ cx debug t t' x,
    t'.attrs? x = t.attrs? x →
      method.2 cx debug t' x = method.2 cx debug t x

theorem Dom.Tree.attr?_of_attrs?
    {t t' : Tree}
    {x : NodeId}
    (hSame : t'.attrs? x = t.attrs? x)
    (name : String) :
    t'.attr? x name = t.attr? x name := by
  have hRead :
      ∀ u : Tree,
        u.attr? x name =
          (u.attrs? x).bind fun attrs =>
            (attrs.find? fun a => a.name.local_ = name).map
              (·.value) := by
    intro u
    unfold attr? attrs? elementAt?
    cases (u.get? x).bind Node.element? with
    | none => rfl
    | some e => rfl
  rw [hRead, hRead, hSame]

theorem Provider.ReadsAttributes.buildHandler
    {p : Provider}
    (hReads : p.ReadsAttributes)
    {t t' : Tree}
    {x : NodeId}
    (hSame : t'.attrs? x = t.attrs? x)
    (cx : Context)
    (debug : Bool)
    (condition : Option String) :
    p.buildHandler cx debug t' x condition =
      p.buildHandler cx debug t x condition := by
  have hMethod :
      p.declaredMethod? t' x = p.declaredMethod? t x := by
    rw [declaredMethod?, Tree.attr?_of_attrs? hSame,
      declaredMethod?]
  rw [Provider.buildHandler, hMethod, Provider.buildHandler]
  cases p.declaredMethod? t x with
  | none => rfl
  | some method =>
      cases hBuilder : p.methods.get? method with
      | none => simp only [hBuilder]
      | some builder =>
          have hThere :
              ∃ name, (name, builder) ∈ p.methods.entries := by
            rcases Option.map_eq_some_iff.mp hBuilder with
              ⟨e, hFound, rfl⟩
            exact ⟨e.1, List.mem_of_find?_eq_some hFound⟩
          rcases hThere with ⟨name, hMember⟩
          have hBuilt :
              builder cx debug t' x = builder cx debug t x :=
            hReads (name, builder) hMember cx debug t t' x hSame
          simp only [hBuilder, hBuilt]

namespace Registry

/- The offer for an element then depends on no more, either. -/
theorem offerFor_of_attrs?
    {r : Registry}
    {m : Provider × Nat}
    (hReads : m.1.ReadsAttributes)
    {t t' : Tree}
    {x : NodeId}
    (hSame : t'.attrs? x = t.attrs? x) :
    r.offerFor t' m x = r.offerFor t m x ∧
      (r.BuildsFor t' m x ↔ r.BuildsFor t m x) := by
  have hDeclared : r.declared? t' x = r.declared? t x := by
    simp only [declared?, Tree.attr?_of_attrs? hSame]
  have hElement :
      ∀ d ∈ r.declared? t x, d.element = x := by
    intro d hMember
    rw [Option.mem_def, ← eq_comm, ← declaration?_gives_iff]
      at hMember
    exact (declaration?_gives hMember).1
  constructor
  · unfold offerFor
    rw [hDeclared]
    cases hFound : r.declared? t x with
    | none => rfl
    | some d =>
        have hHere := hElement d hFound
        simp only [Option.bind_some, Declaration.offer?, hHere,
          hReads.buildHandler hSame]
  · unfold BuildsFor
    rw [hDeclared]
    apply forall_congr'
    intro d
    apply imp_congr_right
    intro hFound
    rw [hElement d hFound, hReads.buildHandler hSame]

end Registry

------------------------------------------------------------
-- Elements that come later
------------------------------------------------------------

/-
  Elements are found in one tree, and others in a later tree;
  all of them are found at once in the later tree.
-/
structure Registry.Parts
    (r : Registry)
    (members : List (Provider × Nat))
    (t t' : Tree)
    (before below after : List NodeId) : Prop where
  onceBefore : before.Nodup
  onceBelow : below.Nodup
  onceAfter : after.Nodup
  all : ∀ x, x ∈ after ↔ x ∈ before ∨ x ∈ below
  apart : ∀ x ∈ before, x ∉ below
  offers :
    ∀ m ∈ members, ∀ x ∈ before,
      r.offerFor t' m x = r.offerFor t m x
  builds :
    ∀ m ∈ members, ∀ x ∈ before,
      r.BuildsFor t' m x ↔ r.BuildsFor t m x

namespace Registry.Parts

variable {r : Registry}
variable {members : List (Provider × Nat)}
variable {t t' : Tree}
variable {before below after : List NodeId}

/- Building ends at all of them if it does at each part. -/
theorem builds_iff
    (hParts : r.Parts members t t' before below after) :
    ((∀ m ∈ members, ∀ x ∈ before, r.BuildsFor t m x) ∧
        ∀ x ∈ below, ∀ m ∈ members, r.BuildsFor t' m x) ↔
      ∀ m ∈ members, ∀ x ∈ after, r.BuildsFor t' m x := by
  constructor
  · rintro ⟨hFirst, hRest⟩ m hMember x hThere
    rcases (hParts.all x).mp hThere with hOld | hNew
    · exact
        (hParts.builds m hMember x hOld).mpr
          (hFirst m hMember x hOld)
    · exact hRest x hNew m hMember
  · intro hAll
    constructor
    · intro m hMember x hOld
      exact
        (hParts.builds m hMember x hOld).mp
          (hAll m hMember x ((hParts.all x).mpr (.inl hOld)))
    · intro x hNew m hMember
      exact hAll m hMember x ((hParts.all x).mpr (.inr hNew))

/-
  A round over the first elements for each provider, followed
  by a round over the providers for each of the others, makes
  the same offers at each node as a round over all elements
  for each provider.
-/
theorem filter_eq
    (hParts : r.Parts members t t' before below after)
    (node : NodeId) :
    (members.flatMap fun m =>
        after.filterMap (r.offerFor t' m)).filter
          (·.declaration.element = node) =
      ((members.flatMap fun m =>
          before.filterMap (r.offerFor t m)) ++
        below.flatMap fun x =>
          members.filterMap (r.offerFor t' · x)).filter
            (·.declaration.element = node) := by
  rw [List.filter_append,
    filter_providers _ _ _ hParts.onceBefore,
    filter_elements _ _ _ hParts.onceBelow,
    filter_providers _ _ _ hParts.onceAfter]
  by_cases hOld : node ∈ before
  · have hThere := (hParts.all node).mpr (.inl hOld)
    rw [if_pos hOld, if_neg (hParts.apart node hOld),
      if_pos hThere, List.append_nil]
    apply List.filterMap_congr
    intro m hMember
    exact hParts.offers m hMember node hOld
  · have hThere : node ∈ after ↔ node ∈ below := by
      rw [hParts.all node, or_iff_right hOld]
    rw [if_neg hOld, List.nil_append]
    simp only [hThere]

end Registry.Parts

------------------------------------------------------------
-- Scans
------------------------------------------------------------

/-
  If it is known what the search of a scan finds, the scan
  comes to an end if the building does, and attaches the plan.
-/
theorem Registry.scan_found
    {r : Registry}
    {page : Page}
    {root : Option NodeId}
    {found : List NodeId}
    (hFound :
      page.tree.Finds (root.getD 0) r.eventSelector found)
    (only : Option String) :
    ((∃ w, (r.scan page root only).Gives w) ↔
      ∀ x ∈ found, r.Builds only page.tree x) ∧
      ∀ w, (r.scan page root only).Gives w →
        w.1 = page.fulfilled (r.plan only page.tree found) := by
  have hScan :
      ∀ page',
        (∃ r' n,
          (r.scan page root only).Gives (page', r', n)) ↔
          (∀ x ∈ found, r.Builds only page.tree x) ∧
            page' =
              page.fulfilled (r.plan only page.tree found) := by
    intro page'
    rw [exists_scan_iff]
    simp only [hFound _, exists_eq_left]
  constructor
  · constructor
    · rintro ⟨⟨page', r', n⟩, hRun⟩
      exact ((hScan page').mp ⟨r', n, hRun⟩).1
    · intro hBuilds
      rcases (hScan _).mpr ⟨hBuilds, rfl⟩ with ⟨r', n, hRun⟩
      exact ⟨_, hRun⟩
  · rintro ⟨page', r', n⟩ hRun
    exact ((hScan page').mp ⟨r', n, hRun⟩).2

------------------------------------------------------------
-- Listeners
------------------------------------------------------------

/-
  After a plan the listeners of a node are the old ones, and
  those for the offers at the node.
-/
theorem Document.listenersOf_fulfilled
    (page : Page)
    (plan : List Offer)
    (node : NodeId) :
    ((page.fulfilled plan).listenersOf node).map
        Listener.unnumbered =
      (page.listenersOf node).map Listener.unnumbered ++
        (plan.filter (·.declaration.element = node)).map
          (·.listener 0) := by
  have hNumbers :
      ∀ number,
        ((plan.zipIdx number).map fun x =>
            x.1.listener x.2).map Listener.unnumbered =
          plan.map (·.listener 0) := by
    intro number
    rw [List.map_map]
    have hFirst :
        (Listener.unnumbered ∘ fun x : Offer × Nat =>
            x.1.listener x.2) =
          (fun o : Offer => o.listener 0) ∘ Prod.fst := rfl
    rw [hFirst, ← List.map_map, List.zipIdx_map_fst]
  have hMove :
      ∀ ls : List (Listener Handler),
        (ls.filter (·.node == node)).map Listener.unnumbered =
          (ls.map Listener.unnumbered).filter
            (·.node == node) := by
    intro ls
    rw [List.filter_map]
    rfl
  have hPlan :
      (plan.map (·.listener 0)).filter (·.node == node) =
        (plan.filter (·.declaration.element = node)).map
          (·.listener 0) := by
    rw [List.filter_map]
    rfl
  rw [listenersOf, hMove, fulfilled, List.map_append, hNumbers,
    List.filter_append, listenersOf, hMove, hPlan]

end MarkupMetrics
