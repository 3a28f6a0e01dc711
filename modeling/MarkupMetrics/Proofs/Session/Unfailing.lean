import MarkupMetrics.Proofs.Document.Dispatch
import MarkupMetrics.Proofs.Provider.Ending
import MarkupMetrics.Proofs.Session.Arrivals
import MarkupMetrics.Proofs.Session.Custody
import MarkupMetrics.Proofs.Session.Provenance
import Mathlib

/-
  This file proves that nothing but an edit of the tree can
  fail in a session of a run, whatever ids and texts it is
  given, as long as the providers do not fail themselves.

  The ids may be those of nodes that were removed, or that
  never were, and the records of a registry may have lost
  their nodes.

  Key definitions include:
    * `Dom.Tree.Reached`
    * `Action.Trusted`
    * `Session.Trusts`
    * `Session.Unfailing`

  Key theorems include:
    * `Registry.exists_scan`
    * `Session.Sound.exists_perform`
    * `Session.unfailing_of_history`
-/

namespace MarkupMetrics

open Dom

------------------------------------------------------------
-- Trust
------------------------------------------------------------

/- A tree that some session of some run has. -/
def Dom.Tree.Reached
    (t : Tree) : Prop :=
  ∃ states,
    Session.History Session.Permits states ∧
      ∃ s ∈ states, s.page.tree = t

theorem Dom.Tree.Reached.linked
    {t : Tree}
    (hReached : t.Reached) :
    t.Linked := by
  rcases hReached with ⟨states, hHistory, s, hMember, rfl⟩
  exact hHistory.linked s hMember

/- A provider that an action adds does not fail in runs. -/
def Action.Trusted : Action → Prop
  | .operation (.registry (.addProvider provider _)) =>
      provider.EndsOn Tree.Reached
  | _ => True

namespace Session

/- An action is permitted, and what it adds is trusted. -/
def Trusts
    (s : Session)
    (action : Action) : Prop :=
  s.Permits action ∧ action.Trusted

theorem History.permitted
    {states : List Session}
    (hHistory : History Trusts states) :
    History Permits states :=
  hHistory.weaken fun _ _ hTrusts => hTrusts.1

/- The providers in use throughout a run are trusted. -/
theorem History.members_trusted
    {states : List Session}
    (hHistory : History Trusts states) :
    ∀ s ∈ states, ∀ m ∈ s.registry.members,
      m.1.EndsOn Tree.Reached := by
  refine hHistory.holds ?_ ?_
  · intro config complaints m hMember
    cases hMember
  · intro s action s' hOld hTrusts hBecomes m hMember
    rcases hBecomes.members with
      hFewer | ⟨provider, _, kept, rfl, hKept, _, hMembers, _⟩
    · exact hOld m (hFewer.subset hMember)
    · rw [hMembers, List.mem_append, List.mem_singleton]
        at hMember
      rcases hMember with hBefore | rfl
      · exact hOld m (hKept.subset hBefore)
      · exact hTrusts.2

/- So are the handlers of all listeners. -/
theorem History.listeners_trusted
    {s : Session}
    {earlier : List Session}
    (hHistory : History Trusts (s :: earlier))
    {l : Listener Handler}
    (hMember : l ∈ s.page.listeners) :
    l.handler.EndsOn Tree.Reached := by
  cases hHandler : l.handler with
  | recorder label => trivial
  | provided cx guard raw =>
      rcases hHistory.bound hMember hHandler with
        ⟨before, after, older, hSuffix, hBound⟩
      have hThere : after ∈ s :: earlier :=
        hSuffix.subset List.mem_cons_self
      rcases hBound.attached.recorded with
        ⟨e, hEntry, _, _, hBuilds⟩
      have hEnds :=
        hHistory.members_trusted after hThere
          (e.provider, e.number) (List.mem_map_of_mem hEntry)
      exact
        hEnds.raw ⟨_, hHistory.permitted, after, hThere, rfl⟩
          hBuilds

end Session

------------------------------------------------------------
-- Registries
------------------------------------------------------------

namespace Registry

variable {trees : Tree → Prop}

/- A scan comes to an end if no provider in use fails. -/
theorem exists_scan
    {r : Registry}
    {page : Page}
    (hTree : trees page.tree)
    (hLinked : page.tree.Linked)
    (hEnds : ∀ m ∈ r.members, m.1.EndsOn trees)
    (root : Option NodeId)
    (only : Option String) :
    ∃ w, (r.scan page root only).Gives w := by
  rcases
    Tree.exists_find hLinked (root.getD 0) r.eventSelector
    with ⟨elements, hFind⟩
  have hBuilds :
      ∀ x ∈ elements, r.Builds only page.tree x := by
    intro x _ d _ m hChosen
    have hMember := List.mem_of_mem_filter hChosen
    exact (hEnds m hMember).buildHandler hTree _ _ _ _
  rcases exists_scan_iff.mpr
      ⟨elements, hFind.gives, hBuilds, rfl⟩ with
    ⟨r', n, hScan⟩
  exact ⟨_, hScan⟩

/- So does adding a provider that does not fail. -/
theorem exists_add
    {r : Registry}
    {page : Page}
    (hTree : trees page.tree)
    (hLinked : page.tree.Linked)
    (hEnds : ∀ m ∈ r.members, m.1.EndsOn trees)
    {provider : Provider}
    (hProvider : provider.EndsOn trees)
    (number : Nat) :
    ∃ w, (r.add page provider number).Gives w := by
  have hAll :
      ∀ m ∈
          ((r.evicted page provider.shortName).2.enrolled
            provider number).members,
        m.1.EndsOn trees := by
    intro m hMember
    have hSplit :
        ((r.evicted page provider.shortName).2.enrolled
            provider number).members =
          (r.drop provider.shortName).members ++
            [(provider, number)] := by
      simp [members, enrolled, evicted]
    rw [hSplit, members_drop, List.mem_append,
      List.mem_singleton] at hMember
    rcases hMember with hOld | rfl
    · exact hEnds m (List.mem_of_mem_filter hOld)
    · exact hProvider
  have hSameTree :
      trees (r.evicted page provider.shortName).1.tree :=
    hTree
  rcases
    exists_scan hSameTree hLinked hAll none
      (some provider.shortName)
    with ⟨w, hScan⟩
  exact ⟨w, add_gives_iff.mpr hScan⟩

/- Taking a provider out always comes to an end. -/
theorem exists_remove
    (r : Registry)
    (page : Page)
    (name : String) :
    ∃ w, (r.remove page name).Gives w := by
  rcases r.exists_remove_eq page name with
    ⟨level, message, hRemove⟩
  exact ⟨_, _, hRemove⟩

/- So does pushing, whether the provider is in use or not. -/
theorem gives_push
    (r : Registry)
    (name : String)
    (payload : Payload) :
    (r.push name payload).Gives () := by
  unfold push
  cases r.entry? name with
  | some e => exact ⟨_, rfl⟩
  | none => exact Trace.gives_note _ _ _ _

end Registry

------------------------------------------------------------
-- Operations
------------------------------------------------------------

/- Whether an operation edits the tree of a document. -/
def PageOperation.isEdit : PageOperation → Bool
  | .matches _ _ | .query _ | .queryAll _ | .find _ _ => false
  | .bind _ _ _ | .delegate _ _ _ _ => false
  | .unbind _ _ _ | .undelegate _ _ _ _ => false
  | .dispatch _ _ => false
  | _ => true

/- Whether an operation is such an edit. -/
def Operation.isEdit : Operation → Bool
  | .page operation => operation.isEdit
  | _ => false

/- The way up from any id leads over nodes only. -/
theorem Dom.Tree.exists_chain_live
    {t : Tree}
    (hLinked : t.Linked)
    (id : NodeId) :
    ∃ chain,
      t.chain id = .ok chain ∧
        ∀ x ∈ chain, t.contains x = true := by
  cases hLive : t.contains id with
  | true =>
      rcases Tree.chain_eq_ok hLinked hLive with
        ⟨chain, hChain, _, hMembers⟩
      refine ⟨chain, hChain, ?_⟩
      intro x hMember
      exact
        hLinked.contains_of_within hLive
          ((hMembers x).mp hMember)
  | false =>
      exact ⟨[], Tree.chain_of_not_contains hLive, by simp⟩

namespace Session

/-
  What an operation needs in order not to fail: a tree whose
  links agree, and providers and listeners that do not fail on
  it.
-/
structure Sound
    (trees : Tree → Prop)
    (s : Session) : Prop where
  tree : trees s.page.tree
  linked : s.page.tree.Linked
  members : ∀ m ∈ s.registry.members, m.1.EndsOn trees
  listeners : ∀ l ∈ s.page.listeners, l.handler.EndsOn trees

variable {trees : Tree → Prop}
variable {s : Session}

/- An event comes to an end at every target. -/
theorem Sound.exists_dispatch
    (hSound : s.Sound trees)
    (target : NodeId)
    (event : String) :
    ∃ n,
      (s.page.dispatch (Handler.run s.diagnoses) target
        event).Gives n := by
  rcases Tree.exists_chain hSound.linked target with
    ⟨chain, hChain, _⟩
  have hCalls := Document.calls_of_chain hChain event
  rw [Document.dispatch_eq hCalls]
  simp only [Trace.gives_bind_iff]
  refine
    ⟨_, (), Trace.gives_note _ _ _ (), (), ?_,
      Trace.gives_pure_iff.mpr rfl⟩
  apply Trace.gives_forM
  intro c hMember
  have hAttached : c.listener ∈ s.page.listeners :=
    Document.listener_of_calls hCalls hMember
  exact
    (hSound.listeners c.listener hAttached).run hSound.tree
      hSound.linked _ _

/- So does all that is no edit of the tree. -/
theorem Sound.exists_page
    (hSound : s.Sound trees)
    {operation : PageOperation}
    (hNoEdit : operation.isEdit = false) :
    ∃ result,
      (operation.perform s.surroundings s.page).Gives
        result := by
  have hFind :
      ∀ scope source,
        ∃ found, (s.page.tree.find scope source).Gives found := by
    intro scope source
    rcases Tree.exists_find hSound.linked scope source with
      ⟨found, hFound⟩
    exact ⟨found, hFound.gives⟩
  cases operation with
  | «matches» node selector =>
      apply Trace.exists_map fun yes => (s.page, Answer.truth yes)
      rcases Selector.exists_read? selector with ⟨list, hList⟩
      cases list with
      | none =>
          exact
            ⟨false, Trace.gives_bind_iff.mpr
              ⟨none, hList.gives, Trace.gives_pure_iff.mpr rfl⟩⟩
      | some list =>
          exact
            ⟨_, Trace.gives_bind_iff.mpr
              ⟨some list, hList.gives,
                Trace.gives_pure_iff.mpr rfl⟩⟩
  | query selector =>
      apply Trace.exists_map fun found => (s.page, Answer.node? found)
      rcases hFind 0 selector with ⟨found, hFound⟩
      exact
        ⟨found.head?, Trace.gives_bind_iff.mpr
          ⟨found, hFound, Trace.gives_pure_iff.mpr rfl⟩⟩
  | queryAll selector =>
      exact
        Trace.exists_map (fun found => (s.page, Answer.nodes found))
          (hFind 0 selector)
  | find node selector =>
      exact
        Trace.exists_map (fun found => (s.page, Answer.nodes found))
          (hFind node selector)
  | bind node event label =>
      exact
        Trace.exists_map (fun w => (w.1, Answer.count w.2))
          ⟨_, Document.bind_gives_iff.mpr rfl⟩
  | delegate node selector event label =>
      exact
        Trace.exists_map (fun w => (w.1, Answer.count w.2))
          ⟨_, Document.delegate_gives_iff.mpr rfl⟩
  | unbind node event listener =>
      exact ⟨_, Trace.gives_pure_iff.mpr rfl⟩
  | undelegate node selector event listener =>
      exact ⟨_, Trace.gives_pure_iff.mpr rfl⟩
  | dispatch node event =>
      exact
        Trace.exists_map (fun n => (s.page, Answer.count n))
          (hSound.exists_dispatch node event)
  | _ => cases hNoEdit

/- Every operation of the registry comes to an end. -/
theorem Sound.exists_registry
    (hSound : s.Sound trees)
    {operation : RegistryOperation}
    (hAdded :
      ∀ provider hasTransport,
        operation = .addProvider provider hasTransport →
          provider.EndsOn trees) :
    ∃ result, (operation.perform s).Gives result := by
  have hScan :=
    Registry.exists_scan hSound.tree hSound.linked
      hSound.members
  have hPure :
      ∀ result : Session × Answer,
        ∃ result', (pure result : Trace _).Gives result' :=
    fun result => ⟨result, Trace.gives_pure_iff.mpr rfl⟩
  cases operation with
  | addProvider provider hasTransport =>
      exact
        Trace.exists_map _
          (Registry.exists_add hSound.tree hSound.linked
            hSound.members (hAdded provider hasTransport rfl) _)
  | removeProvider name =>
      exact Trace.exists_map _ (s.registry.exists_remove s.page name)
  | parse root => exact Trace.exists_map _ (hScan root none)
  | parseFor name root =>
      exact Trace.exists_map _ (hScan root (some name))
  | push name payload =>
      exact
        Trace.exists_map (fun _ => (s, Answer.nothing))
          ⟨(), s.registry.gives_push name payload⟩
  | clear => exact hPure _
  | teardown => exact hPure _
  | replace config => exact hPure _
  | unbind name => exact hPure _
  | setEnabled enabled => exact hPure _
  | setDebug debug => exact hPure _
  | setTransport provider hasTransport => exact hPure _

end Session

/- So does every question in the small languages. -/
theorem LanguageOperation.exists_perform
    {t : Tree}
    (hLinked : t.Linked)
    (log : Origin)
    (operation : LanguageOperation) :
    ∃ answer, (operation.perform log t).Gives answer := by
  cases operation with
  | readExtractor value =>
      exact Trace.exists_map _ (Extractor.exists_read? log value)
  | readCondition value =>
      exact Trace.exists_map _ (Condition.exists_read? log value)
  | extract node value =>
      exact Trace.exists_map _ (exists_extractValue hLinked log node value)
  | evaluate node condition =>
      apply Trace.exists_map
      rcases condition.exists_evaluate hLinked log node with
        ⟨holds, hHolds⟩
      exact ⟨holds, hHolds.gives⟩

------------------------------------------------------------
-- Sessions
------------------------------------------------------------

namespace Session

/- Whatever is no edit of the tree comes to an end. -/
theorem Sound.exists_perform
    {s : Session}
    (hSound : s.Sound Tree.Reached)
    {operation : Operation}
    (hNoEdit : operation.isEdit = false)
    (hTrusted : (Action.operation operation).Trusted) :
    ∃ result, (s.perform operation).Gives result := by
  cases operation with
  | page operation =>
      exact
        Trace.exists_map
          (fun result => ({ s with page := result.1 }, result.2))
          (hSound.exists_page hNoEdit)
  | registry operation =>
      apply hSound.exists_registry
      rintro provider hasTransport rfl
      exact hTrusted
  | language caller operation =>
      exact
        Trace.exists_map (fun answer => (s, answer))
          (operation.exists_perform hSound.linked
            (.caller caller.scope))

/-
  What cannot fail in a session.  From every id, whether there
  is a node with it or not, the way up, the nodes below and
  the text are found, and lead over nodes only.  Every
  operation that is no edit of the tree is answered, if the
  provider that it adds is trusted.
-/
structure Unfailing
    (s : Session) : Prop where
  chains :
    ∀ id, ∃ chain,
      s.page.tree.chain id = .ok chain ∧
        ∀ x ∈ chain, s.page.tree.contains x = true
  descendants :
    ∀ id, ∃ below,
      s.page.tree.descendants id = .ok below ∧
        ∀ x ∈ below, s.page.tree.contains x = true
  texts :
    ∀ id, ∃ text, s.page.tree.textContent id = .ok text
  answers :
    ∀ operation : Operation,
      operation.isEdit = false →
        (Action.operation operation).Trusted →
          ∃ s' answer reports,
            s.step operation = .ok (s', answer, reports)

/-
  In every session of a run whose actions are permitted, and
  whose providers are trusted, nothing of this fails.
-/
theorem unfailing_of_history
    {s : Session}
    {earlier : List Session}
    (hHistory : History Trusts (s :: earlier)) :
    s.Unfailing := by
  have hPermitted := hHistory.permitted
  have hLinked := hPermitted.linked_last
  have hReached : s.page.tree.Reached :=
    ⟨_, hPermitted, s, List.mem_cons_self, rfl⟩
  have hSound : s.Sound Tree.Reached :=
    { tree := hReached
      linked := hLinked
      members := hHistory.members_trusted s List.mem_cons_self
      listeners := fun _ hMember =>
        hHistory.listeners_trusted hMember }
  constructor
  · exact Tree.exists_chain_live hLinked
  · intro id
    rcases Tree.exists_descendants hLinked id with
      ⟨below, hBelow⟩
    exact
      ⟨below, hBelow, fun _ hMember =>
        Tree.contains_of_mem_descendants hBelow hMember⟩
  · exact Tree.exists_textContent hLinked
  · intro operation hNoEdit hTrusted
    exact exists_step (hSound.exists_perform hNoEdit hTrusted)

/- A provider that sends the text of the element. -/
private def textReader : Provider :=
  .custom "Reader" "R" "m" [("read", .deferred ["text"])]

/- Such a session, on some nodes with some listeners. -/
private def readerSession
    (nodes : List (Option Node))
    (free : List NodeId)
    (listeners : List (Listener Handler))
    (next : Nat)
    (bindings : List Binding) : Session :=
  { page :=
      { tree := ⟨nodes.toArray, free⟩
        listeners
        nextListener := next }
    registry :=
      { number := 0, config := {}
        entries :=
          [{ provider := textReader, number := 0, bindings }] }
    initial := {}
    providers := [{ hasTransport := true }] }

/- The document node above some others. -/
private def readerRoot
    (children : List NodeId) : Option Node :=
  some { id := 0, children, data := .document }

/- An element that declares an event for the provider. -/
private def readElement
    (parent : Option NodeId) : Option Node :=
  some
    { id := 1, parent
      data :=
        .element
          ⟨.html "i",
            [.plain "data-metric-event" "e",
              .plain "m" "read"]⟩ }

/- The listener for that element. -/
private def readListener : Listener Handler :=
  ⟨0, 1, "e", none,
    .provided ⟨0, 0, "R"⟩ .always
      (pushHandler ⟨0, 0, "R"⟩
        (.deferred
          (Recipe.deferredPayload "read" ["text"]
            ⟨0, 0, "R"⟩)))⟩

private theorem act_parse_read :
    (readerSession [readerRoot [1], readElement (some 0)] [] []
        0 []).act (.operation (.registry (.parse none))) =
      .ok
        (readerSession [readerRoot [1], readElement (some 0)] []
          [readListener] 1 [⟨1, "e", none, 0⟩]) := by
  let s :=
    readerSession [readerRoot [1], readElement (some 0)] [] [] 0
      []
  let s' :=
    readerSession [readerRoot [1], readElement (some 0)] []
      [readListener] 1 [⟨1, "e", none, 0⟩]
  have hFind :
      s.page.tree.find ((none : Option NodeId).getD 0)
          s.registry.eventSelector =
        .done [1] [] := by
    cbv
  have hScan :
      s.registry.scan s.page none none =
        .done (s'.page, s'.registry, 1)
          [.note (.registry 0 "registry") .info
            "Binding analytics handlers for node 1 on e"] := by
    rw [Registry.scan, hFind]
    rfl
  change s.act _ = .ok s'
  simp only [act, step, perform, RegistryOperation.perform,
    hScan]
  rfl

/-
  An element is bound and then removed.  The registry still
  has the record of its listener.
-/
theorem unfailing_of_lost_node :
    ∃ s earlier,
      History Trusts (s :: earlier) ∧
        s.registry.bindings "R" = [⟨1, "e", none, 0⟩] ∧
          s.page.tree.contains 1 = false ∧ s.Unfailing := by
  have h₀ : History Trusts [start Document.empty {}] :=
    .start {}
  have h₁ :=
    h₀.step
      (.operation (.registry (.addProvider textReader true)))
      (readerSession [readerRoot []] [] [] 0 [])
      ⟨trivial,
        Provider.endsOn_custom (fun _ => Tree.Reached.linked)
          _ _ _ _⟩
      (by cbv)
  have h₂ :=
    h₁.step
      (.operation
        (.page
          (.createElement "i"
            [("data-metric-event", "e"), ("m", "read")])))
      (readerSession [readerRoot [], readElement none] [] [] 0
        [])
      ⟨trivial, trivial⟩ rfl
  have h₃ :=
    h₂.step (.build (.append 0 (.node 1)))
      (readerSession [readerRoot [1], readElement (some 0)] []
        [] 0 [])
      ⟨permits_build h₂.permitted.linked_last (by decide),
        trivial⟩
      rfl
  have h₄ :=
    h₃.step (.operation (.registry (.parse none)))
      (readerSession [readerRoot [1], readElement (some 0)] []
        [readListener] 1 [⟨1, "e", none, 0⟩])
      ⟨trivial, trivial⟩ act_parse_read
  have h₅ :=
    h₄.step (.operation (.page (.remove 1)))
      (readerSession [readerRoot [], none] [1] [] 1
        [⟨1, "e", none, 0⟩])
      ⟨trivial, trivial⟩ (by cbv)
  exact ⟨_, _, h₅, rfl, rfl, unfailing_of_history h₅⟩

end Session

end MarkupMetrics
