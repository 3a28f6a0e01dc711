import MarkupMetrics.Html.Page
import MarkupMetrics.Proofs.Dom.Nesting
import MarkupMetrics.Proofs.Html.Spots

/-
  This file proves when the calls of a page can be carried
  out while its tree is assembled.

  Handles that are known stand for nodes.  A node can be put
  into any place that is there and whose owner is not within
  the node.

  Key definitions include:
    * `TreeCall.Known`
    * `Assembly.node`
    * `Assembly.Sound`
    * `Spot.nodeCall`

  Key theorems include:
    * `Spot.exists_puts`
    * `Assembly.take_of_run`
    * `Assembly.Sound.made`
-/

namespace MarkupMetrics

namespace Dom

namespace Tree

open MarkupMetrics.Outcome

/- The test for standing below fails where nothing does. -/
theorem isWithin_eq_false
    {t : Tree}
    (hLinked : t.Linked)
    {id top : NodeId}
    (hApart : ¬ t.Within id top) :
    t.isWithin id top = false := by
  rcases exists_chain hLinked id with ⟨above, hChain, _⟩
  have hOut : top ∉ above := fun hMember =>
    hApart ((mem_chain_iff hLinked hChain).mp hMember).2
  simp [isWithin, hChain, hOut]

/- A missing node has no parent. -/
theorem parent?_eq_none
    {t : Tree}
    {id : NodeId}
    (hMissing : t.contains id = false) :
    t.parent? id = none := by
  simp [parent?, not_contains_iff.mp hMissing]

/- Attributes can be added to any node, if only in vain. -/
theorem exists_addAttributes_of_live
    {t : Tree}
    {id : NodeId}
    (hLive : t.contains id = true)
    (attrs : List Attribute) :
    ∃ t', t.addAttributes id attrs = .ok t' ∧
      SameLinks t t' := by
  rcases contains_iff.mp hLive with ⟨n, hNode⟩
  have hRun : ∃ t', t.addAttributes id attrs = .ok t' := by
    rw [addAttributes, modifyAttrs, node_eq_ok_iff.mpr hNode,
      ok_bind]
    cases n.data <;> exact ⟨_, rfl⟩
  rcases hRun with ⟨t', hDone⟩
  exact ⟨t', hDone, sameLinks_of_modifyAttrs hDone⟩

end Tree

end Dom

namespace Html

open Dom Dom.Tree MarkupMetrics.Outcome

------------------------------------------------------------
-- Calls by name
------------------------------------------------------------

variable {ν μ : Type}

/- Content with other references. -/
def Content.map
    (f : ν → μ) : Content ν → Content μ
  | .node id => .node (f id)
  | .text content => .text content

namespace TreeCall

/- A call with other references. -/
def map
    (f : ν → μ) : TreeCall ν → TreeCall μ
  | .createElement name attrs => .createElement name attrs
  | .createComment => .createComment
  | .append parent content =>
      .append (f parent) (content.map f)
  | .appendBefore sibling content =>
      .appendBefore (f sibling) (content.map f)
  | .appendBased element previous content =>
      .appendBased (f element) (f previous) (content.map f)
  | .addAttributes element attrs => .addAttributes (f element) attrs
  | .unlink node => .unlink (f node)
  | .moveChildren source target =>
      .moveChildren (f source) (f target)

/- The node that a call makes, if it makes one. -/
def data? : TreeCall ν → Option NodeData
  | .createElement name attrs => some (.element ⟨name, attrs⟩)
  | .createComment => some .comment
  | _ => none

end TreeCall

/- Content names a handle up to some number, if any. -/
def Content.Known
    (n : Nat) : Content Handle → Prop
  | .node id => id ≤ n
  | .text _ => True

/- A call names no handles beyond some number. -/
def TreeCall.Known
    (n : Nat) : TreeCall Handle → Prop
  | .createElement _ _ => True
  | .createComment => True
  | .append parent content => parent ≤ n ∧ content.Known n
  | .appendBefore sibling content =>
      sibling ≤ n ∧ content.Known n
  | .appendBased element previous content =>
      element ≤ n ∧ previous ≤ n ∧ content.Known n
  | .addAttributes element _ => element ≤ n
  | .unlink node => node ≤ n
  | .moveChildren source target => source ≤ n ∧ target ≤ n

theorem Content.mapM_eq
    {n : Nat}
    {f : Handle → Except Fault NodeId}
    {g : Handle → NodeId}
    (hEach : ∀ h ≤ n, f h = .ok (g h))
    {content : Content Handle}
    (hKnown : content.Known n) :
    content.mapM f = .ok (content.map g) := by
  cases content with
  | node id =>
      rw [mapM, hEach id hKnown]
      rfl
  | text content => rfl

/- Handles are resolved together if they are one by one. -/
theorem TreeCall.mapM_eq
    {n : Nat}
    {f : Handle → Except Fault NodeId}
    {g : Handle → NodeId}
    (hEach : ∀ h ≤ n, f h = .ok (g h))
    {call : TreeCall Handle}
    (hKnown : call.Known n) :
    call.mapM f = .ok (call.map g) := by
  cases call with
  | createElement name attrs => rfl
  | createComment => rfl
  | append parent content =>
      rw [mapM, hEach parent hKnown.1,
        Content.mapM_eq hEach hKnown.2]
      rfl
  | appendBefore sibling content =>
      rw [mapM, hEach sibling hKnown.1,
        Content.mapM_eq hEach hKnown.2]
      rfl
  | appendBased element previous content =>
      rw [mapM, hEach element hKnown.1, hEach previous hKnown.2.1,
        Content.mapM_eq hEach hKnown.2.2]
      rfl
  | addAttributes element attrs =>
      rw [mapM, hEach element hKnown]
      rfl
  | unlink node =>
      rw [mapM, hEach node hKnown]
      rfl
  | moveChildren source target =>
      rw [mapM, hEach source hKnown.1, hEach target hKnown.2]
      rfl

------------------------------------------------------------
-- Nodes in places
------------------------------------------------------------

namespace Spot

/- The call that puts a node into a place. -/
def nodeCall
    (id : NodeId) : Spot → TreeCall NodeId
  | .endOf parent => .append parent (.node id)
  | .before sibling => .appendBefore sibling (.node id)
  | .based element previous =>
      .appendBased element previous (.node id)

variable {t : Tree}
variable {spot : Spot}
variable {owner c : NodeId}
variable {front back : List NodeId}

/- The owner of a place becomes the parent. -/
theorem newParent?_eq
    (hLinked : t.Linked)
    (hOpens : spot.Opens t owner front back) :
    t.newParent? (spot.nodeCall c) = some owner := by
  have hHead :
      ∀ {sibling}, back.head? = some sibling →
        t.parent? sibling = some owner := by
    intro sibling hFirst
    rw [← hLinked.listed, hOpens.children, List.mem_append]
    exact Or.inr (List.mem_of_head? hFirst)
  have hAims := hOpens.aims
  cases spot with
  | endOf parent => rw [hAims.1]; rfl
  | before sibling => exact hHead hAims
  | based element previous =>
      rcases hAims with hFirst | ⟨_, hRoot, hOwner, _⟩
      · have hParent := hHead hFirst
        rw [parent?] at hParent
        simp only [nodeCall, newParent?, hParent]
      · rw [parent?] at hRoot
        simp only [nodeCall, newParent?, hRoot, hOwner]

/- So a node is admitted if the owner is not within it. -/
theorem admits_nodeCall
    (hLinked : t.Linked)
    (hOpens : spot.Opens t owner front back)
    (hApart : ¬ t.Within owner c) :
    t.admits (spot.nodeCall c) = true := by
  have hParent := newParent?_eq (c := c) hLinked hOpens
  have hTest := isWithin_eq_false hLinked hApart
  cases spot <;>
    simp only [nodeCall] at hParent ⊢ <;>
    simp only [admits, hParent, hTest, Bool.not_false]

/- A node that stands nowhere can be put into a place. -/
theorem exists_puts
    (hLinked : t.Linked)
    (hOpens : spot.Opens t owner front back)
    (hLive : t.contains c = true)
    (hRoot : t.parent? c = none)
    (hApart : ¬ t.Within owner c) :
    ∃ t', (spot.nodeCall c).run t = .ok (t', none) ∧
      t'.Linked ∧ t.Keeps t' ∧ Puts c owner t t' := by
  have hAdmits := admits_nodeCall hLinked hOpens hApart
  have hMovable : t.Movable owner [c] := by
    intro x hMember
    rw [List.mem_singleton.mp hMember]
    exact ⟨hLive, hApart⟩
  have hEnd :
      ∃ t', t.append owner [c] = .ok t' ∧
        t.Keeps t' ∧ Puts c owner t t' := by
    rcases exists_append hLinked hOpens.live hMovable with
      ⟨t', hRun, hSpliced⟩
    exact
      ⟨t', hRun, hSpliced.nodes.keeps, hRoot, fun x => by
        rw [hSpliced.parent]; simp⟩
  have hBefore :
      ∀ {sibling}, back.head? = some sibling →
        t.parent? sibling = some owner ∧
          ∃ t', t.insertBefore sibling [c] = .ok t' ∧
            t.Keeps t' ∧ Puts c owner t t' := by
    intro sibling hFirst
    rcases List.head?_eq_some_iff.mp hFirst with ⟨rest, rfl⟩
    have hMember : sibling ∈ t.childrenOf owner := by
      simp [hOpens.children]
    have hParent := (hLinked.listed sibling owner).mp hMember
    have hOther : sibling ∉ [c] := by
      intro hSame
      rw [List.mem_singleton.mp hSame, hRoot] at hParent
      cases hParent
    rcases
      exists_insertBefore hLinked hOpens.children hOther
        hMovable with
      ⟨t', hRun, hSpliced⟩
    exact
      ⟨hParent, t', hRun, hSpliced.nodes.keeps, hRoot,
        fun x => by rw [hSpliced.parent]; simp⟩
  have hDone :
      ∃ t', (spot.nodeCall c).run t = .ok (t', none) ∧
        t.Keeps t' ∧ Puts c owner t t' := by
    have hAims := hOpens.aims
    cases spot with
    | endOf parent =>
        rcases hEnd with ⟨t', hRun, hPuts⟩
        refine ⟨t', ?_, hPuts⟩
        rw [nodeCall, TreeCall.run, ← hAims.1, appendContent,
          hRun]
        rfl
    | before sibling =>
        rcases hBefore hAims with ⟨_, t', hRun, hPuts⟩
        refine ⟨t', ?_, hPuts⟩
        rw [nodeCall, TreeCall.run, insertContentBefore, hRun]
        rfl
    | based element previous =>
        rcases hAims with hFirst | ⟨hElement, hNone, hOwner, _⟩
        · rcases hBefore hFirst with
            ⟨hParent, t', hRun, hPuts⟩
          refine ⟨t', ?_, hPuts⟩
          rw [nodeCall,
            TreeCall.run_appendBased_of_parent hParent,
            TreeCall.run, insertContentBefore, hRun]
          rfl
        · rcases hEnd with ⟨t', hRun, hPuts⟩
          refine ⟨t', ?_, hPuts⟩
          rw [nodeCall,
            TreeCall.run_appendBased_of_root hElement hNone,
            TreeCall.run, ← hOwner, appendContent, hRun]
          rfl
  rcases hDone with ⟨t', hRun, hKeeps, hPuts⟩
  exact
    ⟨t', hRun,
      TreeCall.linked_run hLinked
        (TreeCall.permitted_of_admits hLinked hAdmits) hRun,
      hKeeps, hPuts⟩

/- A place is still there when a node was made. -/
theorem Opens.create
    (hOpens : spot.Opens t owner front back)
    (hLinked : t.Linked)
    (data : NodeData) :
    spot.Opens (t.create data).1 owner front back := by
  refine ⟨contains_create data hOpens.live, ?_, ?_⟩
  · rw [childrenOf_create hLinked.free]
    exact hOpens.children
  · have hAims := hOpens.aims
    cases spot with
    | endOf parent => exact hAims
    | before sibling => exact hAims
    | based element previous =>
        rcases hAims with hFirst | ⟨hLive, hRoot, hRest⟩
        · exact Or.inl hFirst
        · rw [← parent?_create hLinked.free data] at hRoot
          exact
            Or.inr ⟨contains_create data hLive, hRoot, hRest⟩

/- Text in a place moves no node. -/
theorem exists_writing
    (hLinked : t.Linked)
    (hOpens : spot.Opens t owner front back)
    (text : String) :
    ∃ t', (spot.call text).run t = .ok (t', none) ∧
      Grown [] t t' := by
  rcases exists_writes hLinked hOpens text with
    ⟨t', hRun, hWrites⟩
  exact
    ⟨t', hRun, linked_run hLinked hRun,
      fun _ hLive => (hWrites.kept hLive).1,
      fun _ hLive => (hWrites.kept hLive).2,
      fun _ hMember => nomatch hMember⟩

end Spot

------------------------------------------------------------
-- Assemblies
------------------------------------------------------------

namespace Assembly

/- The node that a known handle stands for. -/
def node
    (a : Assembly) : Handle → NodeId
  | 0 => 0
  | n + 1 => a.made.getD n 0

/-
  The links of a tree agree, and the document and the nodes
  that calls have made are nodes of it.
-/
structure Sound
    (a : Assembly) : Prop where
  linked : a.tree.Linked
  live :
    ∀ h ≤ a.made.size, a.tree.contains (a.node h) = true

variable {a : Assembly}

theorem resolve_eq
    (a : Assembly) :
    ∀ h ≤ a.made.size, a.resolve h = .ok (a.node h) := by
  intro h hKnown
  cases h with
  | zero => rfl
  | succ n =>
      have hBound : n < a.made.size := hKnown
      simp [resolve, node, hBound]

/- A call that the tree admits is carried out. -/
theorem take_of_run
    {call : TreeCall Handle}
    {t' : Tree}
    (hKnown : call.Known a.made.size)
    (hAdmits : a.tree.admits (call.map a.node) = true)
    (hRun : (call.map a.node).run a.tree = .ok (t', none)) :
    a.take call = .ok { a with tree := t' } := by
  rw [take, TreeCall.mapM_eq a.resolve_eq hKnown]
  simp [hAdmits, hRun]

/- A call that makes a node always is. -/
theorem take_of_data?
    {call : TreeCall Handle}
    {data : NodeData}
    (hData : call.data? = some data) :
    a.take call =
      .ok
        ⟨(a.tree.create data).1,
          a.made.push (a.tree.create data).2⟩ := by
  cases call with
  | createElement name attrs =>
      cases hData
      rfl
  | createComment =>
      cases hData
      rfl
  | _ => cases hData

/- Old handles stand for the same nodes after another was made. -/
theorem node_push
    (a : Assembly)
    (t' : Tree)
    (id : NodeId)
    {h : Handle}
    (hKnown : h ≤ a.made.size) :
    node ⟨t', a.made.push id⟩ h = a.node h := by
  cases h with
  | zero => rfl
  | succ n =>
      have hBound : n < a.made.size := hKnown
      simp [node, Array.getElem?_push, Nat.ne_of_lt hBound]

/- The next handle stands for the node that was made. -/
theorem node_pushed
    (a : Assembly)
    (t' : Tree)
    (id : NodeId) :
    node ⟨t', a.made.push id⟩ (a.made.size + 1) = id := by
  simp [node]

/- All nodes are kept when one more is made. -/
theorem Sound.made
    (hSound : a.Sound)
    (data : NodeData) :
    Sound
      ⟨(a.tree.create data).1,
        a.made.push (a.tree.create data).2⟩ := by
  refine ⟨hSound.linked.create data, ?_⟩
  intro h hKnown
  rw [Array.size_push] at hKnown
  rcases Nat.le_succ_iff.mp hKnown with hOld | rfl
  · rw [node_push a _ _ hOld]
    exact contains_create data (hSound.live h hOld)
  · rw [node_pushed]
    exact (contains_created hSound.linked.free data).2

end Assembly

end Html

end MarkupMetrics
