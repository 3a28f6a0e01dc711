import MarkupMetrics.Proofs.Dom.Climb
import MarkupMetrics.Proofs.Dom.Touching

/-
  This file proves what the calls that build a tree from a
  page do to it.

  They do no more to the nodes than touch them, and they keep
  the links in agreement as long as none of them puts a node
  below itself.
  Reading a page refuses such calls, so a page can be read
  into any tree.

  Key definitions include:
    * `Tree.putText`
    * `TreeCall.Permitted`

  Key theorems include:
    * `TreeCall.touched_of_run`
    * `TreeCall.linked_run`
    * `TreeCall.permitted_of_admits`
    * `Tree.Linked.addPage`
    * `Tree.Linked.appendPage`
-/

namespace MarkupMetrics

namespace Dom

namespace Tree

open Html Outcome

------------------------------------------------------------
-- Putting content into its place
------------------------------------------------------------

/- Text that is joined goes to the end of a text node. -/
theorem appendText?_of_joinText?
    {t t' : Tree}
    {before : Option NodeId}
    {content : String}
    (hRun : t.joinText? before content = .ok (some t')) :
    ∃ id, t.appendText? id content = .ok (some t') := by
  cases before with
  | none => simp [joinText?] at hRun
  | some id => exact ⟨id, hRun⟩

/-
  Text joins a node that stands before its place, or a text
  node is made and moved there.
-/
def putText
    (t : Tree)
    (before : Option NodeId)
    (text : String)
    (move : Tree → NodeId → Except Fault Tree) :
    Except Fault Tree := do
  match ← t.joinText? before text with
  | some t => return t
  | none =>
      let (t, id) := t.create (.text text)
      move t id

theorem appendContent_text
    {t : Tree}
    {parent : NodeId}
    {before : Option NodeId}
    (hLast : t.lastChild? parent = .ok before)
    (text : String) :
    t.appendContent parent (.text text) =
      t.putText before text fun t id => t.append parent [id] := by
  rw [appendContent, hLast]
  rfl

theorem insertContentBefore_text
    {t : Tree}
    {sibling : NodeId}
    {before : Option NodeId}
    (hPrevious : t.previousSibling? sibling = .ok before)
    (text : String) :
    t.insertContentBefore sibling (.text text) =
      t.putText before text fun t id =>
        t.insertBefore sibling [id] := by
  rw [insertContentBefore, hPrevious]
  rfl

/- The last child of a node ends its child list. -/
theorem lastChild?_eq
    {t : Tree}
    {id : NodeId}
    (hLive : t.contains id = true) :
    t.lastChild? id = .ok (t.childrenOf id).getLast? := by
  rcases contains_iff.mp hLive with ⟨n, hNode⟩
  rw [lastChild?, node_eq_ok_iff.mpr hNode,
    childrenOf_of_get? hNode]
  rfl

/-
  Content is put at the end of a child list by moving its
  node, by joining its text, or by moving a new text node.
-/
theorem appendContent_cases
    {t t' : Tree}
    {parent : NodeId}
    {content : Content NodeId}
    (hRun : t.appendContent parent content = .ok t') :
    (∃ id, content = .node id ∧
        t.append parent [id] = .ok t') ∨
      ∃ text, content = .text text ∧
        ((∃ id, t.appendText? id text = .ok (some t')) ∨
          t.contains parent = true ∧
            (t.create (.text text)).1.append parent
              [(t.create (.text text)).2] = .ok t') := by
  cases content with
  | node id => exact Or.inl ⟨id, rfl, hRun⟩
  | text text =>
      refine Or.inr ⟨text, rfl, ?_⟩
      rw [appendContent, bind_eq_ok_iff] at hRun
      rcases hRun with ⟨last, hLast, hRest⟩
      rcases bind_eq_ok_iff.mp hRest with
        ⟨joined, hJoin, hDone⟩
      cases joined with
      | some u =>
          rw [pure_eq_ok_iff] at hDone
          exact Or.inl (hDone ▸ appendText?_of_joinText? hJoin)
      | none =>
          rw [lastChild?, bind_eq_ok_iff] at hLast
          rcases hLast with ⟨n, hNode, _⟩
          rw [node_eq_ok_iff] at hNode
          exact Or.inr ⟨contains_of_get? hNode, hDone⟩

/- The same holds of content that is put before a node. -/
theorem insertContentBefore_cases
    {t t' : Tree}
    {sibling : NodeId}
    {content : Content NodeId}
    (hRun : t.insertContentBefore sibling content = .ok t') :
    (∃ id, content = .node id ∧
        t.insertBefore sibling [id] = .ok t') ∨
      ∃ text, content = .text text ∧
        ((∃ id, t.appendText? id text = .ok (some t')) ∨
          (t.create (.text text)).1.insertBefore sibling
            [(t.create (.text text)).2] = .ok t') := by
  cases content with
  | node id => exact Or.inl ⟨id, rfl, hRun⟩
  | text text =>
      refine Or.inr ⟨text, rfl, ?_⟩
      rw [insertContentBefore, bind_eq_ok_iff] at hRun
      rcases hRun with ⟨previous, _, hRest⟩
      rcases bind_eq_ok_iff.mp hRest with
        ⟨joined, hJoin, hDone⟩
      cases joined with
      | some u =>
          rw [pure_eq_ok_iff] at hDone
          exact Or.inl (hDone ▸ appendText?_of_joinText? hJoin)
      | none => exact Or.inr hDone

theorem touched_of_appendContent
    {t t' : Tree}
    {parent : NodeId}
    {content : Content NodeId}
    (hRun : t.appendContent parent content = .ok t') :
    t.Touched t' := by
  rcases appendContent_cases hRun with
    ⟨id, _, hAppend⟩ | ⟨text, _, ⟨id, hJoin⟩ | ⟨_, hAppend⟩⟩
  · exact (sameNodes_of_append hAppend).touched
  · exact touched_of_appendText? hJoin
  · exact
      (touched_create t _).trans
        (sameNodes_of_append hAppend).touched

theorem touched_of_insertContentBefore
    {t t' : Tree}
    {sibling : NodeId}
    {content : Content NodeId}
    (hRun : t.insertContentBefore sibling content = .ok t') :
    t.Touched t' := by
  rcases insertContentBefore_cases hRun with
    ⟨id, _, hInsert⟩ | ⟨text, _, ⟨id, hJoin⟩ | hInsert⟩
  · exact (sameNodes_of_insertBefore hInsert).touched
  · exact touched_of_appendText? hJoin
  · exact
      (touched_create t _).trans
        (sameNodes_of_insertBefore hInsert).touched

/- A new node can be put below any node but itself. -/
theorem Linked.mayHold_create
    {t : Tree}
    (hLinked : t.Linked)
    (data : NodeData)
    {owner : NodeId}
    (hOwner : t.contains owner = true) :
    (t.create data).1.MayHold owner (t.create data).2 := by
  intro _ hWithin
  have hGrown := hLinked.grown_create data
  have hOld := hGrown.contains_within hLinked hOwner hWithin
  rw [hGrown.fresh _ (by simp)] at hOld
  cases hOld

theorem Linked.appendContent
    {t t' : Tree}
    {parent : NodeId}
    {content : Content NodeId}
    (hLinked : t.Linked)
    (hApart :
      ∀ id, content = .node id → t.MayHold parent id)
    (hRun : t.appendContent parent content = .ok t') :
    t'.Linked := by
  rcases appendContent_cases hRun with
    ⟨id, hContent, hAppend⟩ |
      ⟨text, _, ⟨id, hJoin⟩ | ⟨hLive, hAppend⟩⟩
  · apply hLinked.append _ hAppend
    intro c hMember
    have hId : c = id := by simpa using hMember
    exact hId ▸ hApart id hContent
  · exact hLinked.ofSameLinks (sameLinks_of_appendText? hJoin)
  · apply (hLinked.create _).append _ hAppend
    intro c hMember
    have hId : c = (t.create (.text text)).2 := by
      simpa using hMember
    exact hId ▸ hLinked.mayHold_create _ hLive

theorem Linked.insertContentBefore
    {t t' : Tree}
    {sibling : NodeId}
    {content : Content NodeId}
    (hLinked : t.Linked)
    (hApart :
      ∀ p, t.parent? sibling = some p →
        ∀ id, content = .node id → t.MayHold p id)
    (hRun : t.insertContentBefore sibling content = .ok t') :
    t'.Linked := by
  rcases insertContentBefore_cases hRun with
    ⟨id, hContent, hInsert⟩ | ⟨text, _, ⟨id, hJoin⟩ | hInsert⟩
  · apply hLinked.insertBefore _ hInsert
    intro p hParent c hMember
    have hId : c = id := by simpa using hMember
    exact hId ▸ hApart p hParent id hContent
  · exact hLinked.ofSameLinks (sameLinks_of_appendText? hJoin)
  · apply (hLinked.create _).insertBefore _ hInsert
    intro p hParent c hMember
    rw [parent?_create hLinked.free] at hParent
    have hId : c = (t.create (.text text)).2 := by
      simpa using hMember
    exact
      hId ▸
        hLinked.mayHold_create _
          (hLinked.contains_parent hParent)

end Tree

end Dom

------------------------------------------------------------
-- Calls
------------------------------------------------------------

namespace Html

open Dom MarkupMetrics.Outcome

/- Whether a call puts no node below itself. -/
def TreeCall.Permitted
    (t : Tree) : TreeCall NodeId → Prop
  | .append parent (.node id) => t.MayHold parent id
  | .appendBefore sibling (.node id) =>
      ∀ p, t.parent? sibling = some p → t.MayHold p id
  | .appendBased element previous (.node id) =>
      match t.parent? element with
      | some p => t.MayHold p id
      | none => t.MayHold previous id
  | .moveChildren source target =>
      ∀ c ∈ t.childrenOf source, t.MayHold target c
  | _ => True

namespace TreeCall

/- A based place is before the element, or at the end. -/
theorem run_appendBased_cases
    {t t' : Tree}
    {element previous : NodeId}
    {content : Content NodeId}
    {made : Option NodeId}
    (hRun :
      TreeCall.run t (.appendBased element previous content) =
        .ok (t', made)) :
    (∃ p, t.parent? element = some p ∧
        t.insertContentBefore element content = .ok t') ∨
      (t.parent? element = none ∧
        t.appendContent previous content = .ok t') := by
  rw [run, bind_eq_ok_iff] at hRun
  rcases hRun with ⟨based, hBased, hRest⟩
  rw [Tree.hasParent, bind_eq_ok_iff] at hBased
  rcases hBased with ⟨n, hNode, hTest⟩
  rw [Tree.node_eq_ok_iff] at hNode
  rw [pure_eq_ok_iff] at hTest
  rw [Tree.parent?_of_get? hNode]
  subst hTest
  cases hParent : n.parent with
  | some p =>
      rw [hParent] at hRest
      rcases bind_eq_ok_iff.mp hRest with ⟨u, hPut, hDone⟩
      rw [pure_eq_ok_iff, Prod.mk.injEq] at hDone
      exact Or.inl ⟨p, rfl, hDone.1 ▸ hPut⟩
  | none =>
      rw [hParent] at hRest
      rcases bind_eq_ok_iff.mp hRest with ⟨u, hPut, hDone⟩
      rw [pure_eq_ok_iff, Prod.mk.injEq] at hDone
      exact Or.inr ⟨rfl, hDone.1 ▸ hPut⟩

/- Before an element with a parent it is like any sibling. -/
theorem run_appendBased_of_parent
    {t : Tree}
    {element p : NodeId}
    (hParent : t.parent? element = some p)
    (previous : NodeId)
    (content : Content NodeId) :
    TreeCall.run t (.appendBased element previous content) =
      TreeCall.run t (.appendBefore element content) := by
  rcases Tree.contains_iff.mp (Tree.contains_of_parent? hParent)
    with ⟨n, hNode⟩
  rw [Tree.parent?_of_get? hNode] at hParent
  have hBased : t.hasParent element = .ok true := by
    rw [Tree.hasParent, Tree.node_eq_ok_iff.mpr hNode,
      ok_bind, hParent]
    rfl
  simp only [run, hBased, ok_bind, if_true]

theorem run_appendBased_of_root
    {t : Tree}
    {element : NodeId}
    (hLive : t.contains element = true)
    (hRoot : t.parent? element = none)
    (previous : NodeId)
    (content : Content NodeId) :
    TreeCall.run t (.appendBased element previous content) =
      TreeCall.run t (.append previous content) := by
  rcases Tree.contains_iff.mp hLive with ⟨n, hNode⟩
  rw [Tree.parent?_of_get? hNode] at hRoot
  have hBased : t.hasParent element = .ok false := by
    rw [Tree.hasParent, Tree.node_eq_ok_iff.mpr hNode,
      ok_bind, hRoot]
    rfl
  simp only [run, hBased, ok_bind, Bool.false_eq_true, if_false]

/- The result of a step that makes no node. -/
theorem of_run_step
    {x : Except Fault Tree}
    {t' : Tree}
    {made : Option NodeId}
    (hRun :
      (do return (← x, none) :
        Except Fault (Tree × Option NodeId)) =
          .ok (t', made)) :
    x = .ok t' := by
  rcases bind_eq_ok_iff.mp hRun with ⟨u, hStep, hDone⟩
  rw [pure_eq_ok_iff, Prod.mk.injEq] at hDone
  exact hDone.1 ▸ hStep

/- A call does no more to the nodes than touch them. -/
theorem touched_of_run
    {t t' : Tree}
    {call : TreeCall NodeId}
    {made : Option NodeId}
    (hRun : call.run t = .ok (t', made)) :
    t.Touched t' := by
  cases call with
  | createElement name attrs =>
      cases hRun
      exact Tree.touched_create t _
  | createComment =>
      cases hRun
      exact Tree.touched_create t _
  | append parent content =>
      exact Tree.touched_of_appendContent (of_run_step hRun)
  | appendBefore sibling content =>
      exact
        Tree.touched_of_insertContentBefore (of_run_step hRun)
  | appendBased element previous content =>
      rcases run_appendBased_cases hRun with
        ⟨p, _, hPut⟩ | ⟨_, hPut⟩
      · exact Tree.touched_of_insertContentBefore hPut
      · exact Tree.touched_of_appendContent hPut
  | addAttributes element attrs =>
      exact Tree.touched_of_modifyAttrs (of_run_step hRun)
  | unlink node =>
      cases hRun
      exact (Tree.sameNodes_of_unlink t node).touched
  | moveChildren source target =>
      exact
        (Tree.sameNodes_of_reparent (of_run_step hRun)).touched

/- A permitted call keeps the links in agreement. -/
theorem linked_run
    {t t' : Tree}
    {call : TreeCall NodeId}
    {made : Option NodeId}
    (hLinked : t.Linked)
    (hPermitted : call.Permitted t)
    (hRun : call.run t = .ok (t', made)) :
    t'.Linked := by
  cases call with
  | createElement name attrs =>
      cases hRun
      exact hLinked.create _
  | createComment =>
      cases hRun
      exact hLinked.create _
  | append parent content =>
      apply hLinked.appendContent _ (of_run_step hRun)
      rintro id rfl
      exact hPermitted
  | appendBefore sibling content =>
      apply hLinked.insertContentBefore _ (of_run_step hRun)
      rintro p hParent id rfl
      exact hPermitted p hParent
  | appendBased element previous content =>
      rcases run_appendBased_cases hRun with
        ⟨p, hParent, hPut⟩ | ⟨hParent, hPut⟩
      · apply hLinked.insertContentBefore _ hPut
        rintro q hOther id rfl
        have hSame : p = q := by
          rw [hParent] at hOther
          exact Option.some.inj hOther
        rw [Permitted, hParent] at hPermitted
        exact hSame ▸ hPermitted
      · apply hLinked.appendContent _ hPut
        rintro id rfl
        rw [Permitted, hParent] at hPermitted
        exact hPermitted
  | addAttributes element attrs =>
      exact
        hLinked.ofSameLinks
          (Tree.sameLinks_of_modifyAttrs (of_run_step hRun))
  | unlink node =>
      cases hRun
      exact hLinked.unlink node
  | moveChildren source target =>
      exact hLinked.reparent hPermitted (of_run_step hRun)

/- What a tree admits puts no node below itself. -/
theorem permitted_of_admits
    {t : Tree}
    {call : TreeCall NodeId}
    (hLinked : t.Linked)
    (hAdmits : t.admits call = true) :
    call.Permitted t := by
  have hApart :
      ∀ {owner child : NodeId},
        (!t.isWithin owner child) = true →
          t.MayHold owner child := by
    intro owner child hTest hLive
    have hFalse : t.isWithin owner child = false := by
      simpa using hTest
    exact Tree.not_within_of_isWithin hLinked hFalse hLive
  cases call with
  | append parent content =>
      cases content with
      | text text => trivial
      | node id => exact hApart hAdmits
  | appendBefore sibling content =>
      cases content with
      | text text => trivial
      | node id =>
          intro p hParent
          have hNew :
              t.newParent? (.appendBefore sibling (.node id)) =
                some p := hParent
          simp only [Tree.admits, hNew] at hAdmits
          exact hApart hAdmits
  | appendBased element previous content =>
      cases content with
      | text text => trivial
      | node id =>
          cases hParent : t.parent? element with
          | some p =>
              have hNew : (t.get? element).bind (·.parent) =
                  some p := hParent
              simp only [Tree.admits, Tree.newParent?, hNew]
                at hAdmits
              simp only [Permitted, hParent]
              exact hApart hAdmits
          | none =>
              have hNew : (t.get? element).bind (·.parent) =
                  none := hParent
              simp only [Tree.admits, Tree.newParent?, hNew]
                at hAdmits
              simp only [Permitted, hParent]
              exact hApart hAdmits
  | moveChildren source target =>
      intro c hChild hLive hWithin
      have hParent := (hLinked.listed c source).mp hChild
      have hSource := hLinked.contains_parent hParent
      simp only [Tree.admits, Bool.or_eq_true, beq_iff_eq]
        at hAdmits
      rcases hAdmits with rfl | hTest
      · exact hLinked.not_within_child hParent hWithin
      · exact
          hApart hTest hSource
            (hWithin.trans
              (Tree.within_of_parent? hParent
                (t.within_self source)))
  | createElement name attrs => trivial
  | createComment => trivial
  | addAttributes element attrs => trivial
  | unlink node => trivial

end TreeCall

------------------------------------------------------------
-- Pages
------------------------------------------------------------

/- What is taken is a call that the tree admits. -/
theorem Assembly.take_cases
    {a b : Assembly}
    {call : TreeCall Handle}
    (hRun : a.take call = .ok b) :
    ∃ resolved made, a.tree.admits resolved = true ∧
      resolved.run a.tree = .ok (b.tree, made) := by
  rw [take, bind_eq_ok_iff] at hRun
  rcases hRun with ⟨resolved, _, hRest⟩
  cases hAdmits : a.tree.admits resolved with
  | false =>
      simp only [hAdmits] at hRest
      cases hRest
  | true =>
      simp only [hAdmits] at hRest
      rcases bind_eq_ok_iff.mp hRest with
        ⟨⟨tree, made⟩, hCall, hDone⟩
      refine ⟨resolved, made, hAdmits, ?_⟩
      cases made with
      | none =>
          rw [← pure_eq_ok_iff.mp hDone]
          exact hCall
      | some id =>
          rw [← pure_eq_ok_iff.mp hDone]
          exact hCall

end Html

namespace Dom

namespace Tree

open Html Outcome

/- The tree without any node. -/
private theorem linked_nothing :
    Linked ⟨#[], []⟩ where
  ids i n hNode := by simp [get?] at hNode
  listed c p := by simp [childrenOf, parent?, get?]
  nodup p := by simp [childrenOf, get?]
  ranked := ⟨fun _ => 0, by simp [parent?, get?]⟩
  free :=
    { vacant := by simp
      inSlots := by simp
      nodup := by simp }

theorem linked_empty :
    empty.Linked :=
  linked_nothing.create .document

theorem Linked.addPage
    {t t' : Tree}
    {html : String}
    (hLinked : t.Linked)
    (hRun : t.addPage html = .ok t') :
    t'.Linked := by
  rw [Tree.addPage, bind_eq_ok_iff] at hRun
  rcases hRun with ⟨calls, _, hRest⟩
  rcases bind_eq_ok_iff.mp hRest with ⟨a, hCalls, hDone⟩
  rw [pure_eq_ok_iff] at hDone
  subst hDone
  refine
    foldlM_keeps (P := fun a : Assembly => a.tree.Linked)
      ?_ calls hLinked hCalls
  intro a call b hOld hTake
  rcases Assembly.take_cases hTake with
    ⟨resolved, made, hAdmits, hCall⟩
  exact
    TreeCall.linked_run hOld
      (TreeCall.permitted_of_admits hOld hAdmits) hCall

theorem touched_of_addPage
    {t t' : Tree}
    {html : String}
    (hRun : t.addPage html = .ok t') :
    t.Touched t' := by
  rw [addPage, bind_eq_ok_iff] at hRun
  rcases hRun with ⟨calls, _, hRest⟩
  rcases bind_eq_ok_iff.mp hRest with ⟨a, hCalls, hDone⟩
  rw [pure_eq_ok_iff] at hDone
  subst hDone
  refine
    foldlM_keeps (P := fun a : Assembly => t.Touched a.tree)
      ?_ calls .refl hCalls
  intro a call b hOld hTake
  rcases Assembly.take_cases hTake with
    ⟨resolved, made, _, hCall⟩
  exact hOld.trans (TreeCall.touched_of_run hCall)

/- A page without body adds nothing, else its body is grafted. -/
theorem appendPage_cases
    {t t' : Tree}
    {parent : NodeId}
    {html : String}
    {ids : List NodeId}
    (hRun : t.appendPage parent html = .ok (t', ids)) :
    t' = t ∨
      ∃ shapes, t.graft parent shapes = .ok (t', ids) := by
  rw [appendPage, bind_eq_ok_iff] at hRun
  rcases hRun with ⟨page, _, hFind⟩
  rcases bind_eq_ok_iff.mp hFind with ⟨found, _, hRest⟩
  cases hBody : found.head? with
  | none =>
      rw [hBody, pure_eq_ok_iff, Prod.mk.injEq] at hRest
      exact Or.inl hRest.1.symm
  | some body =>
      rw [hBody] at hRest
      rcases bind_eq_ok_iff.mp hRest with ⟨n, _, hShapes⟩
      rcases bind_eq_ok_iff.mp hShapes with
        ⟨shapes, _, hGraft⟩
      exact Or.inr ⟨shapes, hGraft⟩

theorem Linked.appendPage
    {t t' : Tree}
    {parent : NodeId}
    {html : String}
    {ids : List NodeId}
    (hLinked : t.Linked)
    (hParent : t.contains parent = true)
    (hRun : t.appendPage parent html = .ok (t', ids)) :
    t'.Linked := by
  rcases appendPage_cases hRun with rfl | ⟨shapes, hGraft⟩
  · exact hLinked
  · exact hLinked.graft hParent hGraft

theorem touched_of_appendPage
    {t t' : Tree}
    {parent : NodeId}
    {html : String}
    {ids : List NodeId}
    (hRun : t.appendPage parent html = .ok (t', ids)) :
    t.Touched t' := by
  rcases appendPage_cases hRun with rfl | ⟨shapes, hGraft⟩
  · exact .refl
  · exact touched_of_graft hGraft

end Tree

end Dom

end MarkupMetrics
