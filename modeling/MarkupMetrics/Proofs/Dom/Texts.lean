import MarkupMetrics.Proofs.Dom.Climb

/-
  This file describes the text of nodes by a rule that has no
  fuel: a leaf has its own text, any other node that of its
  children one after the other.

  So the text of a node depends on no more than the nodes
  below it, and it stays the same where those do.

  Key definitions include:
    * `NodeData.ownText?`
    * `Tree.Reads`

  Key theorems include:
    * `Tree.Reads.unique`
    * `Tree.Reads.congr`
    * `Tree.textContent_eq_ok_iff`
    * `Tree.textOfAll_eq_ok_iff`
-/

namespace MarkupMetrics

namespace Dom

/- The text of a node by itself, if it is a leaf. -/
def NodeData.ownText? : NodeData → Option String
  | .text content => some content
  | .comment => some ""
  | .element _ => none
  | .document => none

namespace Tree

open Outcome

------------------------------------------------------------
-- The rule
------------------------------------------------------------

/- The text of several nodes in a row. -/
inductive Reads
    (t : Tree) : List NodeId → String → Prop where
  | nil : Reads t [] ""
  | missing
      {id : NodeId}
      {rest : List NodeId}
      {after : String}
      (hMissing : t.get? id = none)
      (hAfter : Reads t rest after) :
      Reads t (id :: rest) after
  | leaf
      {id : NodeId}
      {n : Node}
      {rest : List NodeId}
      {own after : String}
      (hNode : t.get? id = some n)
      (hOwn : n.data.ownText? = some own)
      (hAfter : Reads t rest after) :
      Reads t (id :: rest) (own ++ after)
  | inner
      {id : NodeId}
      {n : Node}
      {rest : List NodeId}
      {below after : String}
      (hNode : t.get? id = some n)
      (hOwn : n.data.ownText? = none)
      (hBelow : Reads t n.children below)
      (hAfter : Reads t rest after) :
      Reads t (id :: rest) (below ++ after)

namespace Reads

variable {t t' : Tree}
variable {ids ids' : List NodeId}
variable {text text' : String}

/- The rule leaves no choice. -/
theorem unique
    (hText : t.Reads ids text)
    (hOther : t.Reads ids text') :
    text = text' := by
  induction hText generalizing text' with
  | nil =>
      cases hOther
      rfl
  | missing hMissing _ ih =>
      cases hOther with
      | missing _ hAfter => exact ih hAfter
      | leaf hNode _ _ => simp [hMissing] at hNode
      | inner hNode _ _ _ => simp [hMissing] at hNode
  | leaf hNode hOwn _ ih =>
      cases hOther with
      | missing hMissing _ => simp [hMissing] at hNode
      | leaf hNode' hOwn' hAfter =>
          rw [hNode] at hNode'
          cases hNode'
          rw [hOwn] at hOwn'
          cases hOwn'
          rw [ih hAfter]
      | inner hNode' hOwn' _ _ =>
          rw [hNode] at hNode'
          cases hNode'
          simp [hOwn] at hOwn'
  | inner hNode hOwn _ _ ihBelow ihAfter =>
      cases hOther with
      | missing hMissing _ => simp [hMissing] at hNode
      | leaf hNode' hOwn' _ =>
          rw [hNode] at hNode'
          cases hNode'
          simp [hOwn] at hOwn'
      | inner hNode' _ hBelow hAfter =>
          rw [hNode] at hNode'
          cases hNode'
          rw [ihBelow hBelow, ihAfter hAfter]

/- The text of a row is that of its parts. -/
theorem append
    (hFirst : t.Reads ids text)
    (hSecond : t.Reads ids' text') :
    t.Reads (ids ++ ids') (text ++ text') := by
  induction hFirst with
  | nil => simpa using hSecond
  | missing hMissing _ ih => exact .missing hMissing ih
  | leaf hNode hOwn _ ih =>
      rw [String.append_assoc]
      exact .leaf hNode hOwn ih
  | inner hNode hOwn hBelow _ _ ih =>
      rw [String.append_assoc]
      exact .inner hNode hOwn hBelow ih

/-
  A text stays the same if the nodes do that it is read from.
  These may be told by any property that is kept on the way
  down.
-/
theorem congr
    {P : NodeId → Prop}
    (hDown : ∀ x, P x → ∀ c ∈ t.childrenOf x, P c)
    (hSame : ∀ x, P x → t'.get? x = t.get? x)
    (hText : t.Reads ids text)
    (hIds : ∀ x ∈ ids, P x) :
    t'.Reads ids text := by
  induction hText with
  | nil => exact .nil
  | missing hMissing _ ih =>
      rcases List.forall_mem_cons.mp hIds with
        ⟨hFirst, hRest⟩
      exact
        .missing ((hSame _ hFirst).trans hMissing) (ih hRest)
  | leaf hNode hOwn _ ih =>
      rcases List.forall_mem_cons.mp hIds with
        ⟨hFirst, hRest⟩
      exact
        .leaf ((hSame _ hFirst).trans hNode) hOwn (ih hRest)
  | inner hNode hOwn _ _ ihBelow ihAfter =>
      rcases List.forall_mem_cons.mp hIds with
        ⟨hFirst, hRest⟩
      refine
        .inner ((hSame _ hFirst).trans hNode) hOwn
          (ihBelow ?_) (ihAfter hRest)
      rw [← childrenOf_of_get? hNode]
      exact hDown _ hFirst

/- Adding one text after the other is reading by the rule. -/
theorem of_foldlM
    {read : NodeId → Except Fault String}
    (hRead :
      ∀ id own rest after,
        read id = .ok own → t.Reads rest after →
          t.Reads (id :: rest) (own ++ after))
    {acc : String}
    (hRun :
      ids.foldlM (fun acc id => do return acc ++ (← read id))
        acc = .ok text) :
    ∃ below, text = acc ++ below ∧ t.Reads ids below := by
  induction ids generalizing acc with
  | nil =>
      rw [List.foldlM_nil, pure_eq_ok_iff] at hRun
      exact ⟨"", by simp [hRun], .nil⟩
  | cons id rest ih =>
      rw [List.foldlM_cons, bind_eq_ok_iff] at hRun
      rcases hRun with ⟨middle, hFirst, hRest⟩
      rcases bind_eq_ok_iff.mp hFirst with ⟨own, hOwn, hDone⟩
      rw [pure_eq_ok_iff] at hDone
      rcases ih hRest with ⟨after, hText, hAfter⟩
      refine
        ⟨own ++ after, ?_, hRead id own rest after hOwn hAfter⟩
      rw [hText, ← hDone, String.append_assoc]

end Reads

------------------------------------------------------------
-- The loop
------------------------------------------------------------

/- What the loop down finds is what the rule gives. -/
theorem reads_of_textBelow
    {t : Tree}
    (fuel : Nat)
    {id : NodeId}
    {own after : String}
    {rest : List NodeId}
    (hRun : t.textBelow fuel id = .ok own)
    (hAfter : t.Reads rest after) :
    t.Reads (id :: rest) (own ++ after) := by
  induction fuel generalizing id own rest after with
  | zero =>
      cases hLive : t.contains id with
      | true => simp [textBelow, hLive] at hRun
      | false =>
          simp only [textBelow, hLive] at hRun
          cases hRun
          rw [String.empty_append]
          exact .missing (not_contains_iff.mp hLive) hAfter
  | succ fuel ih =>
      cases hNode : t.get? id with
      | none =>
          simp only [textBelow, hNode] at hRun
          cases hRun
          rw [String.empty_append]
          exact .missing hNode hAfter
      | some n =>
          have hInner
              (hOwn : n.data.ownText? = none)
              (hLoop :
                n.children.foldlM
                  (fun acc c => do
                    return acc ++ (← t.textBelow fuel c)) "" =
                  .ok own) :
              t.Reads (id :: rest) (own ++ after) := by
            rcases
              Reads.of_foldlM
                (fun c own rest after => ih) hLoop with
              ⟨below, hText, hBelow⟩
            rw [hText, String.empty_append]
            exact .inner hNode hOwn hBelow hAfter
          cases hData : n.data with
          | text content =>
              simp only [textBelow, hNode, hData] at hRun
              cases hRun
              exact .leaf hNode (by simp [hData, NodeData.ownText?]) hAfter
          | comment =>
              simp only [textBelow, hNode, hData] at hRun
              cases hRun
              exact .leaf hNode (by simp [hData, NodeData.ownText?]) hAfter
          | element e =>
              simp only [textBelow, hNode, hData] at hRun
              exact hInner (by simp [hData, NodeData.ownText?]) hRun
          | document =>
              simp only [textBelow, hNode, hData] at hRun
              exact hInner (by simp [hData, NodeData.ownText?]) hRun

/- The text of a node is what the rule gives for it alone. -/
theorem textContent_eq_ok_iff
    {t : Tree}
    (hLinked : t.Linked)
    {id : NodeId}
    {text : String} :
    t.textContent id = .ok text ↔ t.Reads [id] text := by
  have hSound :
      ∀ found, t.textContent id = .ok found →
        t.Reads [id] found := by
    intro found hRun
    simpa using reads_of_textBelow _ hRun .nil
  constructor
  · exact hSound text
  · intro hText
    rcases exists_textContent hLinked id with ⟨found, hRun⟩
    rw [hRun, (hSound found hRun).unique hText]

/- The same holds of several nodes. -/
theorem textOfAll_eq_ok_iff
    {t : Tree}
    (hLinked : t.Linked)
    {ids : List NodeId}
    {text : String} :
    t.textOfAll ids = .ok text ↔ t.Reads ids text := by
  have hSound :
      ∀ found, t.textOfAll ids = .ok found →
        t.Reads ids found := by
    intro found hRun
    rcases
      Reads.of_foldlM
        (fun id own rest after hOwn hAfter =>
          reads_of_textBelow _ hOwn hAfter) hRun with
      ⟨below, hText, hBelow⟩
    rw [hText, String.empty_append]
    exact hBelow
  constructor
  · exact hSound text
  · intro hText
    rcases exists_textOfAll hLinked ids with ⟨found, hRun⟩
    rw [hRun, (hSound found hRun).unique hText]

/- The text of an inner node is that of its children. -/
theorem reads_inner_iff
    {t : Tree}
    {id : NodeId}
    {n : Node}
    (hNode : t.get? id = some n)
    (hOwn : n.data.ownText? = none)
    {text : String} :
    t.Reads [id] text ↔ t.Reads n.children text := by
  constructor
  · intro hText
    cases hText with
    | missing hMissing _ => simp [hMissing] at hNode
    | leaf hNode' hOwn' _ =>
        rw [hNode] at hNode'
        cases hNode'
        simp [hOwn] at hOwn'
    | inner hNode' _ hBelow hAfter =>
        rw [hNode] at hNode'
        cases hNode'
        cases hAfter
        rw [String.append_empty]
        exact hBelow
  · intro hBelow
    simpa using Reads.inner hNode hOwn hBelow .nil

end Tree

end Dom

end MarkupMetrics
