import MarkupMetrics.Proofs.Dom.Preorder
import MarkupMetrics.Proofs.Dom.Texts
import MarkupMetrics.Proofs.Html.Insertion

/-
  This file proves that the text of a node is what the text
  nodes below it say, in document order.

  A text node counts if there are only elements and documents
  on the way down to it.  What hangs below a text node or a
  comment is listed among the descendants but not read.

  Key definitions include:
    * `NodeData.isOpen`
    * `Tree.OpenChild`
    * `Tree.ReadFrom`

  Key theorems include:
    * `Tree.Preorder.exists_read`
    * `Tree.exists_read`
    * `Tree.textContent_of_open`
-/

namespace MarkupMetrics

namespace Dom

/- Whether a node has the texts of its children. -/
def NodeData.isOpen : NodeData → Bool
  | .element _ => true
  | .document => true
  | _ => false

theorem NodeData.ownText?_eq_none_iff
    {data : NodeData} :
    data.ownText? = none ↔ data.isOpen = true := by
  cases data <;> simp [ownText?, isOpen]

namespace Tree

open Outcome Relation

------------------------------------------------------------
-- The way down to a text
------------------------------------------------------------

/- Whether an element or the document has this id. -/
def isOpen
    (t : Tree)
    (x : NodeId) : Bool :=
  (t.get? x).any fun n => n.data.isOpen

theorem isOpen_of_get?
    {t : Tree}
    {x : NodeId}
    {n : Node}
    (hNode : t.get? x = some n) :
    t.isOpen x = n.data.isOpen := by
  simp [isOpen, hNode]

/- A node is a child of an element or of a document. -/
def OpenChild
    (t : Tree)
    (x p : NodeId) : Prop :=
  t.IsChild x p ∧ t.isOpen p = true

/-
  A text node stands below another node, and all nodes from
  its parent up to that one are elements or documents.
-/
def ReadFrom
    (t : Tree)
    (x top : NodeId) : Prop :=
  (t.textAt? x).isSome = true ∧ TransGen t.OpenChild x top

variable {t : Tree}
variable {x id : NodeId}

/- What is not open is read from no further down. -/
theorem reaches_closed_iff
    (hClosed : t.isOpen id = false) :
    ReflTransGen t.OpenChild x id ↔ x = id := by
  constructor
  · intro hDown
    rcases hDown.cases_tail with hSame | ⟨c, _, _, hOpen⟩
    · exact hSame.symm
    · rw [hClosed] at hOpen
      cases hOpen
  · rintro rfl
    exact .refl

/- What stands below an open node is below one of its children. -/
theorem below_open_iff
    (hLinked : t.Linked)
    (hOpen : t.isOpen id = true) :
    TransGen t.OpenChild x id ↔
      ∃ c ∈ t.childrenOf id, ReflTransGen t.OpenChild x c := by
  rw [TransGen.tail'_iff]
  constructor
  · rintro ⟨c, hDown, hChild, _⟩
    exact ⟨c, (hLinked.listed c id).mpr hChild, hDown⟩
  · rintro ⟨c, hChild, hDown⟩
    exact
      ⟨c, hDown, (hLinked.listed c id).mp hChild, hOpen⟩

/- A text node is not open. -/
theorem isOpen_of_textAt?
    (hText : (t.textAt? id).isSome = true) :
    t.isOpen id = false := by
  rcases Option.isSome_iff_exists.mp hText with
    ⟨content, hContent⟩
  rcases textAt?_eq_some_iff.mp hContent with
    ⟨n, hNode, hData⟩
  simp [isOpen_of_get? hNode, hData, NodeData.isOpen]

/- The text of a leaf is its content if it is a text node. -/
theorem textAt?_of_ownText?
    {n : Node}
    (hNode : t.get? id = some n)
    {own : String}
    (hOwn : n.data.ownText? = some own) :
    (t.textAt? id).getD "" = own := by
  cases hData : n.data <;>
    simp_all [textAt?, NodeData.ownText?]

------------------------------------------------------------
-- Document order
------------------------------------------------------------

/-
  The text nodes that are read from several subtrees are some
  of the nodes listed there, in the same order, and the text
  is what they say one after the other.

  The rule for texts leaves out what the rule for document
  order lists below a leaf, and goes down with it elsewhere.
-/
theorem Preorder.exists_read
    {tops all : List NodeId}
    {text : String}
    (hLinked : t.Linked)
    (hAll : t.Preorder tops all)
    (hText : t.Reads tops text) :
    ∃ read : List NodeId,
      read.Sublist all ∧
        (∀ x, x ∈ read ↔
          (t.textAt? x).isSome = true ∧
            ∃ top ∈ tops, ReflTransGen t.OpenChild x top) ∧
        text = String.join (read.filterMap t.textAt?) := by
  induction hAll generalizing text with
  | nil =>
      cases hText
      exact ⟨[], .slnil, by simp, rfl⟩
  | @cons id rest below after hLive _ _ ihBelow ihAfter =>
      cases hText with
      | missing hMissing _ =>
          rw [not_contains_iff.mpr hMissing] at hLive
          cases hLive
      | @leaf _ n _ own late hNode hOwn hLate =>
          rcases ihAfter hLate with
            ⟨read, hSub, hRead, rfl⟩
          have hClosed : t.isOpen id = false := by
            rw [isOpen_of_get? hNode, Bool.eq_false_iff]
            intro hOpen
            rw [NodeData.ownText?_eq_none_iff.mpr hOpen] at hOwn
            cases hOwn
          -- The leaf itself counts if it is a text node.
          have hSelf :
              String.join
                  (([id].filter fun x =>
                    (t.textAt? x).isSome).filterMap t.textAt?) =
                own := by
            rw [← textAt?_of_ownText? hNode hOwn]
            cases hContent : t.textAt? id <;> simp [hContent]
          refine
            ⟨[id].filter (fun x => (t.textAt? x).isSome) ++ read,
              List.filter_sublist.append
                (hSub.trans (List.sublist_append_right _ _)),
              ?_, ?_⟩
          · intro x
            rw [List.mem_append, List.mem_filter,
              List.mem_singleton, hRead,
              List.exists_mem_cons_iff,
              reaches_closed_iff hClosed, and_or_left,
              and_comm (a := x = id)]
          · rw [List.filterMap_append, String.join_append, hSelf]
      | @inner _ n _ inside late hNode hOwn hInside hLate =>
          rw [← childrenOf_of_get? hNode] at hInside
          rcases ihBelow hInside with
            ⟨first, hFirstSub, hFirst, rfl⟩
          rcases ihAfter hLate with
            ⟨second, hSecondSub, hSecond, rfl⟩
          have hOpen : t.isOpen id = true := by
            rw [isOpen_of_get? hNode,
              ← NodeData.ownText?_eq_none_iff, hOwn]
          refine
            ⟨first ++ second,
              (hFirstSub.append hSecondSub).cons id, ?_, ?_⟩
          · intro x
            rw [List.mem_append, hFirst, hSecond,
              List.exists_mem_cons_iff,
              ← below_open_iff hLinked hOpen,
              reflTransGen_iff_eq_or_transGen]
            constructor
            · rintro (⟨hIsText, hDown⟩ | ⟨hIsText, hLater⟩)
              · exact ⟨hIsText, Or.inl (Or.inr hDown)⟩
              · exact ⟨hIsText, Or.inr hLater⟩
            · rintro ⟨hIsText, (rfl | hDown) | hLater⟩
              · rw [isOpen_of_textAt? hIsText] at hOpen
                cases hOpen
              · exact Or.inl ⟨hIsText, hDown⟩
              · exact Or.inr ⟨hIsText, hLater⟩
          · rw [List.filterMap_append, String.join_append]

/- A text node has its content, and what else is not open none. -/
theorem textContent_of_closed
    (hLinked : t.Linked)
    (hClosed : t.isOpen id = false) :
    t.textContent id = .ok ((t.textAt? id).getD "") := by
  rcases exists_textContent hLinked id with ⟨text, hText⟩
  rw [hText]
  cases (textContent_eq_ok_iff hLinked).mp hText with
  | missing hMissing hAfter =>
      cases hAfter
      simp [textAt?, hMissing]
  | leaf hNode hOwn hAfter =>
      cases hAfter
      rw [textAt?_of_ownText? hNode hOwn, String.append_empty]
  | inner hNode hOwn _ _ =>
      rw [isOpen_of_get? hNode,
        NodeData.ownText?_eq_none_iff.mp hOwn] at hClosed
      cases hClosed

/-
  The text of any node is its own content, if it is a text
  node, and then that of the text nodes read from it, in the
  order in which they are among its descendants.
-/
theorem exists_read
    (hLinked : t.Linked)
    (id : NodeId) :
    ∃ below read : List NodeId,
      t.descendants id = .ok below ∧ below.Nodup ∧
        read.Sublist below ∧
        (∀ x, x ∈ read ↔ t.ReadFrom x id) ∧
        t.textContent id =
          .ok
            ((t.textAt? id).getD "" ++
              String.join (read.filterMap t.textAt?)) := by
  rcases exists_descendants hLinked id with ⟨below, hBelow⟩
  have hNodup := nodup_of_descendants hLinked hBelow
  cases hOpen : t.isOpen id with
  | false =>
      refine
        ⟨below, [], hBelow, hNodup, List.nil_sublist below, ?_,
          ?_⟩
      · intro x
        have hNowhere : ¬ TransGen t.OpenChild x id := by
          rw [TransGen.tail'_iff]
          rintro ⟨c, _, _, hOther⟩
          rw [hOpen] at hOther
          cases hOther
        simp [ReadFrom, hNowhere]
      · rw [textContent_of_closed hLinked hOpen]
        simp
  | true =>
      rcases exists_textContent hLinked id with ⟨text, hText⟩
      rcases Option.any_eq_true _ _ |>.mp hOpen with
        ⟨n, hNode, hData⟩
      have hReads := (textContent_eq_ok_iff hLinked).mp hText
      rw [reads_inner_iff hNode
        (NodeData.ownText?_eq_none_iff.mpr hData),
        ← childrenOf_of_get? hNode] at hReads
      rcases
        (preorder_of_descendants hBelow).exists_read hLinked
          hReads with
        ⟨read, hSub, hRead, rfl⟩
      refine ⟨below, read, hBelow, hNodup, hSub, ?_, ?_⟩
      · intro x
        rw [hRead, ReadFrom, below_open_iff hLinked hOpen]
      · have hNone : t.textAt? id = none := by
          rw [← Option.not_isSome_iff_eq_none]
          intro hIsText
          rw [isOpen_of_textAt? hIsText] at hOpen
          cases hOpen
        rw [hText, hNone, Option.getD_none, String.empty_append]

------------------------------------------------------------
-- Child by child
------------------------------------------------------------

/- The text of a row is what its nodes have each by itself. -/
theorem exists_texts
    (hLinked : t.Linked)
    (ids : List NodeId) :
    ∃ texts,
      ids.mapM t.textContent = .ok texts ∧
        t.Reads ids (String.join texts) := by
  induction ids with
  | nil => exact ⟨[], rfl, .nil⟩
  | cons id rest ih =>
      rcases exists_textContent hLinked id with ⟨own, hOwn⟩
      rcases ih with ⟨texts, hTexts, hRest⟩
      refine ⟨own :: texts, ?_, ?_⟩
      · rw [List.mapM_cons, hOwn, ok_bind, hTexts]
        rfl
      · rw [String.join_cons, ← List.singleton_append]
        exact
          ((textContent_eq_ok_iff hLinked).mp hOwn).append hRest

/- An element or a document has the texts of its children. -/
theorem textContent_of_open
    (hLinked : t.Linked)
    (hOpen : t.isOpen id = true) :
    ∃ texts,
      (t.childrenOf id).mapM t.textContent = .ok texts ∧
        t.textContent id = .ok (String.join texts) := by
  rcases Option.any_eq_true _ _ |>.mp hOpen with
    ⟨n, hNode, hData⟩
  rcases exists_texts hLinked (t.childrenOf id) with
    ⟨texts, hTexts, hReads⟩
  refine ⟨texts, hTexts, ?_⟩
  rw [textContent_eq_ok_iff hLinked,
    reads_inner_iff hNode
      (NodeData.ownText?_eq_none_iff.mpr hData),
    ← childrenOf_of_get? hNode]
  exact hReads

end Tree

end Dom

end MarkupMetrics
