import MarkupMetrics.Document.Basic
import MarkupMetrics.Proofs.Selector.Finding

/-
  This file proves how the listeners of a document change.

  Whatever is done to a document, what is left of the old
  listeners keeps its order, and new ones follow it with
  numbers never used before.  So the list of listeners is in
  increasing order of their numbers, which is the order of
  attaching.

  Key definitions include:
    * `Delegation.ofText`
    * `Document.attached`
    * `Document.Succeeds`
    * `Document.Numbered`

  Key theorems include:
    * `Document.attach_gives_iff`
    * `Document.Succeeds.trans`
    * `Document.Succeeds.mem_old_iff`
    * `Document.Numbered.succeeds`
-/

namespace MarkupMetrics

open Dom

/- The delegation by what a text stands for. -/
def Delegation.ofText
    (source : String) : Delegation :=
  ⟨source, (Selector.parse source).toOption⟩

/- A delegation keeps the text that it was read from. -/
theorem Delegation.source_ofText
    (source : Option String) :
    (source.map ofText).map (·.source) = source := by
  cases source with
  | none => rfl
  | some text => rfl

namespace Document

variable {η : Type}

------------------------------------------------------------
-- Attaching
------------------------------------------------------------

/-
  A document after a listener was attached, or was not for
  want of its node.
-/
def attached
    (d : Document η)
    (node : NodeId)
    (event : String)
    (delegation : Option Delegation)
    (handler : η) : Document η :=
  { d with
    listeners :=
      if d.tree.contains node then
        d.listeners ++
          [⟨d.nextListener, node, event, delegation, handler⟩]
      else d.listeners
    nextListener := d.nextListener + 1 }

/- What is attached then: the old ones, and maybe a new one. -/
theorem mem_attached_iff
    {d : Document η}
    {node : NodeId}
    {event : String}
    {delegation : Option Delegation}
    {handler : η}
    {l : Listener η} :
    l ∈ (d.attached node event delegation handler).listeners ↔
      l ∈ d.listeners ∨
        d.tree.contains node = true ∧
          l =
            ⟨d.nextListener, node, event, delegation,
              handler⟩ := by
  unfold attached
  cases hLive : d.tree.contains node with
  | true => simp
  | false => simp

theorem attach_gives_iff
    {d : Document η}
    {node : NodeId}
    {event : String}
    {delegation : Option Delegation}
    {handler : η}
    {result : Document η × Nat} :
    (d.attach node event delegation handler).Gives result ↔
      result =
        (d.attached node event delegation handler,
          d.nextListener) := by
  unfold attach attached
  cases hLive : d.tree.contains node with
  | true =>
      simp only [hLive, if_true, Trace.gives_pure_iff]
      exact eq_comm
  | false =>
      simp only [hLive, Bool.false_eq_true, if_false,
        Trace.gives_note_bind_iff, Trace.gives_pure_iff]
      exact eq_comm

theorem bind_gives_iff
    {d : Document η}
    {node : NodeId}
    {event : String}
    {handler : η}
    {result : Document η × Nat} :
    (d.bind node event handler).Gives result ↔
      result =
        (d.attached node event none handler,
          d.nextListener) :=
  attach_gives_iff

theorem delegate_gives_iff
    {d : Document η}
    {node : NodeId}
    {source event : String}
    {handler : η}
    {result : Document η × Nat} :
    (d.delegate node source event handler).Gives result ↔
      result =
        (d.attached node event (some (.ofText source)) handler,
          d.nextListener) := by
  unfold delegate
  rw [Trace.gives_bind_iff]
  constructor
  · rintro ⟨selector, hRead, hAttach⟩
    rw [Selector.read?_gives_iff] at hRead
    rw [attach_gives_iff, hRead] at hAttach
    exact hAttach
  · intro hResult
    refine
      ⟨(Selector.parse source).toOption,
        Selector.read?_gives_iff.mpr rfl, ?_⟩
    exact attach_gives_iff.mpr hResult

------------------------------------------------------------
-- Succession
------------------------------------------------------------

/-
  One document comes after another: of the old listeners some
  are left, and the new ones were attached after them, with
  their selectors read from their texts.
-/
structure Succeeds
    (d d' : Document η) : Prop where
  counter : d.nextListener ≤ d'.nextListener
  listeners :
    ∃ kept new,
      d'.listeners = kept ++ new ∧
        kept.Sublist d.listeners ∧
          new.Pairwise (fun l m => l.id < m.id) ∧
            ∀ l ∈ new,
              d.nextListener ≤ l.id ∧
                l.id < d'.nextListener ∧
                  l.delegation =
                    l.source?.map Delegation.ofText

namespace Succeeds

variable {d d' d'' : Document η}

/- Nothing is attached, and maybe something detached. -/
theorem ofSublist
    (hCounter : d'.nextListener = d.nextListener)
    (hKept : d'.listeners.Sublist d.listeners) :
    Succeeds d d' where
  counter := Nat.le_of_eq hCounter.symm
  listeners :=
    ⟨d'.listeners, [], by simp, hKept, List.Pairwise.nil,
      by simp⟩

theorem refl
    (d : Document η) :
    Succeeds d d :=
  ofSublist rfl (List.Sublist.refl _)

theorem attached
    (d : Document η)
    (node : NodeId)
    (event : String)
    (source : Option String)
    (handler : η) :
    Succeeds d
      (d.attached node event (source.map Delegation.ofText)
        handler) where
  counter := Nat.le_succ _
  listeners := by
    unfold Document.attached
    cases hLive : d.tree.contains node with
    | false =>
        exact
          ⟨d.listeners, [], by simp, List.Sublist.refl _,
            List.Pairwise.nil, by simp⟩
    | true =>
        refine
          ⟨d.listeners, [_], rfl, List.Sublist.refl _,
            List.pairwise_singleton _ _, ?_⟩
        intro l hMember
        have hNew := List.mem_singleton.mp hMember
        subst hNew
        refine ⟨Nat.le_refl _, Nat.lt_succ_self _, ?_⟩
        cases source with
        | none => rfl
        | some text => rfl

theorem detach
    (d : Document η)
    (node : NodeId)
    (event : String)
    (source : Option String)
    (id : Nat) :
    Succeeds d (d.detach node event source id) :=
  ofSublist rfl List.filter_sublist

theorem trans
    (hFirst : Succeeds d d')
    (hSecond : Succeeds d' d'') :
    Succeeds d d'' where
  counter := Nat.le_trans hFirst.counter hSecond.counter
  listeners := by
    rcases hFirst.listeners with
      ⟨kept, new, hList, hKept, hOrder, hNew⟩
    rcases hSecond.listeners with
      ⟨kept', new', hList', hKept', hOrder', hNew'⟩
    rw [hList, List.sublist_append_iff] at hKept'
    rcases hKept' with ⟨old, middle, rfl, hOld, hMiddle⟩
    refine
      ⟨old, middle ++ new', by rw [hList', List.append_assoc],
        hOld.trans hKept, ?_, ?_⟩
    · rw [List.pairwise_append]
      refine ⟨hOrder.sublist hMiddle, hOrder', ?_⟩
      intro l hEarlier m hLater
      have hBelow := (hNew l (hMiddle.subset hEarlier)).2.1
      have hAbove := (hNew' m hLater).1
      omega
    · intro l hMember
      have hCounter := hFirst.counter
      have hCounter' := hSecond.counter
      rcases List.mem_append.mp hMember with hEarlier | hLater
      · have hRange := hNew l (hMiddle.subset hEarlier)
        exact ⟨hRange.1, by omega, hRange.2.2⟩
      · have hRange := hNew' l hLater
        exact ⟨by omega, hRange.2.1, hRange.2.2⟩

end Succeeds

------------------------------------------------------------
-- Numbering
------------------------------------------------------------

/-
  The listeners are in the order of their numbers, all of
  which were given out, and their selectors were read from
  their texts.
-/
structure Numbered
    (d : Document η) : Prop where
  increasing : d.listeners.Pairwise fun l m => l.id < m.id
  below : ∀ l ∈ d.listeners, l.id < d.nextListener
  read :
    ∀ l ∈ d.listeners,
      l.delegation = l.source?.map Delegation.ofText

theorem numbered_ofTree
    (t : Tree) :
    (ofTree t : Document η).Numbered where
  increasing := List.Pairwise.nil
  below := by simp [ofTree]
  read := by simp [ofTree]

theorem Numbered.succeeds
    {d d' : Document η}
    (hNumbered : d.Numbered)
    (hAfter : Succeeds d d') :
    d'.Numbered := by
  have hCounter := hAfter.counter
  rcases hAfter.listeners with
    ⟨kept, new, hList, hKept, hOrder, hNew⟩
  constructor
  · rw [hList, List.pairwise_append]
    refine
      ⟨hNumbered.increasing.sublist hKept, hOrder, ?_⟩
    intro l hOld m hLater
    have hBelow := hNumbered.below l (hKept.subset hOld)
    have hAbove := (hNew m hLater).1
    omega
  · intro l hMember
    rw [hList] at hMember
    rcases List.mem_append.mp hMember with hOld | hLater
    · have hBelow := hNumbered.below l (hKept.subset hOld)
      omega
    · exact (hNew l hLater).2.1
  · intro l hMember
    rw [hList] at hMember
    rcases List.mem_append.mp hMember with hOld | hLater
    · exact hNumbered.read l (hKept.subset hOld)
    · exact (hNew l hLater).2.2

/-
  The numbers tell which listeners were there before: those
  that the counter had passed by then.
-/
theorem Succeeds.mem_old_iff
    {d d' : Document η}
    (hAfter : Succeeds d d')
    (hNumbered : d.Numbered)
    {l : Listener η}
    (hMember : l ∈ d'.listeners) :
    l.id < d.nextListener ↔ l ∈ d.listeners := by
  constructor
  · intro hBelow
    rcases hAfter.listeners with
      ⟨kept, new, hList, hKept, _, hNew⟩
    rw [hList] at hMember
    rcases List.mem_append.mp hMember with hOld | hLater
    · exact hKept.subset hOld
    · have hAbove := (hNew l hLater).1
      omega
  · exact hNumbered.below l

end Document

end MarkupMetrics
