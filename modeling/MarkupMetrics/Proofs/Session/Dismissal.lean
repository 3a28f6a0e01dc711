import MarkupMetrics.Proofs.Registry.Dismissal
import MarkupMetrics.Proofs.Session.Registering
import MarkupMetrics.Provider.Samples
import Mathlib

/-
  This file proves that the providers of a session can be
  taken out in any order, and that this is what it means to
  clear the registry.

  Key definitions include:
    * `Session.removal`
    * `Session.cleared`

  Key theorems include:
    * `Session.acts_removals`
    * `Session.removals_in_any_order`
-/

namespace MarkupMetrics

open Dom

namespace Session

/- Take a provider out. -/
def removal
    (name : String) : Action :=
  .operation (.registry (.removeProvider name))

/- A session without providers and without their listeners. -/
def cleared
    (s : Session) : Session :=
  s.withPage
    (s.page.without (s.registry.entries.flatMap (·.bindings)))
    { s.registry with entries := [] }

/- What taking a provider out makes of a session. -/
theorem act_removal
    (s : Session)
    (name : String) :
    s.act (removal name) =
      .ok
        (s.withPage (s.registry.dismissed s.page [name]).1
          (s.registry.dismissed s.page [name]).2) := by
  rcases s.step_removeProvider name with ⟨reports, hStep⟩
  rw [← Registry.evicted_eq_dismissed, removal, act, hStep]
  rfl

/-
  Taking providers out one after the other is taking them out
  together.
-/
theorem acts_removals
    (s : Session)
    (names : List String) :
    s.acts (names.map removal) =
      .ok
        (s.withPage (s.registry.dismissed s.page names).1
          (s.registry.dismissed s.page names).2) := by
  induction names generalizing s with
  | nil =>
      rw [Registry.dismissed_nil]
      rfl
  | cons name rest ih =>
      have hParts :=
        s.registry.dismissed_append s.page [name] rest
      rw [List.singleton_append] at hParts
      rw [List.map_cons, acts_cons, act_removal,
        Outcome.ok_bind, ih, ← hParts]
      rfl

/-
  Two providers can be taken out in either order.  All of them
  can in any order, at once or after their listeners were
  detached, which comes to the same as clearing the registry.
  None of this fails.
-/
theorem removals_in_any_order
    (s : Session) :
    (∀ a b, ∃ s',
      s.acts [removal a, removal b] = .ok s' ∧
        s.acts [removal b, removal a] = .ok s' ∧
        s'.page =
          s.page.without (s.registry.heldBy [a, b]) ∧
        s'.registry =
          { s.registry with
            entries :=
              s.registry.entries.filter fun e =>
                e.shortName ≠ a ∧ e.shortName ≠ b }) ∧
      ∀ order : List String,
        order.Perm s.registry.names →
          s.act (.operation (.registry .clear)) =
              .ok s.cleared ∧
            s.acts (order.map removal) = .ok s.cleared ∧
            s.acts
                (.operation (.registry (.unbind none)) ::
                  order.map removal) =
              .ok s.cleared := by
  constructor
  · intro a b
    have hSwap :
        s.registry.dismissed s.page [b, a] =
          s.registry.dismissed s.page [a, b] := by
      apply Registry.dismissed_congr
      intro name _
      simp [or_comm]
    refine
      ⟨_, s.acts_removals [a, b],
        hSwap ▸ s.acts_removals [b, a], rfl, ?_⟩
    simp only [withPage, Registry.dismissed]
    congr 1
    apply List.filter_congr
    intro e _
    simp
  · intro order hOrder
    have hAll :
        ∀ e ∈ s.registry.entries, e.shortName ∈ order :=
      fun e hEntry =>
        hOrder.mem_iff.mpr (List.mem_map_of_mem hEntry)
    have hClear :
        s.withPage (s.registry.clear s.page).1
            (s.registry.clear s.page).2 =
          s.cleared := by
      rw [Registry.clear_eq]
      rfl
    have hUnbind :
        s.act (.operation (.registry (.unbind none))) =
          .ok
            (s.withPage (s.registry.unbind s.page none).1
              (s.registry.unbind s.page none).2) :=
      rfl
    refine ⟨?_, ?_, ?_⟩
    · rw [← hClear]
      rfl
    · rw [acts_removals, Registry.dismissed_all _ hAll, hClear]
    · rw [acts_cons, hUnbind, Outcome.ok_bind, acts_removals,
        ← hClear, ← Registry.dismissed_unbound s.page hAll]
      rfl

/-
  An element is bound for two providers and removed, and its
  id is given to another one, which is bound for the second
  provider and by the page.  In whatever way the providers
  are taken out, the listener of the page is left.
-/
theorem removals_with_reused_id :
    ∃ s earlier s',
      History Permits (s :: earlier) ∧
        s.registry.names = ["P", "Q"] ∧
        s.registry.entries.map
            (fun e => e.bindings.map (·.listener)) =
          [[0], [1, 2]] ∧
        s.page.listeners.map (·.id) = [2, 3] ∧
        s.acts [removal "P", removal "Q"] = .ok s' ∧
        s.acts [removal "Q", removal "P"] = .ok s' ∧
        s'.page.listeners.map (·.id) = [3] ∧
        s.act (.operation (.registry .clear)) =
          .ok s.cleared ∧
        s.acts (["Q", "P"].map removal) = .ok s.cleared ∧
        s.cleared.page.listeners.map (·.id) = [3] := by
  let attrs : List (String × String) :=
    [("data-metric-event", "e"), ("data-P-method", "test"),
      ("data-Q-method", "test")]
  let root (children : List NodeId) : Option Node :=
    some { id := 0, children, data := .document }
  let box (parent : Option NodeId) : Option Node :=
    some
      { id := 1, parent
        data :=
          .element
            ⟨.html "i", attrs.map fun a => .plain a.1 a.2⟩ }
  let linked : Tree := ⟨#[root [1], box (some 0)], []⟩
  let own (id number : Nat) (name : String) :
      Listener Handler :=
    ⟨id, 1, "e", none,
      .provided ⟨0, number, name⟩ .always
        (Provider.countingHandler ⟨0, number, name⟩)⟩
  let other : Listener Handler :=
    ⟨3, 1, "e", none, .recorder "other"⟩
  let entry (number : Nat) (name : String)
      (ids : List Nat) : Entry :=
    { provider := .counting name, number
      bindings := ids.map fun id => ⟨1, "e", none, id⟩ }
  let bare (nodes : List (Option Node)) : Session :=
    start (Document.ofTree ⟨nodes.toArray, []⟩) {}
  let state (tree : Tree) (nextListener : Nat)
      (listeners : List (Listener Handler))
      (entries : List Entry) : Session :=
    { page := { tree, listeners, nextListener }
      registry := { number := 0, config := {}, entries }
      initial := {}
      providers := entries.map fun _ => ⟨true, 0⟩ }
  let both : List Entry := [entry 0 "P" [0], entry 1 "Q" [1]]
  have h₀ : History Permits [bare [root []]] := .start {}
  have h₁ :=
    h₀.step (.operation (.page (.createElement "i" attrs)))
      (bare [root [], box none]) trivial rfl
  have h₂ :=
    h₁.step (.build (.append 0 (.node 1)))
      (bare [root [1], box (some 0)])
      (permits_build h₁.linked_last (by decide)) rfl
  have h₃ :=
    h₂.step
      (.operation
        (.registry (.addProvider (.counting "P") true)))
      (state linked 1 [own 0 0 "P"] [entry 0 "P" [0]])
      trivial (by cbv)
  have h₄ :=
    h₃.step
      (.operation
        (.registry (.addProvider (.counting "Q") true)))
      (state linked 2 [own 0 0 "P", own 1 1 "Q"] both) trivial
      (by cbv)
  have h₅ :=
    h₄.step (.operation (.page (.remove 1)))
      (state ⟨#[root [], none], [1]⟩ 2 [] both) trivial
      (by cbv)
  have h₆ :=
    h₅.step (.operation (.page (.createElement "i" attrs)))
      (state ⟨#[root [], box none], []⟩ 2 [] both) trivial rfl
  have h₇ :=
    h₆.step (.build (.append 0 (.node 1)))
      (state linked 2 [] both)
      (permits_build h₆.linked_last (by decide)) rfl
  have h₈ :=
    h₇.step (.operation (.registry (.parseFor "Q" none)))
      (state linked 3 [own 2 1 "Q"]
        [entry 0 "P" [0], entry 1 "Q" [1, 2]]) trivial (by cbv)
  have h₉ :=
    h₈.step (.operation (.page (.bind 1 "e" "other")))
      (state linked 4 [own 2 1 "Q", other]
        [entry 0 "P" [0], entry 1 "Q" [1, 2]]) trivial rfl
  rcases removals_in_any_order
      (state linked 4 [own 2 1 "Q", other]
        [entry 0 "P" [0], entry 1 "Q" [1, 2]]) with
    ⟨hSwap, hAll⟩
  rcases hSwap "P" "Q" with ⟨s', hOne, hOther, hPage, _⟩
  rcases hAll ["Q", "P"] (.swap "P" "Q" []) with
    ⟨hClear, hRemovals, _⟩
  refine
    ⟨_, _, s', h₉, rfl, rfl, rfl, hOne, hOther, ?_, hClear,
      hRemovals, rfl⟩
  rw [hPage]
  rfl

end Session

end MarkupMetrics
