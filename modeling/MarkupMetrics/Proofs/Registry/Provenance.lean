import MarkupMetrics.Proofs.Provider.Building
import MarkupMetrics.Proofs.Registry.Binding

/-
  This file proves where the listeners of providers come
  from: each that a scan attaches is recorded, and its handler
  was built from what its element says at that moment.

  Key definitions include:
    * `Registry.Attached`

  Key theorems include:
    * `Registry.attached_of_binds`
    * `Registry.attached_of_bindings`
-/

namespace MarkupMetrics

open Dom

namespace Registry

/-
  A listener is one of a provider.  The provider has recorded
  it and has built its raw handler, its element has declared
  its event, and its guard was made from the condition of the
  element.
-/
structure Attached
    (r : Registry)
    (t : Tree)
    (l : Listener Handler)
    (cx : Context)
    (guard : Guard)
    (raw : RawHandler) : Prop where
  handler : l.handler = .provided cx guard raw
  recorded :
    ∃ e ∈ r.entries,
      cx = r.context e ∧
        ⟨l.node, l.event, l.source?, l.id⟩ ∈ e.bindings ∧
          e.provider.Builds cx r.config.debug t l.node raw
  declared :
    (t.attr? l.node r.config.eventAttribute).bind
        declaredEvent? =
      some (l.event, l.source?)
  guarded :
    (Guard.ofText cx.origin
      (t.attr? l.node r.config.conditionAttribute)).Gives guard

/- Further listeners do not matter to those attached. -/
theorem Attached.binds
    {only : Option String}
    {w w' : Page × Registry}
    {l : Listener Handler}
    {cx : Context}
    {guard : Guard}
    {raw : RawHandler}
    (hAttached : w.2.Attached w.1.tree l cx guard raw)
    (hStep : Binds only w w') :
    w'.2.Attached w'.1.tree l cx guard raw := by
  cases hStep with
  | step page r before after e d h hEntries =>
      rcases hAttached.recorded with
        ⟨e', hEntry, hContext, hBinding, hBuilds⟩
      refine
        ⟨hAttached.handler, ?_, hAttached.declared,
          hAttached.guarded⟩
      simp only [hEntries, List.mem_append, List.mem_cons]
        at hEntry
      rcases hEntry with hBefore | rfl | hAfter
      · exact
          ⟨e', by simp [hBefore], hContext, hBinding, hBuilds⟩
      · exact
          ⟨e'.bound (d.binding page.nextListener), by simp,
            hContext, List.mem_append_left _ hBinding,
            hBuilds⟩
      · exact
          ⟨e', by simp [hAfter], hContext, hBinding, hBuilds⟩

/- A step of a scan attaches a listener of a provider. -/
theorem attached_of_binds
    {only : Option String}
    {w w' : Page × Registry}
    {l : Listener Handler}
    (hStep : Binds only w w')
    (hMember : l ∈ w'.1.listeners) :
    l ∈ w.1.listeners ∨
      ∃ cx guard raw,
        w'.2.Attached w'.1.tree l cx guard raw := by
  cases hStep with
  | step page r before after e d h _ _ _ hRead hBuilt =>
      rw [Document.mem_attached_iff] at hMember
      rcases hMember with hOld | ⟨_, rfl⟩
      · exact Or.inl hOld
      · rcases Provider.buildHandler_gives hBuilt with
          ⟨guard, raw, hHandler, hBuilds, hGuard⟩
        have hSource := Delegation.source_ofText d.selector
        refine Or.inr ⟨r.context e, guard, raw, ?_⟩
        constructor
        · exact hHandler
        · refine
            ⟨e.bound (d.binding page.nextListener), by simp,
              rfl, ?_, hBuilds⟩
          simp [Entry.bound, Declaration.binding,
            Listener.source?, hSource]
        · rw [Listener.source?, hSource]
          exact hRead.event
        · rw [hRead.condition] at hGuard
          exact hGuard

/- So does a whole scan. -/
theorem attached_of_bindings
    {only : Option String}
    {w w' : Page × Registry}
    {l : Listener Handler}
    (hRun : Bindings only w w')
    (hMember : l ∈ w'.1.listeners) :
    l ∈ w.1.listeners ∨
      ∃ cx guard raw,
        w'.2.Attached w'.1.tree l cx guard raw := by
  induction hRun with
  | refl => exact Or.inl hMember
  | tail _ hStep ih =>
      rcases attached_of_binds hStep hMember with
        hBefore | hNew
      · rcases ih hBefore with
          hOld | ⟨cx, guard, raw, hAttached⟩
        · exact Or.inl hOld
        · exact
            Or.inr ⟨cx, guard, raw, hAttached.binds hStep⟩
      · exact Or.inr hNew

end Registry

end MarkupMetrics
