import MarkupMetrics.Proofs.Registry.Detaching

/-
  This file proves that it makes no difference in which order
  providers are taken out of a registry.

  What is left depends on the set of the names only.  With all
  names it is what is left when a registry is cleared, also if
  the listeners were detached before.

  Key definitions include:
    * `Registry.heldBy`
    * `Registry.dismissed`

  Key theorems include:
    * `Registry.dismissed_append`
    * `Registry.dismissed_congr`
    * `Registry.dismissed_all`
    * `Registry.dismissed_unbound`
-/

namespace MarkupMetrics

open Dom

/- Of the records only the set matters. -/
theorem Document.without_congr
    {bindings bindings' : List Binding}
    (hSame : ∀ b, b ∈ bindings ↔ b ∈ bindings')
    (page : Page) :
    page.without bindings = page.without bindings' := by
  unfold without
  congr 1
  apply List.filter_congr
  intro l _
  congr 1
  rw [Bool.eq_iff_iff, List.any_eq_true, List.any_eq_true]
  simp only [hSame]

namespace Registry

/- The records of the entries with one of some names. -/
def heldBy
    (r : Registry)
    (names : List String) : List Binding :=
  (r.entries.filter fun e =>
    names.contains e.shortName).flatMap (·.bindings)

/-
  A page and a registry without the providers that have one
  of some names, and without their listeners.
-/
def dismissed
    (r : Registry)
    (page : Page)
    (names : List String) : Page × Registry :=
  (page.without (r.heldBy names),
    { r with
      entries :=
        r.entries.filter fun e =>
          !names.contains e.shortName })

variable (r : Registry)
variable (page : Page)

theorem mem_heldBy_iff
    {r : Registry}
    {names : List String}
    {b : Binding} :
    b ∈ r.heldBy names ↔
      ∃ e ∈ r.entries, e.shortName ∈ names ∧
        b ∈ e.bindings := by
  simp [heldBy, and_assoc]

/- Taking one provider out is the case of one name. -/
theorem evicted_eq_dismissed
    (name : String) :
    r.evicted page name = r.dismissed page [name] := by
  have hMeant : r.meant (some name) = r.heldBy [name] := by
    unfold meant heldBy
    congr 1
    apply List.filter_congr
    intro e _
    rw [Bool.eq_iff_iff, List.contains_iff_mem,
      List.mem_singleton]
    simpa [Entry.isMeant] using eq_comm
  have hDrop :
      r.drop name = (r.dismissed page [name]).2 := by
    unfold drop dismissed
    congr 1
    apply List.filter_congr
    intro e _
    rw [Bool.eq_iff_iff]
    simp
  rw [evicted, hMeant, hDrop]
  rfl

theorem dismissed_nil :
    r.dismissed page [] = (page, r) := by
  have hNone : r.heldBy [] = [] := by
    simp [heldBy]
  simp [dismissed, hNone, Document.without_nil]

/- Providers may be taken out in two rounds. -/
theorem dismissed_append
    (first second : List String) :
    (r.dismissed page first).2.dismissed
        (r.dismissed page first).1 second =
      r.dismissed page (first ++ second) := by
  have hHeld :
      ∀ b,
        b ∈ r.heldBy first ++
            (r.dismissed page first).2.heldBy second ↔
          b ∈ r.heldBy (first ++ second) := by
    intro b
    simp only [List.mem_append, mem_heldBy_iff, dismissed,
      List.mem_filter, Bool.not_eq_true',
      List.contains_eq_mem, decide_eq_false_iff_not]
    constructor
    · rintro (⟨e, hEntry, hName, hThere⟩ |
          ⟨e, ⟨hEntry, _⟩, hName, hThere⟩)
      · exact ⟨e, hEntry, Or.inl hName, hThere⟩
      · exact ⟨e, hEntry, Or.inr hName, hThere⟩
    · rintro ⟨e, hEntry, hName, hThere⟩
      -- Records of a name in both rounds go in the first.
      rcases Decidable.em (e.shortName ∈ first) with
        hFirst | hLater
      · exact Or.inl ⟨e, hEntry, hFirst, hThere⟩
      · exact
          Or.inr
            ⟨e, ⟨hEntry, hLater⟩, hName.resolve_left hLater,
              hThere⟩
  have hEntries :
      ((r.entries.filter fun e =>
          !first.contains e.shortName).filter fun e =>
            !second.contains e.shortName) =
        r.entries.filter fun e =>
          !(first ++ second).contains e.shortName := by
    rw [List.filter_filter]
    apply List.filter_congr
    intro e _
    simp [Bool.and_comm]
  have hPage :=
    (Document.without_append page _ _).symm.trans
      (Document.without_congr hHeld page)
  simp only [dismissed, hEntries] at hPage ⊢
  rw [hPage]

/- Only the set of the registered names matters. -/
theorem dismissed_congr
    {r : Registry}
    {names names' : List String}
    (hSame : ∀ name ∈ r.names, name ∈ names ↔ name ∈ names')
    (page : Page) :
    r.dismissed page names = r.dismissed page names' := by
  have hContains :
      ∀ e ∈ r.entries,
        names.contains e.shortName =
          names'.contains e.shortName := by
    intro e hEntry
    rw [Bool.eq_iff_iff, List.contains_iff_mem,
      List.contains_iff_mem]
    exact hSame _ (List.mem_map_of_mem hEntry)
  have hHeld : r.heldBy names = r.heldBy names' := by
    rw [heldBy, heldBy, List.filter_congr hContains]
  have hLeft :
      (r.entries.filter fun e =>
          !names.contains e.shortName) =
        r.entries.filter fun e =>
          !names'.contains e.shortName :=
    List.filter_congr fun e hEntry => by
      rw [hContains e hEntry]
  rw [dismissed, dismissed, hHeld, hLeft]

variable {r}

/- No provider is left if all names are among those gone. -/
theorem filter_dismissed
    {names : List String}
    (hAll : ∀ e ∈ r.entries, e.shortName ∈ names) :
    (r.entries.filter fun e =>
        !names.contains e.shortName) = [] := by
  rw [List.filter_eq_nil_iff]
  intro e hEntry
  simp [hAll e hEntry]

/- To take all providers out is to clear the registry. -/
theorem dismissed_all
    {names : List String}
    (hAll : ∀ e ∈ r.entries, e.shortName ∈ names) :
    r.dismissed page names = r.clear page := by
  have hHeld :
      r.heldBy names = r.entries.flatMap (·.bindings) := by
    rw [heldBy, List.filter_eq_self.mpr]
    intro e hEntry
    simp [hAll e hEntry]
  rw [dismissed, hHeld, filter_dismissed hAll, clear_eq]

/- So it is if their listeners were detached before. -/
theorem dismissed_unbound
    {names : List String}
    (hAll : ∀ e ∈ r.entries, e.shortName ∈ names) :
    (r.unbind page none).2.dismissed (r.unbind page none).1
        names =
      r.clear page := by
  have hAll' :
      ∀ e ∈ (r.unbind page none).2.entries,
        e.shortName ∈ names := by
    rw [unbind_eq]
    intro e hEntry
    rcases List.mem_map.mp hEntry with ⟨old, hOld, rfl⟩
    exact hAll old hOld
  have hNone :
      (r.unbind page none).2.entries.flatMap (·.bindings) =
        [] := by
    rw [unbind_eq, List.flatMap_eq_nil_iff]
    intro e hEntry
    rcases List.mem_map.mp hEntry with ⟨old, _, rfl⟩
    rfl
  rw [dismissed_all _ hAll', clear_eq, hNone,
    Document.without_nil]
  rfl

end Registry

end MarkupMetrics
