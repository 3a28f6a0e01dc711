import MarkupMetrics.Proofs.Registry.Binding
import MarkupMetrics.Registry.Providers

/-
  This file proves what taking providers out of a registry
  does to a page.

  Detaching goes through the records of the listeners one by
  one.  Altogether it leaves the listeners that none of the
  records names.

  Key definitions include:
    * `Binding.names`
    * `Document.without`
    * `Registry.evicted`

  Key theorems include:
    * `Registry.meant_eq_bindings`
    * `Registry.unbind_eq`
    * `Registry.exists_remove_eq`
    * `Registry.remove_gives`
    * `Registry.add_gives_iff`
    * `Registry.add_bindings`
-/

namespace MarkupMetrics

open Dom

------------------------------------------------------------
-- Records
------------------------------------------------------------

/- Whether a record is that of a listener. -/
def Binding.names
    (b : Binding)
    (l : Listener Handler) : Bool :=
  l.node == b.element && l.id == b.listener &&
    l.event == b.event && l.source? == b.selector

theorem Binding.names_iff
    {b : Binding}
    {l : Listener Handler} :
    b.names l = true ↔
      l.node = b.element ∧ l.id = b.listener ∧
        l.event = b.event ∧ l.source? = b.selector := by
  simp [names, and_assoc]

/- A page less the listeners that some records name. -/
def Document.without
    (page : Page)
    (bindings : List Binding) : Page :=
  { page with
    listeners :=
      page.listeners.filter fun l =>
        !bindings.any fun b => b.names l }

theorem Document.without_nil
    (page : Page) :
    page.without [] = page := by
  have hAll :
      (page.listeners.filter fun _ => true) =
        page.listeners :=
    List.filter_eq_self.mpr fun _ _ => rfl
  simp [without, hAll]

theorem Document.without_append
    (page : Page)
    (first second : List Binding) :
    page.without (first ++ second) =
      (page.without first).without second := by
  simp [without, List.filter_filter, Bool.and_comm]

theorem foldl_detach
    (page : Page)
    (bindings : List Binding) :
    bindings.foldl Binding.detach page =
      page.without bindings := by
  induction bindings generalizing page with
  | nil => simp [Document.without_nil]
  | cons b rest ih =>
      have hFirst : b.detach page = page.without [b] := by
        simp [Binding.detach, Document.detach,
          Document.without, Binding.names]
      rw [List.foldl_cons, ih, hFirst,
        ← Document.without_append]
      rfl

theorem foldl_detachAll
    (page : Page)
    (entries : List Entry) :
    entries.foldl Entry.detachAll page =
      page.without (entries.flatMap (·.bindings)) := by
  induction entries generalizing page with
  | nil => simp [Document.without_nil]
  | cons e rest ih =>
      rw [List.foldl_cons, ih, Entry.detachAll, foldl_detach,
        List.flatMap_cons, Document.without_append]

/- Taking listeners away attaches none. -/
theorem Document.Succeeds.without
    (page : Page)
    (bindings : List Binding) :
    Succeeds page (page.without bindings) :=
  ofSublist rfl List.filter_sublist

------------------------------------------------------------
-- Registries
------------------------------------------------------------

namespace Registry

/- The records of the entries that are meant. -/
def meant
    (r : Registry)
    (only : Option String) : List Binding :=
  (r.entries.filter (·.isMeant only)).flatMap (·.bindings)

/- The bindings of a name are those of its one entry. -/
theorem meant_eq_bindings
    {r : Registry}
    (hDistinct : r.names.Nodup)
    (name : String) :
    r.meant (some name) = r.bindings name := by
  unfold names at hDistinct
  unfold meant bindings entry?
  generalize r.entries = entries at hDistinct ⊢
  induction entries with
  | nil => rfl
  | cons e rest ih =>
      rw [List.map_cons, List.nodup_cons] at hDistinct
      by_cases hName : e.shortName = name
      · have hOthers :
            rest.filter (·.isMeant (some name)) = [] := by
          apply List.filter_eq_nil_iff.mpr
          intro e' hMember hMeant
          have hSame : name = e'.shortName := by
            simpa [Entry.isMeant] using hMeant
          apply hDistinct.1
          rw [hName, hSame]
          exact List.mem_map_of_mem hMember
        have hMeant : e.isMeant (some name) = true := by
          simp [Entry.isMeant, hName]
        simp [hMeant, hName, hOthers]
      · have hMeant : e.isMeant (some name) = false := by
          simpa [Entry.isMeant] using fun h => hName h.symm
        rw [List.filter_cons_of_neg (by simp [hMeant]),
          List.find?_cons_of_neg (by simp [hName])]
        exact ih hDistinct.2

theorem unbind_eq
    (r : Registry)
    (page : Page)
    (only : Option String) :
    r.unbind page only =
      (page.without (r.meant only),
        { r with
          entries :=
            r.entries.map fun e =>
              if e.isMeant only then e.released else e }) := by
  simp only [unbind, meant, foldl_detachAll]

/-
  A page and a registry after the providers with a name were
  taken out together with their listeners.
-/
def evicted
    (r : Registry)
    (page : Page)
    (name : String) : Page × Registry :=
  (page.without (r.meant (some name)), r.drop name)

/- What is dropped need not be released first. -/
theorem drop_unbind
    (r : Registry)
    (page : Page)
    (name : String) :
    (r.unbind page (some name)).2.drop name = r.drop name := by
  rw [unbind_eq]
  unfold drop
  simp only [Registry.mk.injEq, true_and]
  induction r.entries with
  | nil => rfl
  | cons e rest ih =>
      by_cases hName : e.shortName = name
      · have hMeant : e.isMeant (some name) = true := by
          simp [Entry.isMeant, hName]
        have hReleased : e.released.shortName = name := hName
        simp [hMeant, hName, hReleased, ih]
      · have hMeant : e.isMeant (some name) = false := by
          simpa [Entry.isMeant] using fun h => hName h.symm
        simp [hMeant, hName, ih]

/- A name that is not there has no entries to take out. -/
theorem evicted_of_not_contains
    {r : Registry}
    {name : String}
    (hMissing : r.contains name = false)
    (page : Page) :
    r.evicted page name = (page, r) := by
  have hNone : ∀ e ∈ r.entries, e.shortName ≠ name := by
    simpa [contains, entry?] using hMissing
  have hMeant : r.meant (some name) = [] := by
    unfold meant
    rw [List.filter_eq_nil_iff.mpr]
    · rfl
    · intro e hMember
      have hOther := hNone e hMember
      simpa [Entry.isMeant] using fun h => hOther h.symm
  have hEntries :
      (r.entries.filter (·.shortName != name)) = r.entries := by
    apply List.filter_eq_self.mpr
    intro e hMember
    simpa using hNone e hMember
  simp [evicted, hMeant, Document.without_nil, drop, hEntries]

theorem vacate_gives
    {r : Registry}
    {page : Page}
    {name : String}
    {w : Page × Registry}
    (hRun : (r.vacate page name).Gives w) :
    w = r.evicted page name := by
  unfold vacate at hRun
  cases hThere : r.contains name with
  | true =>
      simp only [hThere, if_true, note,
        Trace.gives_note_bind_iff, Trace.gives_pure_iff]
        at hRun
      rw [← hRun, evicted, drop_unbind, unbind_eq]
  | false =>
      simp only [hThere, Bool.false_eq_true, if_false,
        Trace.gives_pure_iff] at hRun
      rw [← hRun, evicted_of_not_contains hThere]

/- Whether the name is there or not, one note is written. -/
theorem exists_remove_eq
    (r : Registry)
    (page : Page)
    (name : String) :
    ∃ level message,
      r.remove page name =
        .done
          ((r.evicted page name).1, (r.evicted page name).2,
            r.contains name)
          [.note (.registry r.number "registry") level
            message] := by
  unfold remove
  cases hThere : r.contains name with
  | true =>
      rw [if_pos rfl, evicted, ← drop_unbind r page name,
        unbind_eq]
      exact ⟨_, _, rfl⟩
  | false =>
      rw [if_neg (by simp), evicted_of_not_contains hThere]
      exact ⟨_, _, rfl⟩

theorem remove_gives
    {r r' : Registry}
    {page page' : Page}
    {name : String}
    {found : Bool}
    (hRun : (r.remove page name).Gives (page', r', found)) :
    (page', r') = r.evicted page name := by
  rcases r.exists_remove_eq page name with
    ⟨level, message, hRemove⟩
  rcases hRun with ⟨effects, hDone⟩
  rw [hRemove] at hDone
  cases hDone
  rfl

theorem clear_eq
    (r : Registry)
    (page : Page) :
    r.clear page =
      (page.without (r.entries.flatMap (·.bindings)),
        { r with entries := [] }) := by
  have hAll : r.entries.filter (·.isMeant none) = r.entries :=
    List.filter_eq_self.mpr fun _ _ => rfl
  simp [clear, unbind_eq, meant, hAll]

/- A registry with one more provider, without listeners. -/
def enrolled
    (r : Registry)
    (provider : Provider)
    (number : Nat) : Registry :=
  { r with entries := r.entries ++ [{ provider, number }] }

/- Making room for a provider always comes to an end. -/
theorem gives_vacate
    (r : Registry)
    (page : Page)
    (name : String) :
    (r.vacate page name).Gives (r.evicted page name) := by
  have hSome : ∃ w, (r.vacate page name).Gives w := by
    unfold vacate
    cases hThere : r.contains name with
    | true =>
        simp only [if_true, note, Trace.gives_note_bind_iff]
        exact ⟨_, Trace.gives_pure_iff.mpr rfl⟩
    | false =>
        simp only [Bool.false_eq_true, if_false]
        exact ⟨_, Trace.gives_pure_iff.mpr rfl⟩
  rcases hSome with ⟨w, hRun⟩
  exact vacate_gives hRun ▸ hRun

/-
  Adding a provider takes those with its name out, enrols it,
  and scans the document for it.
-/
theorem add_gives_iff
    {r : Registry}
    {page : Page}
    {provider : Provider}
    {number : Nat}
    {w : Page × Registry × Nat} :
    (r.add page provider number).Gives w ↔
      (((r.evicted page provider.shortName).2.enrolled provider
        number).scan (r.evicted page provider.shortName).1 none
          (some provider.shortName)).Gives w := by
  simp only [add, note, Trace.gives_note_bind_iff]
  rw [Trace.gives_bind_iff]
  constructor
  · rintro ⟨middle, hVacate, hScan⟩
    rw [vacate_gives hVacate] at hScan
    exact hScan
  · intro hScan
    exact ⟨_, gives_vacate r page provider.shortName, hScan⟩

/-
  Adding a provider takes those with its name out, enrols it,
  and attaches its listeners.
-/
theorem add_bindings
    {r r' : Registry}
    {page page' : Page}
    {provider : Provider}
    {number n : Nat}
    (hRun :
      (r.add page provider number).Gives (page', r', n)) :
    Bindings (some provider.shortName)
      ((r.evicted page provider.shortName).1,
        (r.evicted page provider.shortName).2.enrolled
          provider number)
      (page', r') := by
  exact scan_bindings (add_gives_iff.mp hRun)

end Registry

end MarkupMetrics
