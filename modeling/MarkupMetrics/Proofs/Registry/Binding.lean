import MarkupMetrics.Proofs.Document.Listeners
import MarkupMetrics.Proofs.Dom.Sweep
import MarkupMetrics.Registry.Scan

/-
  This file proves what a scan of a page does.

  A scan is a sequence of steps, each of which attaches one
  listener for one provider and records it.  Every fact about
  scans follows from what such a step does.

  The counter of a scan goes up with each step.  It comes to
  what the records have become more by.

  Key definitions include:
    * `Declaration.Read`
    * `Registry.Binds`
    * `Registry.Bindings`
    * `Registry.bindingCount`

  Key theorems include:
    * `Registry.declaration?_gives`
    * `Registry.bindEntries_bindings`
    * `Registry.scan_bindings`
    * `Registry.scan_counts`
    * `Registry.bindingCount_of_scan`
-/

namespace MarkupMetrics

open Dom

------------------------------------------------------------
-- Declarations
------------------------------------------------------------

/-
  A declaration is what the attributes of its element say
  to a registry.
-/
structure Declaration.Read
    (r : Registry)
    (t : Tree)
    (d : Declaration) : Prop where
  event :
    (t.attr? d.element r.config.eventAttribute).bind
        declaredEvent? =
      some (d.event, d.selector)
  condition :
    d.condition =
      t.attr? d.element r.config.conditionAttribute

/- The record of a listener that was attached as declared. -/
def Declaration.binding
    (d : Declaration)
    (listener : Nat) : Binding :=
  ⟨d.element, d.event, d.selector, listener⟩

/- An entry with one more listener recorded. -/
def Entry.bound
    (e : Entry)
    (b : Binding) : Entry :=
  { e with bindings := e.bindings ++ [b] }

namespace Registry

/- What is found to be declared was read at the element. -/
theorem declaration?_gives
    {r : Registry}
    {t : Tree}
    {element : NodeId}
    {d : Declaration}
    (hRun : (r.declaration? t element).Gives (some d)) :
    d.element = element ∧ d.Read r t := by
  unfold declaration? at hRun
  cases hValue : t.attr? element r.config.eventAttribute with
  | none => simp [hValue] at hRun
  | some value =>
      cases hEvent : declaredEvent? value with
      | none =>
          simp only [hValue, hEvent, note,
            Trace.gives_note_bind_iff, Trace.gives_pure_iff]
            at hRun
          cases hRun
      | some declared =>
          rcases declared with ⟨event, selector⟩
          simp only [hValue, hEvent, Trace.gives_pure_iff,
            Option.some.injEq] at hRun
          subst hRun
          refine ⟨rfl, ?_, rfl⟩
          simp [hValue, hEvent]

/- A handler is attached directly, or by its selector. -/
theorem attachDeclared_gives_iff
    {page : Page}
    {d : Declaration}
    {h : Handler}
    {result : Page × Nat} :
    (attachDeclared page d h).Gives result ↔
      result =
        (page.attached d.element d.event
          (d.selector.map .ofText) h, page.nextListener) := by
  unfold attachDeclared
  cases d.selector with
  | none => exact Document.bind_gives_iff
  | some selector => exact Document.delegate_gives_iff

------------------------------------------------------------
-- Steps
------------------------------------------------------------

/-
  One listener is attached and recorded: an element of the
  page declares an event, and a provider that is meant has a
  handler for it.
-/
inductive Binds
    (only : Option String) :
    Page × Registry → Page × Registry → Prop where
  | step
      (page : Page)
      (r : Registry)
      (before after : List Entry)
      (e : Entry)
      (d : Declaration)
      (h : Handler)
      (hEntries : r.entries = before ++ e :: after)
      (hMeant : e.isMeant only = true)
      (hLive : page.tree.contains d.element = true)
      (hRead : d.Read r page.tree)
      (hBuilt :
        (e.provider.buildHandler (r.context e) r.config.debug
          page.tree d.element d.condition).Gives (some h)) :
      Binds only (page, r)
        (page.attached d.element d.event
          (d.selector.map .ofText) h,
        { r with
          entries :=
            before ++
              e.bound (d.binding page.nextListener) :: after })

/- Any number of listeners are attached, one after the other. -/
abbrev Bindings
    (only : Option String) :
    Page × Registry → Page × Registry → Prop :=
  Relation.ReflTransGen (Binds only)

/- One provider attaches one listener, or declines. -/
theorem bindEntry_cases
    {r : Registry}
    {d : Declaration}
    {page page' : Page}
    {n n' : Nat}
    {e e' : Entry}
    (hRun : (r.bindEntry d page n e).Gives (page', n', e')) :
    (page' = page ∧ n' = n ∧ e' = e) ∨
      ∃ h,
        (e.provider.buildHandler (r.context e) r.config.debug
          page.tree d.element d.condition).Gives (some h) ∧
        page' =
          page.attached d.element d.event
            (d.selector.map .ofText) h ∧
        n' = n + 1 ∧
        e' = e.bound (d.binding page.nextListener) := by
  rw [bindEntry, Trace.gives_bind_iff] at hRun
  rcases hRun with ⟨built, hBuilt, hRest⟩
  cases built with
  | none =>
      rw [Trace.gives_pure_iff, Prod.mk.injEq, Prod.mk.injEq]
        at hRest
      rcases hRest with ⟨rfl, rfl, rfl⟩
      exact Or.inl ⟨rfl, rfl, rfl⟩
  | some h =>
      rcases Trace.gives_bind_iff.mp hRest with
        ⟨⟨attached, id⟩, hAttach, hDone⟩
      rw [attachDeclared_gives_iff, Prod.mk.injEq] at hAttach
      rw [Trace.gives_pure_iff, Prod.mk.injEq, Prod.mk.injEq]
        at hDone
      rcases hAttach with ⟨rfl, rfl⟩
      rcases hDone with ⟨rfl, rfl, rfl⟩
      exact Or.inr ⟨h, hBuilt, rfl, rfl, rfl⟩

/- The first of several entries is dealt with before the rest. -/
theorem bindEntries_cons_cases
    {r : Registry}
    {only : Option String}
    {d : Declaration}
    {page page' : Page}
    {n n' : Nat}
    {e : Entry}
    {rest entries' : List Entry}
    (hRun :
      (r.bindEntries only d page n (e :: rest)).Gives
        (page', n', entries')) :
    ∃ middle m e' rest',
      ((middle = page ∧ m = n ∧ e' = e) ∨
        (e.isMeant only = true ∧
          (r.bindEntry d page n e).Gives (middle, m, e'))) ∧
        (r.bindEntries only d middle m rest).Gives
          (page', n', rest') ∧
          entries' = e' :: rest' := by
  rw [bindEntries] at hRun
  cases hMeant : e.isMeant only with
  | false =>
      simp only [hMeant, Bool.false_eq_true, if_false,
        pure_bind] at hRun
      rcases Trace.gives_bind_iff.mp hRun with
        ⟨⟨last, m, rest'⟩, hOthers, hDone⟩
      rw [Trace.gives_pure_iff, Prod.mk.injEq, Prod.mk.injEq]
        at hDone
      rcases hDone with ⟨rfl, rfl, rfl⟩
      exact
        ⟨page, n, e, rest', Or.inl ⟨rfl, rfl, rfl⟩, hOthers,
          rfl⟩
  | true =>
      simp only [hMeant, if_true] at hRun
      rcases Trace.gives_bind_iff.mp hRun with
        ⟨⟨middle, m, e'⟩, hFirst, hRest⟩
      rcases Trace.gives_bind_iff.mp hRest with
        ⟨⟨last, m', rest'⟩, hOthers, hDone⟩
      rw [Trace.gives_pure_iff, Prod.mk.injEq, Prod.mk.injEq]
        at hDone
      rcases hDone with ⟨rfl, rfl, rfl⟩
      exact
        ⟨middle, m, e', rest', Or.inr ⟨rfl, hFirst⟩, hOthers,
          rfl⟩

/-
  The entries are gone through in order; those before the
  present one are left alone.
-/
theorem bindEntries_bindings
    {r : Registry}
    {only : Option String}
    {d : Declaration}
    {page page' : Page}
    {n n' : Nat}
    {entries entries' : List Entry}
    (before : List Entry)
    (hLive : page.tree.contains d.element = true)
    (hRead : d.Read r page.tree)
    (hRun :
      (r.bindEntries only d page n entries).Gives
        (page', n', entries')) :
    Bindings only
      (page, { r with entries := before ++ entries })
      (page', { r with entries := before ++ entries' }) := by
  induction entries generalizing page n before entries' with
  | nil =>
      rw [bindEntries, Trace.gives_pure_iff, Prod.mk.injEq,
        Prod.mk.injEq] at hRun
      rcases hRun with ⟨rfl, rfl, rfl⟩
      exact Relation.ReflTransGen.refl
  | cons e rest ih =>
      rcases bindEntries_cons_cases hRun with
        ⟨middle, m, e', rest', hFirst, hOthers, rfl⟩
      have hRest :
          middle.tree = page.tree →
            Bindings only
              (middle,
                { r with entries := before ++ e' :: rest })
              (page',
                { r with entries := before ++ e' :: rest' }) := by
        intro hTree
        have hLater :=
          ih (before ++ [e']) (hTree.symm ▸ hLive)
            (hTree.symm ▸ hRead) hOthers
        simpa only [List.append_assoc, List.singleton_append]
          using hLater
      rcases hFirst with ⟨rfl, rfl, rfl⟩ | ⟨hMeant, hBind⟩
      · exact hRest rfl
      · rcases bindEntry_cases hBind with
          ⟨rfl, rfl, rfl⟩ | ⟨h, hBuilt, rfl, rfl, rfl⟩
        · exact hRest rfl
        · exact
            Relation.ReflTransGen.head
              (Binds.step page _ before rest e d h rfl hMeant
                hLive ⟨hRead.event, hRead.condition⟩ hBuilt)
              (hRest rfl)

/- The entries stay with their providers. -/
theorem providers_of_bindEntries
    {r : Registry}
    {only : Option String}
    {d : Declaration}
    {page page' : Page}
    {n n' : Nat}
    {entries entries' : List Entry}
    (hRun :
      (r.bindEntries only d page n entries).Gives
        (page', n', entries')) :
    entries'.map (·.provider) = entries.map (·.provider) := by
  induction entries generalizing page n entries' with
  | nil =>
      rw [bindEntries, Trace.gives_pure_iff, Prod.mk.injEq,
        Prod.mk.injEq] at hRun
      rw [← hRun.2.2]
  | cons e rest ih =>
      rcases bindEntries_cons_cases hRun with
        ⟨middle, m, e', rest', hFirst, hOthers, rfl⟩
      have hSame : e'.provider = e.provider := by
        rcases hFirst with ⟨_, _, rfl⟩ | ⟨_, hBind⟩
        · rfl
        · rcases bindEntry_cases hBind with
            ⟨_, _, rfl⟩ | ⟨h, _, _, _, rfl⟩
          · rfl
          · rfl
      rw [List.map_cons, List.map_cons, hSame, ih hOthers]

theorem providers_of_bindElement
    {only : Option String}
    {page page' : Page}
    {r r' : Registry}
    {n n' : Nat}
    {element : NodeId}
    (hRun :
      (bindElement only (page, r, n) element).Gives
        (page', r', n')) :
    r'.entries.map (·.provider) =
      r.entries.map (·.provider) := by
  rw [bindElement, Trace.gives_bind_iff] at hRun
  rcases hRun with ⟨declared, _, hRest⟩
  cases declared with
  | none =>
      rw [Trace.gives_pure_iff, Prod.mk.injEq, Prod.mk.injEq]
        at hRest
      rw [hRest.2.1]
  | some d =>
      simp only [note, Trace.gives_note_bind_iff] at hRest
      rcases Trace.gives_bind_iff.mp hRest with
        ⟨⟨last, m, entries⟩, hEntries, hDone⟩
      rw [Trace.gives_pure_iff, Prod.mk.injEq, Prod.mk.injEq]
        at hDone
      rw [← hDone.2.1]
      exact providers_of_bindEntries hEntries

/- What one element declares is attached for the entries. -/
theorem bindElement_bindings
    {only : Option String}
    {page page' : Page}
    {r r' : Registry}
    {n n' : Nat}
    {element : NodeId}
    (hLive : page.tree.contains element = true)
    (hRun :
      (bindElement only (page, r, n) element).Gives
        (page', r', n')) :
    Bindings only (page, r) (page', r') := by
  rw [bindElement, Trace.gives_bind_iff] at hRun
  rcases hRun with ⟨declared, hDeclared, hRest⟩
  cases declared with
  | none =>
      rw [Trace.gives_pure_iff, Prod.mk.injEq, Prod.mk.injEq]
        at hRest
      rcases hRest with ⟨rfl, rfl, rfl⟩
      exact Relation.ReflTransGen.refl
  | some d =>
      rcases declaration?_gives hDeclared with ⟨rfl, hRead⟩
      simp only [note, Trace.gives_note_bind_iff] at hRest
      rcases Trace.gives_bind_iff.mp hRest with
        ⟨⟨last, m, entries⟩, hEntries, hDone⟩
      rw [Trace.gives_pure_iff, Prod.mk.injEq, Prod.mk.injEq]
        at hDone
      rcases hDone with ⟨rfl, rfl, rfl⟩
      exact bindEntries_bindings [] hLive hRead hEntries

/- Attaching leaves the tree and the settings alone. -/
theorem Bindings.same
    {only : Option String}
    {w w' : Page × Registry}
    (hRun : Bindings only w w') :
    w'.1.tree = w.1.tree ∧ w'.2.number = w.2.number ∧
      w'.2.config = w.2.config := by
  induction hRun with
  | refl => exact ⟨rfl, rfl, rfl⟩
  | tail _ hStep ih =>
      cases hStep
      exact ih

/- Attaching changes nothing but the records of entries. -/
theorem Bindings.members
    {only : Option String}
    {w w' : Page × Registry}
    (hRun : Bindings only w w') :
    w'.2.entries.map (fun e => (e.provider, e.number)) =
      w.2.entries.map fun e => (e.provider, e.number) := by
  induction hRun with
  | refl => rfl
  | tail _ hStep ih =>
      rw [← ih]
      cases hStep with
      | step page r before after e d h hEntries =>
          simp [hEntries, Entry.bound]

/-
  The tree stays the same while elements are dealt with, so
  all of them stay live.
-/
theorem bindElements_bindings
    {only : Option String}
    {elements : List NodeId}
    {page page' : Page}
    {r r' : Registry}
    {n n' : Nat}
    (hLive : ∀ x ∈ elements, page.tree.contains x = true)
    (hRun :
      (elements.foldlM (bindElement only) (page, r, n)).Gives
        (page', r', n')) :
    Bindings only (page, r) (page', r') := by
  induction elements generalizing page r n with
  | nil =>
      rw [List.foldlM_nil, Trace.gives_pure_iff, Prod.mk.injEq,
        Prod.mk.injEq] at hRun
      rcases hRun with ⟨rfl, rfl, rfl⟩
      exact Relation.ReflTransGen.refl
  | cons element elements ih =>
      rw [List.foldlM_cons, Trace.gives_bind_iff] at hRun
      rcases hRun with ⟨⟨middle, q, m⟩, hFirst, hOthers⟩
      have hHead :=
        bindElement_bindings (hLive element (by simp)) hFirst
      have hStill :
          ∀ x ∈ elements, middle.tree.contains x = true := by
        intro x hMember
        have hSame : middle.tree = page.tree := hHead.same.1
        rw [hSame]
        exact hLive x (by simp [hMember])
      exact hHead.trans (ih hStill hOthers)

/- A scan attaches listeners, one after the other. -/
theorem scan_bindings
    {r r' : Registry}
    {page page' : Page}
    {root : Option NodeId}
    {only : Option String}
    {n : Nat}
    (hRun :
      (r.scan page root only).Gives (page', r', n)) :
    Bindings only (page, r) (page', r') := by
  rw [scan, Trace.gives_bind_iff] at hRun
  rcases hRun with ⟨elements, hFind, hLoop⟩
  exact
    bindElements_bindings (Tree.contains_of_find hFind) hLoop

/- New listeners come after the old ones. -/
theorem Bindings.succeeds
    {only : Option String}
    {w w' : Page × Registry}
    (hRun : Bindings only w w') :
    Document.Succeeds w.1 w'.1 := by
  induction hRun with
  | refl => exact Document.Succeeds.refl w.1
  | tail _ hStep ih =>
      cases hStep
      exact ih.trans (Document.Succeeds.attached _ _ _ _ _)

------------------------------------------------------------
-- Counters
------------------------------------------------------------

/-
  The counter goes through the entries with the page: it goes
  up whenever a number for a listener is used up.
-/
theorem bindEntries_counts
    {r : Registry}
    {only : Option String}
    {d : Declaration}
    {page page' : Page}
    {n n' : Nat}
    {entries entries' : List Entry}
    (hRun :
      (r.bindEntries only d page n entries).Gives
        (page', n', entries')) :
    n' + page.nextListener = n + page'.nextListener := by
  induction entries generalizing page n entries' with
  | nil =>
      rw [bindEntries, Trace.gives_pure_iff, Prod.mk.injEq,
        Prod.mk.injEq] at hRun
      rcases hRun with ⟨rfl, rfl, rfl⟩
      rfl
  | cons e rest ih =>
      rcases bindEntries_cons_cases hRun with
        ⟨middle, m, e', rest', hFirst, hOthers, rfl⟩
      have hRest := ih hOthers
      have hHere :
          m + page.nextListener = n + middle.nextListener := by
        rcases hFirst with ⟨rfl, rfl, rfl⟩ | ⟨_, hBind⟩
        · rfl
        · rcases bindEntry_cases hBind with
            ⟨rfl, rfl, rfl⟩ | ⟨h, _, rfl, rfl, rfl⟩
          · rfl
          · simp only [Document.attached]
            omega
      omega

theorem bindElement_counts
    {only : Option String}
    {page page' : Page}
    {r r' : Registry}
    {n n' : Nat}
    {element : NodeId}
    (hRun :
      (bindElement only (page, r, n) element).Gives
        (page', r', n')) :
    n' + page.nextListener = n + page'.nextListener := by
  rw [bindElement, Trace.gives_bind_iff] at hRun
  rcases hRun with ⟨declared, _, hRest⟩
  cases declared with
  | none =>
      rw [Trace.gives_pure_iff, Prod.mk.injEq, Prod.mk.injEq]
        at hRest
      rcases hRest with ⟨rfl, rfl, rfl⟩
      rfl
  | some d =>
      simp only [note, Trace.gives_note_bind_iff] at hRest
      rcases Trace.gives_bind_iff.mp hRest with
        ⟨⟨last, m, entries⟩, hEntries, hDone⟩
      rw [Trace.gives_pure_iff, Prod.mk.injEq, Prod.mk.injEq]
        at hDone
      rcases hDone with ⟨rfl, rfl, rfl⟩
      exact bindEntries_counts hEntries

theorem bindElements_counts
    {only : Option String}
    {elements : List NodeId}
    {page page' : Page}
    {r r' : Registry}
    {n n' : Nat}
    (hRun :
      (elements.foldlM (bindElement only) (page, r, n)).Gives
        (page', r', n')) :
    n' + page.nextListener = n + page'.nextListener := by
  induction elements generalizing page r n with
  | nil =>
      rw [List.foldlM_nil, Trace.gives_pure_iff, Prod.mk.injEq,
        Prod.mk.injEq] at hRun
      rcases hRun with ⟨rfl, rfl, rfl⟩
      rfl
  | cons element elements ih =>
      rw [List.foldlM_cons, Trace.gives_bind_iff] at hRun
      rcases hRun with ⟨⟨middle, q, m⟩, hFirst, hOthers⟩
      have hHere := bindElement_counts hFirst
      have hRest := ih hOthers
      omega

/- The result of a scan counts the numbers that it uses up. -/
theorem scan_counts
    {r r' : Registry}
    {page page' : Page}
    {root : Option NodeId}
    {only : Option String}
    {n : Nat}
    (hRun :
      (r.scan page root only).Gives (page', r', n)) :
    page'.nextListener = page.nextListener + n := by
  rw [scan, Trace.gives_bind_iff] at hRun
  rcases hRun with ⟨elements, _, hLoop⟩
  have hCount := bindElements_counts hLoop
  omega

/- The number of listeners on record for all providers. -/
def bindingCount
    (r : Registry) : Nat :=
  (r.entries.flatMap (·.bindings)).length

/- There is one record more for every number that is used up. -/
theorem Bindings.bindingCount
    {only : Option String}
    {w w' : Page × Registry}
    (hRun : Bindings only w w') :
    w'.2.bindingCount + w.1.nextListener =
      w.2.bindingCount + w'.1.nextListener := by
  induction hRun with
  | refl => rfl
  | tail _ hStep ih =>
      cases hStep with
      | step page r before after e d h hEntries =>
          simp only [Registry.bindingCount, hEntries,
            Entry.bound, Document.attached,
            List.flatMap_append, List.flatMap_cons,
            List.length_append, List.length_cons,
            List.length_nil] at ih ⊢
          omega

/- So a scan counts what its records have become more by. -/
theorem bindingCount_of_scan
    {r r' : Registry}
    {page page' : Page}
    {root : Option NodeId}
    {only : Option String}
    {n : Nat}
    (hRun :
      (r.scan page root only).Gives (page', r', n)) :
    r'.bindingCount = r.bindingCount + n := by
  have hNumbers := scan_counts hRun
  have hRecords :
      r'.bindingCount + page.nextListener =
        r.bindingCount + page'.nextListener :=
    (scan_bindings hRun).bindingCount
  omega

end Registry

end MarkupMetrics
