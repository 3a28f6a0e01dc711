import MarkupMetrics.Proofs.Provider.Building
import MarkupMetrics.Proofs.Dom.Growth
import MarkupMetrics.Proofs.Registry.Detaching
import Mathlib.Data.List.Nodup

/-
  This file proves that the records of a registry account for
  the listeners of its providers.

  Every listener that was attached for one of the providers is
  recorded, every record that counts as alive is that of a
  listener, and no two records have the same number.  What
  other listeners there are is left alone.

  Key definitions include:
    * `Listener.own?`
    * `Registry.recorded`
    * `Registry.others`
    * `Registry.Accounts`

  Key theorems include:
    * `Registry.Accounts.bindings`
    * `Registry.Accounts.without`
    * `Registry.Accounts.unbind`
    * `Registry.Accounts.evicted`
-/

namespace MarkupMetrics

open Dom

------------------------------------------------------------
-- Listeners and records
------------------------------------------------------------

/-
  For whom a listener was attached, and the record that is
  due for it, if it belongs to the registry with a number.
-/
def Listener.own?
    (number : Nat)
    (l : Listener Handler) : Option (Context × Binding) :=
  match l.handler with
  | .provided cx _ _ =>
      if cx.registry = number then
        some (cx, ⟨l.node, l.event, l.source?, l.id⟩)
      else none
  | .recorder _ => none

/- The record that is due for a listener names it. -/
theorem Listener.names_of_own?
    {number : Nat}
    {l : Listener Handler}
    {x : Context × Binding}
    (hOwn : l.own? number = some x) :
    x.2.names l = true ∧ x.2.element = l.node ∧
      x.2.listener = l.id := by
  unfold Listener.own? at hOwn
  cases hHandler : l.handler with
  | recorder label => simp [hHandler] at hOwn
  | provided cx guard raw =>
      by_cases hNumber : cx.registry = number
      · simp only [hHandler, hNumber, if_true,
          Option.some.injEq] at hOwn
        subst hOwn
        simp [Binding.names]
      · simp [hHandler, hNumber] at hOwn

/- A listener is due for whom its handler acts. -/
theorem Listener.context_of_own?
    {number : Nat}
    {l : Listener Handler}
    {x : Context × Binding}
    {cx : Context}
    {guard : Guard}
    {raw : RawHandler}
    (hOwn : l.own? number = some x)
    (hHandler : l.handler = .provided cx guard raw) :
    x.1 = cx := by
  by_cases hNumber : cx.registry = number
  · simp only [Listener.own?, hHandler, hNumber, if_true,
      Option.some.injEq] at hOwn
    rw [← hOwn]
  · simp [Listener.own?, hHandler, hNumber] at hOwn

namespace Registry

/- The records of all providers, each with for whom it is. -/
def recorded
    (r : Registry) : List (Context × Binding) :=
  r.entries.flatMap fun e =>
    e.bindings.map fun b => (r.context e, b)

/- The listeners that do not belong to a registry. -/
def others
    (r : Registry)
    (page : Page) : List (Listener Handler) :=
  page.listeners.filter fun l => (l.own? r.number).isNone

theorem mem_recorded_iff
    {r : Registry}
    {x : Context × Binding} :
    x ∈ r.recorded ↔
      ∃ e ∈ r.entries, x.1 = r.context e ∧
        x.2 ∈ e.bindings := by
  rcases x with ⟨cx, b⟩
  simp only [recorded, List.mem_flatMap, List.mem_map,
    Prod.mk.injEq]
  constructor
  · rintro ⟨e, hEntry, b', hMember, rfl, rfl⟩
    exact ⟨e, hEntry, rfl, hMember⟩
  · rintro ⟨e, hEntry, rfl, hMember⟩
    exact ⟨e, hEntry, b, hMember, rfl, rfl⟩

/- A new record joins the others. -/
theorem recorded_bound
    {r : Registry}
    {before after : List Entry}
    {e : Entry}
    (hEntries : r.entries = before ++ e :: after)
    (b : Binding) :
    ({ r with
        entries := before ++ e.bound b :: after } :
          Registry).recorded.Perm
      ((r.context e, b) :: r.recorded) := by
  simp only [recorded, hEntries, List.flatMap_append,
    List.flatMap_cons, Entry.bound, List.map_append,
    List.map_cons, List.map_nil, List.append_assoc]
  refine List.Perm.trans ?_ List.perm_middle
  refine List.Perm.append_left _ ?_
  exact List.perm_middle

------------------------------------------------------------
-- Accounts
------------------------------------------------------------

/-
  The records of a registry account for its listeners on a
  page.  The records that count as alive are exactly what is
  due for the listeners, and their elements are nodes; all
  records have different numbers that were given out; and a
  listener with the number of a record is the one that was
  recorded.
-/
structure Accounts
    (alive : Binding → Bool)
    (page : Page)
    (r : Registry) : Prop where
  own :
    (page.listeners.filterMap (·.own? r.number)).Perm
      (r.recorded.filter fun x => alive x.2)
  live :
    ∀ x ∈ r.recorded, alive x.2 = true →
      page.tree.contains x.2.element = true
  once : (r.recorded.map (·.2.listener)).Nodup
  below :
    ∀ x ∈ r.recorded, x.2.listener < page.nextListener
  apart :
    ∀ l ∈ page.listeners, ∀ x ∈ r.recorded,
      l.id = x.2.listener → l.own? r.number = some x
  issued :
    ∀ l ∈ page.listeners, ∀ cx guard raw,
      l.handler = .provided cx guard raw →
        cx.registry ≤ r.number

namespace Accounts

variable {alive : Binding → Bool}
variable {page : Page}
variable {r r' : Registry}

/- Only the records count, not how they are kept. -/
theorem ofRecorded
    (hAccounts : Accounts alive page r)
    (hNumber : r'.number = r.number)
    (hRecorded : r'.recorded = r.recorded) :
    Accounts alive page r' where
  own := by
    rw [hNumber, hRecorded]
    exact hAccounts.own
  live := by
    rw [hRecorded]
    exact hAccounts.live
  once := by
    rw [hRecorded]
    exact hAccounts.once
  below := by
    rw [hRecorded]
    exact hAccounts.below
  apart := by
    rw [hNumber, hRecorded]
    exact hAccounts.apart
  issued := by
    rw [hNumber]
    exact hAccounts.issued

/- Two records with one number are the same. -/
theorem eq_of_listener
    (hAccounts : Accounts alive page r)
    {x y : Context × Binding}
    (hFirst : x ∈ r.recorded)
    (hSecond : y ∈ r.recorded)
    (hSame : x.2.listener = y.2.listener) :
    x = y :=
  List.inj_on_of_nodup_map hAccounts.once hFirst hSecond hSame

/- Which records count as alive matters for records only. -/
theorem ofAlive
    {alive' : Binding → Bool}
    (hAccounts : Accounts alive page r)
    (hSame : ∀ x ∈ r.recorded, alive' x.2 = alive x.2) :
    Accounts alive' page r :=
  { hAccounts with
    own := by
      rw [List.filter_congr hSame]
      exact hAccounts.own
    live := by
      intro x hMember hCounts
      rw [hSame x hMember] at hCounts
      exact hAccounts.live x hMember hCounts }

/- Edits of the tree that remove no node change nothing. -/
theorem ofKeeps
    {tree : Tree}
    (hAccounts : Accounts alive page r)
    (hKeeps : page.tree.Keeps tree) :
    Accounts alive { page with tree } r :=
  { hAccounts with
    live := fun x hMember hCounts =>
      hKeeps _ (hAccounts.live x hMember hCounts) }

------------------------------------------------------------
-- Attaching
------------------------------------------------------------

/- A listener and its record join the others. -/
theorem attach
    {page' : Page}
    {l : Listener Handler}
    {x : Context × Binding}
    (hAccounts : Accounts alive page r)
    (hNumbered : page.Numbered)
    (hList : page'.listeners = page.listeners ++ [l])
    (hNext : page'.nextListener = page.nextListener + 1)
    (hTree : page'.tree = page.tree)
    (hNumber : r'.number = r.number)
    (hRecorded : r'.recorded.Perm (x :: r.recorded))
    (hOwn : l.own? r.number = some x)
    (hId : l.id = page.nextListener)
    (hLive : page.tree.contains l.node = true)
    (hAlive : alive x.2 = true) :
    Accounts alive page' r' := by
  have hListener : x.2.listener = page.nextListener :=
    (Listener.names_of_own? hOwn).2.2.trans hId
  have hFresh :
      ∀ y ∈ r.recorded,
        page.nextListener ≠ y.2.listener := by
    intro y hMember hSame
    have hBelow := hAccounts.below y hMember
    omega
  constructor
  · have hDue := hRecorded.filter fun y => alive y.2
    rw [List.filter_cons_of_pos (by simpa using hAlive)]
      at hDue
    refine List.Perm.trans ?_ hDue.symm
    rw [hList, hNumber, List.filterMap_append]
    simp only [List.filterMap_cons, hOwn, List.filterMap_nil]
    exact
      (List.perm_append_singleton x _).trans
        (hAccounts.own.cons x)
  · intro y hMember hCounts
    rw [hRecorded.mem_iff, List.mem_cons] at hMember
    rw [hTree]
    rcases hMember with rfl | hOld
    · rw [(Listener.names_of_own? hOwn).2.1]
      exact hLive
    · exact hAccounts.live y hOld hCounts
  · rw [(hRecorded.map _).nodup_iff, List.map_cons,
      List.nodup_cons]
    refine ⟨?_, hAccounts.once⟩
    intro hMember
    rcases List.mem_map.mp hMember with ⟨y, hOld, hSame⟩
    exact hFresh y hOld (hListener.symm.trans hSame.symm)
  · intro y hMember
    rw [hRecorded.mem_iff, List.mem_cons] at hMember
    rw [hNext]
    rcases hMember with rfl | hOld
    · omega
    · have hBelow := hAccounts.below y hOld
      omega
  · intro m hMember y hRecord hSame
    rw [hList, List.mem_append, List.mem_singleton] at hMember
    rw [hRecorded.mem_iff, List.mem_cons] at hRecord
    rw [hNumber]
    rcases hMember with hOld | rfl
    · rcases hRecord with rfl | hBefore
      · have hBelow := hNumbered.below m hOld
        omega
      · exact hAccounts.apart m hOld y hBefore hSame
    · rcases hRecord with rfl | hBefore
      · exact hOwn
      · exact (hFresh y hBefore (hId.symm.trans hSame)).elim
  · intro m hMember cx guard raw hHandler
    rw [hList, List.mem_append, List.mem_singleton] at hMember
    rw [hNumber]
    rcases hMember with hOld | rfl
    · exact hAccounts.issued m hOld cx guard raw hHandler
    · by_cases hSame : cx.registry = r.number
      · exact Nat.le_of_eq hSame
      · simp [Listener.own?, hHandler, hSame] at hOwn

/- What is due for a listener that was attached as declared. -/
theorem own?_declared
    {e : Entry}
    {d : Declaration}
    {h : Handler}
    {debug : Bool}
    {t : Tree}
    (hBuilt :
      (e.provider.buildHandler (r.context e) debug t d.element
        d.condition).Gives (some h))
    (id : Nat) :
    (⟨id, d.element, d.event,
        d.selector.map Delegation.ofText, h⟩ :
          Listener Handler).own? r.number =
      some (r.context e, d.binding id) := by
  rcases Provider.buildHandler_gives hBuilt with
    ⟨guard, raw, rfl, _, _⟩
  have hNumber : (r.context e).registry = r.number := rfl
  have hSource := Delegation.source_ofText d.selector
  simp [Listener.own?, hNumber, Listener.source?, hSource,
    Declaration.binding]

/- A step of a scan records the listener that it attaches. -/
theorem binds
    {only : Option String}
    {w w' : Page × Registry}
    (hAccounts : Accounts alive w.1 w.2)
    (hNumbered : w.1.Numbered)
    (hAlive :
      ∀ b : Binding, w.1.nextListener ≤ b.listener →
        alive b = true)
    (hStep : Binds only w w') :
    Accounts alive w'.1 w'.2 ∧
      w'.2.others w'.1 = w.2.others w.1 := by
  cases hStep with
  | step page r before after e d h hEntries _ hLive _ hBuilt =>
      have hOwn := own?_declared hBuilt page.nextListener
      have hList :
          (page.attached d.element d.event
            (d.selector.map .ofText) h).listeners =
              page.listeners ++
                [⟨page.nextListener, d.element, d.event,
                  d.selector.map .ofText, h⟩] := by
        simp [Document.attached, hLive]
      constructor
      · exact
          hAccounts.attach hNumbered hList rfl rfl rfl
            (recorded_bound hEntries _) hOwn rfl hLive
            (hAlive _ (Nat.le_refl _))
      · simp only [others, hList, List.filter_append,
          List.filter_cons, hOwn, Option.isNone_some,
          Bool.false_eq_true, if_false, List.filter_nil,
          List.append_nil]

/- A listener of a recorder is one of the others. -/
theorem recorder
    (hAccounts : Accounts alive page r)
    (node : NodeId)
    (event : String)
    (delegation : Option Delegation)
    (label : String) :
    Accounts alive
      (page.attached node event delegation (.recorder label))
      r where
  own := by
    unfold Document.attached
    cases hLive : page.tree.contains node with
    | true => simpa [Listener.own?] using hAccounts.own
    | false => simpa using hAccounts.own
  live := hAccounts.live
  once := hAccounts.once
  below x hMember :=
    Nat.lt_succ_of_lt (hAccounts.below x hMember)
  apart l hMember x hRecord hSame := by
    rw [Document.mem_attached_iff] at hMember
    rcases hMember with hOld | ⟨_, rfl⟩
    · exact hAccounts.apart l hOld x hRecord hSame
    · have hBelow := hAccounts.below x hRecord
      exact (Nat.ne_of_lt hBelow hSame.symm).elim
  issued l hMember cx guard raw hHandler := by
    rw [Document.mem_attached_iff] at hMember
    rcases hMember with hOld | ⟨_, rfl⟩
    · exact hAccounts.issued l hOld cx guard raw hHandler
    · cases hHandler

/- A whole scan records the listeners that it attaches. -/
theorem bindings
    {only : Option String}
    {w w' : Page × Registry}
    (hAccounts : Accounts alive w.1 w.2)
    (hNumbered : w.1.Numbered)
    (hAlive :
      ∀ b : Binding, w.1.nextListener ≤ b.listener →
        alive b = true)
    (hRun : Bindings only w w') :
    Accounts alive w'.1 w'.2 ∧
      w'.2.others w'.1 = w.2.others w.1 := by
  induction hRun with
  | refl => exact ⟨hAccounts, rfl⟩
  | tail hBefore hStep ih =>
      have hAfter := Bindings.succeeds hBefore
      have hNext :=
        ih.1.binds (hNumbered.succeeds hAfter)
          (fun b hAbove =>
            hAlive b (Nat.le_trans hAfter.counter hAbove))
          hStep
      exact ⟨hNext.1, hNext.2.trans ih.2⟩

------------------------------------------------------------
-- Taking away
------------------------------------------------------------

/-
  Some listeners are taken away, and the records that are due
  for them are no longer there, or no longer alive.
-/
theorem restrict
    {alive' : Binding → Bool}
    {page' : Page}
    {p : Listener Handler → Bool}
    (q : Context × Binding → Bool)
    (hAccounts : Accounts alive page r)
    (hList : page'.listeners = page.listeners.filter p)
    (hNext : page'.nextListener = page.nextListener)
    (hNumber : r'.number = r.number)
    (hSublist : r'.recorded.Sublist r.recorded)
    (hDue :
      r'.recorded.filter (fun x => alive' x.2) =
        (r.recorded.filter fun x => alive x.2).filter q)
    (hSame :
      ∀ l ∈ page.listeners, ∀ x,
        l.own? r.number = some x → p l = q x)
    (hLive :
      ∀ x ∈ r'.recorded, alive' x.2 = true →
        page'.tree.contains x.2.element = true) :
    Accounts alive' page' r' where
  own := by
    have hOwn :
        (page.listeners.filter p).filterMap
            (·.own? r.number) =
          (page.listeners.filterMap
            (·.own? r.number)).filter q := by
      rw [List.filterMap_filter, List.filter_filterMap]
      apply List.filterMap_congr
      intro l hMember
      cases hOwn : l.own? r.number with
      | none => simp
      | some x =>
          rw [hSame l hMember x hOwn]
          cases hKept : q x <;> simp [Option.filter, hKept]
    rw [hList, hNumber, hOwn, hDue]
    exact hAccounts.own.filter q
  live := hLive
  once := hAccounts.once.sublist (hSublist.map _)
  below x hMember := by
    rw [hNext]
    exact hAccounts.below x (hSublist.subset hMember)
  apart l hMember x hRecord hId := by
    rw [hNumber]
    rw [hList] at hMember
    exact
      hAccounts.apart l (List.mem_of_mem_filter hMember) x
        (hSublist.subset hRecord) hId
  issued l hMember := by
    rw [hNumber]
    rw [hList] at hMember
    exact hAccounts.issued l (List.mem_of_mem_filter hMember)

/- A record names the listener that was recorded, if any. -/
theorem names_iff
    (hAccounts : Accounts alive page r)
    {removed : List Binding}
    (hRemoved :
      ∀ b ∈ removed, ∃ cx, (cx, b) ∈ r.recorded)
    {l : Listener Handler}
    (hMember : l ∈ page.listeners) :
    (removed.any fun b => b.names l) = true ↔
      ∃ x, l.own? r.number = some x ∧ x.2 ∈ removed := by
  rw [List.any_eq_true]
  constructor
  · rintro ⟨b, hThere, hNames⟩
    rcases hRemoved b hThere with ⟨cx, hRecord⟩
    have hId : l.id = b.listener := by
      simp only [Binding.names, Bool.and_eq_true, beq_iff_eq]
        at hNames
      exact hNames.1.1.2
    exact
      ⟨(cx, b), hAccounts.apart l hMember _ hRecord hId,
        hThere⟩
  · rintro ⟨x, hOwn, hThere⟩
    exact ⟨x.2, hThere, (Listener.names_of_own? hOwn).1⟩

/-
  Taking away records together with the listeners that they
  name leaves the other records and listeners in accord.
-/
theorem without
    {removed : List Binding}
    (hAccounts : Accounts alive page r)
    (hRemoved :
      ∀ b ∈ removed, ∃ cx, (cx, b) ∈ r.recorded)
    (hNumber : r'.number = r.number)
    (hRecorded :
      r'.recorded =
        r.recorded.filter fun x => !removed.contains x.2) :
    Accounts alive (page.without removed) r' ∧
      r'.others (page.without removed) = r.others page := by
  have hNames :
      ∀ l ∈ page.listeners,
        (removed.any fun b => b.names l) = true ↔
          ∃ x, l.own? r.number = some x ∧ x.2 ∈ removed :=
    fun l hMember => hAccounts.names_iff hRemoved hMember
  constructor
  · refine
      hAccounts.restrict (fun x => !removed.contains x.2) rfl
        rfl hNumber (hRecorded ▸ List.filter_sublist) ?_ ?_ ?_
    · rw [hRecorded, List.filter_filter, List.filter_filter]
      apply List.filter_congr
      intro x _
      exact Bool.and_comm _ _
    · intro l hMember x hOwn
      have hBoth := hNames l hMember
      rw [hOwn] at hBoth
      have hThere :
          (removed.any fun b => b.names l) = true ↔
            removed.contains x.2 = true := by
        rw [hBoth]
        simp
      rw [Bool.eq_iff_iff.mpr hThere]
    · intro x hMember hCounts
      rw [hRecorded] at hMember
      exact
        hAccounts.live x (List.mem_of_mem_filter hMember)
          hCounts
  · simp only [others, Document.without, hNumber,
      List.filter_filter]
    apply List.filter_congr
    intro l hMember
    cases hOwn : l.own? r.number with
    | some x => simp
    | none =>
        have hNone :
            (removed.any fun b => b.names l) = false := by
          rw [← Bool.not_eq_true, hNames l hMember, hOwn]
          simp
        simp [hNone]

------------------------------------------------------------
-- Calls of the page
------------------------------------------------------------

/- Attaching a recorder does to the others what it does to all. -/
theorem others_recorder
    (r : Registry)
    (page : Page)
    (node : NodeId)
    (event : String)
    (delegation : Option Delegation)
    (label : String) :
    r.others
        (page.attached node event delegation
          (.recorder label)) =
      (({ page with listeners := r.others page } :
          Page).attached node event delegation
            (.recorder label)).listeners := by
  simp only [others, Document.attached]
  cases hLive : page.tree.contains node with
  | true => simp [Listener.own?]
  | false => simp

/- A call of the page may detach any of the others. -/
theorem detach
    (hAccounts : Accounts alive page r)
    {node : NodeId}
    {event : String}
    {source : Option String}
    {id : Nat}
    (hSpares :
      ∀ l ∈ page.listeners,
        l ∉ (page.detach node event source id).listeners →
          l ∈ r.others page) :
    Accounts alive (page.detach node event source id) r ∧
      r.others (page.detach node event source id) =
        (({ page with listeners := r.others page } :
          Page).detach node event source id).listeners := by
  constructor
  · refine
      hAccounts.restrict (fun _ => true) rfl rfl rfl
        (List.Sublist.refl _) ?_ ?_ hAccounts.live
    · exact (List.filter_eq_self.mpr fun _ _ => rfl).symm
    · intro l hMember x hOwn
      by_contra hGone
      have hOther := hSpares l hMember (by
        intro hStill
        exact hGone (List.mem_filter.mp hStill).2)
      have hNone := (List.mem_filter.mp hOther).2
      simp [hOwn] at hNone
  · simp only [others, Document.detach, List.filter_filter]
    apply List.filter_congr
    intro l _
    exact Bool.and_comm _ _

/-
  Removing nodes takes their listeners away, and the records
  of these are no longer alive.
-/
theorem removed
    (hAccounts : Accounts alive page r)
    (tree : Tree) :
    Accounts
        (fun b => tree.contains b.element && alive b)
        { page with
          tree
          listeners :=
            page.listeners.filter fun l =>
              tree.contains l.node } r ∧
      r.others
          { page with
            tree
            listeners :=
              page.listeners.filter fun l =>
                tree.contains l.node } =
        (r.others page).filter fun l =>
          tree.contains l.node := by
  constructor
  · refine
      hAccounts.restrict
        (fun x => tree.contains x.2.element) rfl rfl rfl
        (List.Sublist.refl _) ?_ ?_ ?_
    · rw [List.filter_filter]
    · intro l _ x hOwn
      rw [(Listener.names_of_own? hOwn).2.1]
    · intro x _ hCounts
      exact (Bool.and_eq_true _ _ ▸ hCounts).1
  · simp only [others, List.filter_filter]
    apply List.filter_congr
    intro l _
    exact Bool.and_comm _ _

------------------------------------------------------------
-- Providers
------------------------------------------------------------

end Accounts

/- The records of the entries that are not meant. -/
def spared
    (r : Registry)
    (only : Option String) : List (Context × Binding) :=
  r.entries.flatMap fun e =>
    if e.isMeant only then []
    else e.bindings.map fun b => (r.context e, b)

theorem recorded_unbind
    (r : Registry)
    (page : Page)
    (only : Option String) :
    (r.unbind page only).2.recorded = r.spared only := by
  rw [unbind_eq]
  simp only [recorded, spared, List.flatMap_map]
  apply List.flatMap_congr
  intro e _
  cases hMeant : e.isMeant only with
  | true => simp [Entry.released]
  | false => simp [context, Entry.shortName]

theorem recorded_drop
    (r : Registry)
    (name : String) :
    (r.drop name).recorded = r.spared (some name) := by
  simp only [recorded, drop, spared]
  induction r.entries with
  | nil => rfl
  | cons e rest ih =>
      by_cases hName : e.shortName = name
      · simpa [Entry.isMeant, hName] using ih
      · have hOther : name ≠ e.shortName :=
          fun h => hName h.symm
        simpa [Entry.isMeant, hName, hOther, context] using ih

theorem mem_meant_iff
    {r : Registry}
    {only : Option String}
    {b : Binding} :
    b ∈ r.meant only ↔
      ∃ e ∈ r.entries, e.isMeant only = true ∧
        b ∈ e.bindings := by
  simp [meant, and_assoc]

namespace Accounts

variable {alive : Binding → Bool}
variable {page : Page}
variable {r : Registry}

/- No record of a meant entry is one of another entry, too. -/
theorem spared_eq
    (hAccounts : Accounts alive page r)
    (only : Option String) :
    r.spared only =
      r.recorded.filter fun x =>
        !(r.meant only).contains x.2 := by
  rw [recorded, List.filter_flatMap, spared]
  apply List.flatMap_congr
  intro e hEntry
  cases hMeant : e.isMeant only with
  | true =>
      rw [if_pos rfl]
      refine (List.filter_eq_nil_iff.mpr ?_).symm
      intro x hMember
      rcases List.mem_map.mp hMember with ⟨b, hThere, rfl⟩
      have hAmong : b ∈ r.meant only :=
        mem_meant_iff.mpr ⟨e, hEntry, hMeant, hThere⟩
      simpa using hAmong
  | false =>
      rw [if_neg (by simp)]
      refine (List.filter_eq_self.mpr ?_).symm
      intro x hMember
      rcases List.mem_map.mp hMember with ⟨b, hThere, rfl⟩
      have hApart : b ∉ r.meant only := by
        intro hAmong
        rcases mem_meant_iff.mp hAmong with
          ⟨e', hOther, hMeant', hThere'⟩
        have hFirst : (r.context e, b) ∈ r.recorded :=
          mem_recorded_iff.mpr ⟨e, hEntry, rfl, hThere⟩
        have hSecond : (r.context e', b) ∈ r.recorded :=
          mem_recorded_iff.mpr ⟨e', hOther, rfl, hThere'⟩
        have hSame :=
          hAccounts.eq_of_listener hFirst hSecond rfl
        have hName : e.shortName = e'.shortName :=
          congrArg (·.1.shortName) hSame
        rw [Entry.isMeant, hName, ← Entry.isMeant, hMeant']
          at hMeant
        cases hMeant
      simpa using hApart

theorem meant_recorded
    (r : Registry)
    (only : Option String) :
    ∀ b ∈ r.meant only, ∃ cx, (cx, b) ∈ r.recorded := by
  intro b hMember
  rcases mem_meant_iff.mp hMember with ⟨e, hEntry, _, hThere⟩
  exact
    ⟨r.context e,
      mem_recorded_iff.mpr ⟨e, hEntry, rfl, hThere⟩⟩

/- Unbinding takes listeners and records away together. -/
theorem unbind
    (hAccounts : Accounts alive page r)
    (only : Option String) :
    Accounts alive (r.unbind page only).1
        (r.unbind page only).2 ∧
      (r.unbind page only).2.others (r.unbind page only).1 =
        r.others page := by
  have hRecorded := recorded_unbind r page only
  rw [hAccounts.spared_eq only] at hRecorded
  rw [unbind_eq] at hRecorded ⊢
  exact
    hAccounts.without (meant_recorded r only) rfl hRecorded

/- So does taking the providers with a name out. -/
theorem evicted
    (hAccounts : Accounts alive page r)
    (name : String) :
    Accounts alive (r.evicted page name).1
        (r.evicted page name).2 ∧
      (r.evicted page name).2.others
          (r.evicted page name).1 =
        r.others page :=
  hAccounts.without (meant_recorded r (some name)) rfl
    ((recorded_drop r name).trans
      (hAccounts.spared_eq (some name)))

/- So does taking all providers out. -/
theorem clear
    (hAccounts : Accounts alive page r) :
    Accounts alive (r.clear page).1 (r.clear page).2 ∧
      (r.clear page).2.others (r.clear page).1 =
        r.others page := by
  have hUnbind := hAccounts.unbind none
  have hNone : (r.unbind page none).2.recorded = [] := by
    rw [recorded_unbind, spared]
    exact List.flatMap_eq_nil_iff.mpr fun _ _ => rfl
  exact
    ⟨hUnbind.1.ofRecorded rfl (by rw [hNone]; rfl),
      hUnbind.2⟩

/- Without providers all listeners belong to others. -/
theorem others_of_nil
    (hAccounts : Accounts alive page r)
    (hEntries : r.entries = []) :
    r.others page = page.listeners := by
  have hNone :
      page.listeners.filterMap (·.own? r.number) = [] := by
    have hOwn := hAccounts.own
    simp only [recorded, hEntries, List.flatMap_nil,
      List.filter_nil, List.perm_nil] at hOwn
    exact hOwn
  apply List.filter_eq_self.mpr
  intro l hMember
  simp [List.filterMap_eq_nil_iff.mp hNone l hMember]

/-
  For a registry that comes after, all listeners so far
  belong to others.
-/
theorem retired
    (hAccounts : Accounts alive page r)
    (r' : Registry)
    (hNumber : r'.number = r.number + 1)
    (hEntries : r'.entries = []) :
    Accounts alive page r' ∧
      r'.others page = page.listeners := by
  have hRecorded : r'.recorded = [] := by
    rw [recorded, hEntries]
    rfl
  have hNone :
      ∀ l ∈ page.listeners, l.own? r'.number = none := by
    intro l hMember
    cases hHandler : l.handler with
    | recorder label => simp [Listener.own?, hHandler]
    | provided cx guard raw =>
        have hBelow :=
          hAccounts.issued l hMember cx guard raw hHandler
        have hOther : cx.registry ≠ r'.number := by omega
        simp [Listener.own?, hHandler, hOther]
  constructor
  · constructor
    · rw [hRecorded, List.filterMap_eq_nil_iff.mpr hNone]
      exact List.Perm.refl _
    · simp [hRecorded]
    · simp [hRecorded]
    · simp [hRecorded]
    · simp [hRecorded]
    · intro l hMember cx guard raw hHandler
      have hBelow :=
        hAccounts.issued l hMember cx guard raw hHandler
      omega
  · apply List.filter_eq_self.mpr
    intro l hMember
    simp [hNone l hMember]

/- A new provider has no records yet. -/
theorem enrolled
    (hAccounts : Accounts alive page r)
    (provider : Provider)
    (number : Nat) :
    Accounts alive page (r.enrolled provider number) :=
  hAccounts.ofRecorded rfl (by
    simp [recorded, Registry.enrolled, context])

end Accounts

end Registry

end MarkupMetrics
