import MarkupMetrics.Proofs.Registry.Accounts
import MarkupMetrics.Proofs.Registry.Plan
import Mathlib.Data.List.ProdSigma

/-
  This file proves what a scan leaves behind: which listeners
  it attaches, which records it makes of them, and what it
  counts.

  The scan is two loops, over elements and over providers.  It
  comes to the list of all pairs of them for which a handler
  is built, in the order of the loops.

  Key definitions include:
    * `Registry.tokens`
    * `Registry.declaring`
    * `Registry.pairs`
    * `Registry.offered`
    * `Registry.Visits`
    * `Registry.recording`

  Key theorems include:
    * `Registry.declared?_eq`
    * `Registry.plan_eq_offered`
    * `Registry.mem_declaring_iff`
    * `Registry.Bindings.recorded`
    * `Registry.scan_gives_iff`
-/

namespace MarkupMetrics

open Dom Text

------------------------------------------------------------
-- Declarations
------------------------------------------------------------

/- The words of a text. -/
def tokensOf
    (value : String) : List String :=
  (words value.toList).map String.ofList

/- The last word is the event, and the one before it selects. -/
theorem declaredEvent?_eq
    (value : String) :
    declaredEvent? value =
      if tokensOf value = [] then none
      else
        some
          ((tokensOf value).getLastD "",
            (tokensOf value).dropLast.getLast?) := by
  unfold declaredEvent? tokensOf
  generalize words value.toList = list
  rcases hReverse : list.reverse with
    _ | ⟨event, _ | ⟨selector, rest⟩⟩
  · have hList : list = [] := by simpa using hReverse
    simp [hList]
  · have hList : list = [event] := by
      simpa using congrArg List.reverse hReverse
    simp [hList]
  · have hList :
        list = rest.reverse ++ [selector, event] := by
      simpa using congrArg List.reverse hReverse
    simp [hList]

namespace Registry

/- The words of the event attribute of an element. -/
def tokens
    (r : Registry)
    (t : Tree)
    (x : NodeId) : List String :=
  ((t.attr? x r.config.eventAttribute).map tokensOf).getD []

/-
  What an element with words declares: the last word is the
  event, the one before it the selector, if there is one.
-/
def declaration
    (r : Registry)
    (t : Tree)
    (x : NodeId) : Declaration :=
  { element := x
    event := (r.tokens t x).getLastD ""
    selector := (r.tokens t x).dropLast.getLast?
    condition := t.attr? x r.config.conditionAttribute }

theorem declared?_eq
    (r : Registry)
    (t : Tree)
    (x : NodeId) :
    r.declared? t x =
      if r.tokens t x = [] then none
      else some (r.declaration t x) := by
  unfold declared? declaration tokens
  cases hValue : t.attr? x r.config.eventAttribute with
  | none => simp
  | some value =>
      simp only [Option.bind_eq_bind, Option.bind_some,
        declaredEvent?_eq, Option.map_some, Option.getD_some]
      split <;> rfl

------------------------------------------------------------
-- Pairs
------------------------------------------------------------

/- Those of some elements that are selected and have words. -/
def declaring
    (r : Registry)
    (t : Tree)
    (below : List NodeId) : List NodeId :=
  below.filter fun x =>
    t.selects r.eventSelector x && !(r.tokens t x).isEmpty

/-
  The pairs that a scan goes through: for one element after
  the other, the providers that are meant, in the order of
  registration.
-/
def pairs
    (r : Registry)
    (only : Option String)
    (t : Tree)
    (below : List NodeId) : List (NodeId × Provider × Nat) :=
  r.declaring t below ×ˢ r.chosen only

/- The handler that is built for a pair. -/
def build
    (r : Registry)
    (t : Tree)
    (p : NodeId × Provider × Nat) : Trace (Option Handler) :=
  p.2.1.buildHandler ⟨r.number, p.2.2, p.2.1.shortName⟩
    r.config.debug t p.1 (r.declaration t p.1).condition

/- Those of some pairs for which a handler is built. -/
def offered
    (r : Registry)
    (t : Tree)
    (pairs : List (NodeId × Provider × Nat)) : List Offer :=
  pairs.filterMap fun p =>
    (r.build t p).result?.join.map fun h =>
      ⟨⟨r.number, p.2.2, p.2.1.shortName⟩,
        r.declaration t p.1, h⟩

/- They are the plan for the elements that are selected. -/
theorem plan_eq_offered
    (r : Registry)
    (only : Option String)
    (t : Tree)
    (below : List NodeId) :
    r.plan only t (below.filter (t.selects r.eventSelector)) =
      r.offered t (r.pairs only t below) := by
  have hOffers :
      ∀ x, r.offers only t x =
        if r.tokens t x = [] then []
        else
          r.offered t ((r.chosen only).map fun m => (x, m)) := by
    intro x
    rw [offers, declared?_eq]
    split
    · rfl
    · simp only [Option.toList_some, List.flatMap_singleton,
        offered, List.filterMap_map]
      rfl
  have hElements :
      ∀ elements,
        r.plan only t elements =
          r.offered t
            ((elements.filter fun x =>
              !(r.tokens t x).isEmpty) ×ˢ r.chosen only) := by
    intro elements
    induction elements with
    | nil => rfl
    | cons x rest ih =>
        rw [plan] at ih ⊢
        rw [List.flatMap_cons, ih, hOffers]
        by_cases hNone : r.tokens t x = []
        · rw [if_pos hNone, List.nil_append,
            List.filter_cons_of_neg (by simp [hNone])]
        · rw [if_neg hNone,
            List.filter_cons_of_pos (by simpa using hNone),
            List.product_cons, offered, offered, offered,
            List.filterMap_append]
  rw [hElements, List.filter_filter, pairs, declaring]
  simp only [Bool.and_comm]

/- Building ends for the pairs if it does for the elements. -/
theorem builds_iff_pairs
    {r : Registry}
    {only : Option String}
    {t : Tree}
    {below : List NodeId} :
    (∀ x ∈ below.filter (t.selects r.eventSelector),
        r.Builds only t x) ↔
      ∀ p ∈ r.pairs only t below,
        ∃ built, (r.build t p).Gives built := by
  have hBuilds :
      ∀ x, r.Builds only t x ↔
        (r.tokens t x ≠ [] →
          ∀ m ∈ r.chosen only,
            ∃ built, (r.build t (x, m)).Gives built) := by
    intro x
    rw [Builds, declared?_eq]
    by_cases hNone : r.tokens t x = []
    · simp [hNone]
    · simp [hNone, build, declaration]
  simp only [hBuilds, pairs, declaring, Prod.forall,
    List.mem_product, List.mem_filter, Bool.and_eq_true,
    Bool.not_eq_true', List.isEmpty_eq_false_iff, and_imp]
  constructor
  · intro hAll x p n hBelow hSelects hTokens hChosen
    exact hAll x hBelow hSelects hTokens p n hChosen
  · intro hAll x hBelow hSelects hTokens p n hChosen
    exact hAll x p n hBelow hSelects hTokens hChosen

/-
  An element that a scan below a node goes through: it stands
  below that node, matches the selector of the scan, and its
  event attribute has words.
-/
structure Visits
    (r : Registry)
    (t : Tree)
    (root x : NodeId) : Prop where
  live : t.contains root = true
  other : x ≠ root
  within : t.Within x root
  selected : t.selects r.eventSelector x = true
  worded : r.tokens t x ≠ []

theorem mem_declaring_iff
    {r : Registry}
    {t : Tree}
    {root : NodeId}
    {below : List NodeId}
    (hLinked : t.Linked)
    (hTries : t.Tries r.eventSelector root below)
    {x : NodeId} :
    x ∈ r.declaring t below ↔ r.Visits t root x := by
  simp only [declaring, List.mem_filter, Bool.and_eq_true,
    Bool.not_eq_true', List.isEmpty_eq_false_iff]
  rw [← and_assoc, hTries.mem_iff hLinked]
  constructor
  · rintro ⟨⟨hLive, hOther, hWithin, hSelected⟩, hWorded⟩
    exact ⟨hLive, hOther, hWithin, hSelected, hWorded⟩
  · rintro ⟨hLive, hOther, hWithin, hSelected, hWorded⟩
    exact ⟨⟨hLive, hOther, hWithin, hSelected⟩, hWorded⟩

------------------------------------------------------------
-- Records
------------------------------------------------------------

end Registry

/- The record of an offer that is attached by some number. -/
def Offer.record
    (o : Offer)
    (id : Nat) : Context × Binding :=
  (o.context, o.declaration.binding id)

/- An entry with those of some records that bear its name. -/
def Entry.recording
    (records : List (Context × Binding))
    (e : Entry) : Entry :=
  { e with
    bindings :=
      e.bindings ++
        (records.filter fun x =>
          x.1.shortName == e.shortName).map (·.2) }

/- Without any of its name it stays the same. -/
theorem Entry.recording_of_others
    {records : List (Context × Binding)}
    {e : Entry}
    (hOthers : ∀ x ∈ records, x.1.shortName ≠ e.shortName) :
    e.recording records = e := by
  have hNone :
      (records.filter fun x =>
        x.1.shortName == e.shortName) = [] :=
    List.filter_eq_nil_iff.mpr fun x hMember hSame =>
      hOthers x hMember (beq_iff_eq.mp hSame)
  simp [recording, hNone]

namespace Registry

/-
  A registry with more records, each of them at the end of
  those of the provider with its short name.
-/
def recording
    (r : Registry)
    (records : List (Context × Binding)) : Registry :=
  { r with entries := r.entries.map (·.recording records) }

theorem recording_nil
    (r : Registry) :
    r.recording [] = r := by
  have hSame :
      r.entries.map (·.recording []) = r.entries :=
    List.map_id'' (fun e => Entry.recording_of_others (by simp))
      r.entries
  rw [recording, hSame]

/- Records are made one after the other. -/
theorem recording_append
    (r : Registry)
    (first second : List (Context × Binding)) :
    r.recording (first ++ second) =
      (r.recording first).recording second := by
  simp [recording, Entry.recording, Entry.shortName]

theorem members_recording
    (r : Registry)
    (records : List (Context × Binding)) :
    (r.recording records).members = r.members := by
  simp [recording, members, Entry.recording]

theorem names_recording
    (r : Registry)
    (records : List (Context × Binding)) :
    (r.recording records).names = r.names := by
  rw [names_eq_members, members_recording, names_eq_members]

/- One record goes to the one entry with its name. -/
theorem recording_singleton
    {r : Registry}
    (hDistinct : r.names.Nodup)
    {before after : List Entry}
    {e : Entry}
    (hEntries : r.entries = before ++ e :: after)
    (b : Binding) :
    r.recording [(r.context e, b)] =
      { r with entries := before ++ e.bound b :: after } := by
  simp only [names, hEntries, List.map_append, List.map_cons,
    List.nodup_append, List.nodup_cons] at hDistinct
  rcases hDistinct with ⟨_, ⟨hLater, _⟩, hApart⟩
  have hUnchanged :
      ∀ entries : List Entry,
        (∀ e' ∈ entries, e.shortName ≠ e'.shortName) →
          entries.map (·.recording [(r.context e, b)]) =
            entries := by
    intro entries hOther
    refine Eq.trans (List.map_congr_left ?_) entries.map_id
    intro e' hMember
    apply Entry.recording_of_others
    intro x hOnly
    rw [List.mem_singleton.mp hOnly]
    exact hOther e' hMember
  have hBefore := hUnchanged before fun e' hMember hSame =>
    hApart _ (List.mem_map_of_mem hMember) _
      List.mem_cons_self hSame.symm
  have hAfter := hUnchanged after fun e' hMember hSame =>
    hLater (hSame ▸ List.mem_map_of_mem hMember)
  have hOwn : e.recording [(r.context e, b)] = e.bound b := by
    simp [Entry.recording, Entry.bound, context]
  rw [recording, hEntries, List.map_append, List.map_cons,
    hBefore, hAfter, hOwn]

------------------------------------------------------------
-- Scans
------------------------------------------------------------

/-
  Whatever is attached is recorded in the same order, and for
  each of the numbers that were used there is a record.
-/
theorem Bindings.recorded
    {only : Option String}
    {w w' : Page × Registry}
    (hRun : Bindings only w w')
    (hDistinct : w.2.names.Nodup) :
    ∃ new,
      w'.1.listeners = w.1.listeners ++ new ∧
        w'.2 =
          w.2.recording (new.filterMap (·.own? w.2.number)) := by
  induction hRun with
  | refl =>
      refine ⟨[], (List.append_nil _).symm, ?_⟩
      exact w.2.recording_nil.symm
  | tail hBefore hStep ih =>
      rcases ih with ⟨new, hNew, hRecords⟩
      cases hStep with
      | step page r before after e d h hEntries hMeant hLive
          hRead hBuilt =>
          have hNumber : r.number = w.2.number :=
            (Bindings.same hBefore).2.1
          have hNames : r.names.Nodup := by
            have hSame : r = _ := hRecords
            rw [hSame, names_recording]
            exact hDistinct
          let l : Listener Handler :=
            ⟨page.nextListener, d.element, d.event,
              d.selector.map .ofText, h⟩
          have hOwn : l.own? w.2.number =
              some (r.context e, d.binding page.nextListener) :=
            hNumber ▸
              Accounts.own?_declared hBuilt page.nextListener
          refine ⟨new ++ [l], ?_, ?_⟩
          · have hOld : page.listeners = _ := hNew
            simp [Document.attached, hLive, hOld, l]
          · have hOld : r = _ := hRecords
            rw [List.filterMap_append, recording_append, ← hOld,
              List.filterMap_cons_some hOwn,
              List.filterMap_nil]
            exact (recording_singleton hNames hEntries _).symm

/- What is due for the listener of an offer of a plan. -/
theorem own?_of_mem_plan
    {r : Registry}
    {only : Option String}
    {t : Tree}
    {elements : List NodeId}
    {o : Offer}
    (hMember : o ∈ r.plan only t elements)
    (id : Nat) :
    (o.listener id).own? r.number = some (o.record id) := by
  rcases handler_of_mem_plan hMember with
    ⟨guard, raw, hHandler⟩
  simp only [plan, offers, List.mem_flatMap,
    Option.mem_toList, List.mem_filterMap] at hMember
  rcases hMember with ⟨_, _, d, _, m, _, hOffer⟩
  have hNumber : o.context.registry = r.number := by
    rw [(context_of_offer? hOffer).1]
  have hSource :=
    Delegation.source_ofText o.declaration.selector
  simp [Listener.own?, Offer.listener, hHandler, hNumber,
    Listener.source?, hSource, Offer.record,
    Declaration.binding]

/- The records of a plan whose numbers start at the counter. -/
def numbered
    (first : Nat)
    (offers : List Offer) : List (Context × Binding) :=
  (offers.zipIdx first).map fun x => x.1.record x.2

/- What a scan has recorded and counted, if it attached a plan. -/
theorem recorded_of_fulfilled
    {r r' : Registry}
    {page : Page}
    {root : Option NodeId}
    {only : Option String}
    {n : Nat}
    {elements : List NodeId}
    (hDistinct : r.names.Nodup)
    (hRun :
      (r.scan page root only).Gives
        (page.fulfilled (r.plan only page.tree elements),
          r', n)) :
    r' =
        r.recording
          (numbered page.nextListener
            (r.plan only page.tree elements)) ∧
      n = (r.plan only page.tree elements).length := by
  rcases (scan_bindings hRun).recorded hDistinct with
    ⟨new, hNew, hRecords⟩
  have hList :
      new =
        ((r.plan only page.tree elements).zipIdx
          page.nextListener).map fun x => x.1.listener x.2 :=
    (List.append_cancel_left hNew).symm
  have hOwn :
      new.filterMap (·.own? r.number) =
        numbered page.nextListener
          (r.plan only page.tree elements) := by
    rw [hList, List.filterMap_map, numbered,
      ← List.filterMap_eq_map]
    apply List.filterMap_congr
    intro x hMember
    exact
      own?_of_mem_plan (List.fst_mem_of_mem_zipIdx hMember) x.2
  have hCount :
      page.nextListener +
          (r.plan only page.tree elements).length =
        page.nextListener + n :=
    scan_counts hRun
  exact ⟨hOwn ▸ hRecords, (Nat.add_left_cancel hCount).symm⟩

/-
  A scan comes to an end if the walk below the root and all
  building do.  It attaches one listener for every pair of an
  element and a provider for which a handler is built, records
  each of them, and counts them.
-/
theorem scan_gives_iff
    {r : Registry}
    {page : Page}
    {root : Option NodeId}
    {only : Option String}
    {w : Page × Registry × Nat}
    (hDistinct : r.names.Nodup) :
    (r.scan page root only).Gives w ↔
      ∃ below offers,
        page.tree.Tries r.eventSelector (root.getD 0) below ∧
          (∀ p ∈ r.pairs only page.tree below,
            ∃ built, (r.build page.tree p).Gives built) ∧
          offers =
            r.offered page.tree
              (r.pairs only page.tree below) ∧
          w =
            (page.fulfilled offers,
              r.recording (numbered page.nextListener offers),
              offers.length) := by
  simp only [← builds_iff_pairs, ← plan_eq_offered]
  rcases w with ⟨page', r', n⟩
  constructor
  · intro hRun
    rcases exists_scan_iff.mp ⟨r', n, hRun⟩ with
      ⟨found, hFind, hBuilds, rfl⟩
    rcases Tree.find_gives_iff.mp hFind with ⟨below, hTries, rfl⟩
    rcases recorded_of_fulfilled hDistinct hRun with
      ⟨rfl, rfl⟩
    exact ⟨below, _, hTries, hBuilds, rfl, rfl⟩
  · rintro ⟨below, offers, hTries, hBuilds, rfl, hDone⟩
    simp only [Prod.mk.injEq] at hDone
    rcases hDone with ⟨rfl, rfl, rfl⟩
    have hFind := Tree.find_gives_iff.mpr ⟨below, hTries, rfl⟩
    rcases exists_scan_iff.mpr ⟨_, hFind, hBuilds, rfl⟩ with
      ⟨r', n, hRun⟩
    rcases recorded_of_fulfilled hDistinct hRun with
      ⟨rfl, rfl⟩
    exact hRun

end Registry

end MarkupMetrics
