import MarkupMetrics.Proofs.Dom.Sweep
import MarkupMetrics.Selector.Query

/-
  This file proves what a search by the text of a selector
  finds.

  A text that is no selector finds nothing, and the tree is not
  walked for it.  Any other one is tried on all nodes below the
  scope.

  Key definitions include:
    * `Tree.selects`
    * `Tree.Tries`

  Key theorems include:
    * `Tree.find_gives_iff`
    * `Tree.mem_found_iff`
    * `Tree.exists_tries`
-/

namespace MarkupMetrics

open Dom

/- A text is read as the selector that it parses to. -/
theorem Selector.read?_gives_iff
    {source : String}
    {result : Option SelectorList} :
    (read? source).Gives result ↔
      result = (parse source).toOption := by
  unfold read?
  cases parse source with
  | ok list =>
      rw [Trace.gives_pure_iff]
      exact eq_comm
  | error e =>
      rw [Trace.gives_note_bind_iff, Trace.gives_pure_iff]
      exact eq_comm

namespace Dom.Tree

/- Whether a node matches the selector that a text stands for. -/
def selects
    (t : Tree)
    (source : String)
    (x : NodeId) : Bool :=
  (Selector.parse source).toOption.any fun list =>
    Selector.matchesList t list x

/-
  The nodes that a text is tried on as a selector: those below
  the scope, or none if it is no selector.
-/
inductive Tries
    (t : Tree)
    (source : String)
    (scope : NodeId)
    (below : List NodeId) : Prop where
  | all
      (list : Selector.SelectorList)
      (hSelector : Selector.parse source = .ok list)
      (hBelow : t.descendants scope = .ok below)
  | none
      (e : Selector.SelectorError)
      (hSelector : Selector.parse source = .error e)
      (hBelow : below = [])

variable {t : Tree}
variable {source : String}
variable {scope : NodeId}
variable {below found : List NodeId}

/- What is found is what is selected of those. -/
theorem find_gives_iff :
    (t.find scope source).Gives found ↔
      ∃ below, t.Tries source scope below ∧
        found = below.filter (t.selects source) := by
  rw [find, Trace.gives_bind_iff]
  simp only [Selector.read?_gives_iff, exists_eq_left]
  cases hSelector : Selector.parse source with
  | error e =>
      simp only [Except.toOption, Trace.gives_pure_iff]
      constructor
      · rintro rfl
        exact ⟨[], .none e hSelector rfl, rfl⟩
      · rintro ⟨below, hTries, rfl⟩
        cases hTries with
        | all list hList _ => simp [hSelector] at hList
        | none _ _ hBelow => simp [hBelow]
  | ok list =>
      have hSelects :
          t.selects source = Selector.matchesList t list := by
        funext x
        simp [selects, hSelector, Except.toOption]
      simp only [Except.toOption, Trace.gives_ofExcept_iff,
        Selector.findAll, Outcome.bind_eq_ok_iff,
        Outcome.pure_eq_ok_iff, hSelects]
      constructor
      · rintro ⟨below, hBelow, rfl⟩
        exact ⟨below, .all list hSelector hBelow, rfl⟩
      · rintro ⟨below, hTries, rfl⟩
        cases hTries with
        | all _ _ hBelow => exact ⟨below, hBelow, rfl⟩
        | none e hError _ => simp [hSelector] at hError

/- If the links agree the walk ends. -/
theorem exists_tries
    (hLinked : t.Linked)
    (source : String)
    (scope : NodeId) :
    ∃ below, t.Tries source scope below := by
  cases hSelector : Selector.parse source with
  | error e => exact ⟨[], .none e hSelector rfl⟩
  | ok list =>
      rcases exists_descendants hLinked scope with
        ⟨below, hBelow⟩
      exact ⟨below, .all list hSelector hBelow⟩

/- What a selector is tried on are nodes. -/
theorem Tries.contains
    (hTries : t.Tries source scope below) :
    ∀ x ∈ below, t.contains x = true := by
  cases hTries with
  | all list _ hBelow =>
      exact fun x => contains_of_mem_descendants hBelow
  | none e _ hBelow => simp [hBelow]

/- No node is tried twice. -/
theorem Tries.nodup
    (hTries : t.Tries source scope below)
    (hLinked : t.Linked) :
    below.Nodup := by
  cases hTries with
  | all list _ hBelow =>
      exact nodup_of_descendants hLinked hBelow
  | none e _ hBelow => simp [hBelow]

/- What is selected of them stands below the scope. -/
theorem Tries.mem_iff
    (hTries : t.Tries source scope below)
    (hLinked : t.Linked)
    {x : NodeId} :
    x ∈ below ∧ t.selects source x = true ↔
      t.contains scope = true ∧ x ≠ scope ∧
        t.Within x scope ∧ t.selects source x = true := by
  cases hTries with
  | none e hSelector hBelow =>
      simp [selects, hSelector, Except.toOption]
  | all list _ hBelow =>
      cases hLive : t.contains scope with
      | true =>
          rw [mem_descendants_iff hLinked hLive hBelow]
          simp [and_assoc]
      | false =>
          have hEmpty : below = [] := by
            rw [not_contains_iff] at hLive
            rw [descendants, hLive] at hBelow
            exact (Except.ok.inj hBelow).symm
          simp [hEmpty]

/- What is found below a node are nodes. -/
theorem contains_of_find
    (hRun : (t.find scope source).Gives found) :
    ∀ x ∈ found, t.contains x = true := by
  rcases find_gives_iff.mp hRun with ⟨below, hTries, rfl⟩
  intro x hMember
  exact hTries.contains x (List.mem_of_mem_filter hMember)

/- No node is found twice. -/
theorem nodup_of_find
    (hLinked : t.Linked)
    (hRun : (t.find scope source).Gives found) :
    found.Nodup := by
  rcases find_gives_iff.mp hRun with ⟨below, hTries, rfl⟩
  exact (hTries.nodup hLinked).filter _

/- What is found is what stands below the scope and matches. -/
theorem mem_found_iff
    (hLinked : t.Linked)
    (hRun : (t.find scope source).Gives found)
    {x : NodeId} :
    x ∈ found ↔
      t.contains scope = true ∧ x ≠ scope ∧
        t.Within x scope ∧ t.selects source x = true := by
  rcases find_gives_iff.mp hRun with ⟨below, hTries, rfl⟩
  rw [List.mem_filter, hTries.mem_iff hLinked]

end Dom.Tree

end MarkupMetrics
