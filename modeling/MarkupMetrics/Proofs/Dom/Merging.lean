import MarkupMetrics.Proofs.Dom.Attributes

/-
  This file proves what it does to the attributes of an
  element to add those whose name is not there yet.

  The names are looked up in a list that grows on the way, so
  of several new attributes with one name the first is taken.
  What was there stays in front, so it is still what is read.

  Key definitions include:
    * `Attribute.newcomers`
    * `Tree.Merges`

  Key theorems include:
    * `Attribute.addMissing_eq`
    * `Attribute.nodup_addMissing`
    * `Attribute.addMissing_addMissing`
    * `Tree.exists_addAttributes`
-/

namespace MarkupMetrics

namespace Dom

------------------------------------------------------------
-- Lists of attributes
------------------------------------------------------------

namespace Attribute

/- Two attributes have one qualified name. -/
def sameName
    (a b : Attribute) : Bool :=
  a.name = b.name

/-
  The attributes whose name is not among the present ones,
  the first for each name.
-/
def newcomers
    (attrs new : List Attribute) : List Attribute :=
  (new.filter fun a => !hasName attrs a.name).eraseDupsBy
    sameName

theorem hasName_iff
    {attrs : List Attribute}
    {name : QualName} :
    hasName attrs name = true ↔ name ∈ attrs.map (·.name) := by
  simp [hasName]

theorem hasName_append
    (attrs new : List Attribute)
    (name : QualName) :
    hasName (attrs ++ new) name =
      (hasName attrs name || hasName new name) := by
  simp [hasName]

/- The next attribute is added, or left out. -/
theorem addMissing_cons
    (attrs : List Attribute)
    (a : Attribute)
    (rest : List Attribute) :
    addMissing attrs (a :: rest) =
      if hasName attrs a.name then addMissing attrs rest
      else addMissing (attrs ++ [a]) rest := by
  rw [addMissing, List.foldl_cons]
  split
  · rfl
  · rfl

/- An attribute with a new name shuts out others like it. -/
theorem newcomers_cons
    {attrs : List Attribute}
    {a : Attribute}
    (hNew : hasName attrs a.name = false)
    (rest : List Attribute) :
    newcomers attrs (a :: rest) =
      a :: newcomers (attrs ++ [a]) rest := by
  rw [newcomers, List.filter_cons_of_pos (by simp [hNew]),
    List.eraseDupsBy_cons, List.filter_filter, newcomers]
  congr 2
  apply List.filter_congr
  intro b _
  have hAlone : hasName [a] b.name = sameName b a := by
    simp [hasName, sameName, eq_comm]
  rw [hasName_append, hAlone]
  cases sameName b a <;> simp

/-
  What was there stays in front, and the newcomers follow.
-/
theorem addMissing_eq
    (attrs new : List Attribute) :
    addMissing attrs new = attrs ++ newcomers attrs new := by
  induction new generalizing attrs with
  | nil => simp [addMissing, newcomers]
  | cons a rest ih =>
      rw [addMissing_cons]
      cases hThere : hasName attrs a.name with
      | true =>
          have hSame :
              newcomers attrs (a :: rest) =
                newcomers attrs rest := by
            simp [newcomers, hThere]
          rw [if_pos rfl, ih, hSame]
      | false =>
          rw [if_neg (by simp), ih, newcomers_cons hThere,
            List.append_assoc, List.singleton_append]

/- Distinct names stay distinct. -/
theorem nodup_addMissing
    {attrs : List Attribute}
    (hDistinct : (attrs.map (·.name)).Nodup)
    (new : List Attribute) :
    ((addMissing attrs new).map (·.name)).Nodup := by
  induction new generalizing attrs with
  | nil => exact hDistinct
  | cons a rest ih =>
      rw [addMissing_cons]
      cases hThere : hasName attrs a.name with
      | true => exact ih hDistinct
      | false =>
          apply ih
          have hNew : a.name ∉ attrs.map (·.name) := by
            rw [← hasName_iff, hThere]
            simp
          rw [List.map_append, List.map_singleton,
            List.nodup_append]
          refine ⟨hDistinct, List.pairwise_singleton _ a.name, ?_⟩
          rintro name hOld _ hAlone rfl
          rw [List.mem_singleton] at hAlone
          exact hNew (hAlone ▸ hOld)

/- Afterwards the old names are there, and all new ones. -/
theorem hasName_addMissing
    (attrs new : List Attribute)
    (name : QualName) :
    hasName (addMissing attrs new) name =
      (hasName attrs name || hasName new name) := by
  induction new generalizing attrs with
  | nil => simp [addMissing, hasName]
  | cons a rest ih =>
      have hFront :
          hasName (a :: rest) name =
            (hasName [a] name || hasName rest name) :=
        hasName_append [a] rest name
      rw [addMissing_cons, hFront]
      cases hThere : hasName attrs a.name with
      | true =>
          rw [if_pos rfl, ih]
          by_cases hSame : a.name = name
          · simp [← hSame, hThere]
          · simp [hasName, hSame]
      | false =>
          rw [if_neg (by simp), ih, hasName_append,
            Bool.or_assoc]

/- Nothing is added where all names are there. -/
theorem addMissing_eq_self
    {attrs new : List Attribute}
    (hThere : ∀ a ∈ new, hasName attrs a.name = true) :
    addMissing attrs new = attrs := by
  have hNone :
      (new.filter fun a => !hasName attrs a.name) = [] := by
    rw [List.filter_eq_nil_iff]
    intro a hMember
    simp [hThere a hMember]
  rw [addMissing_eq, newcomers, hNone, List.eraseDupsBy_nil,
    List.append_nil]

/- What was added once is not added again. -/
theorem addMissing_addMissing
    {new again : List Attribute}
    (hAgain : again ⊆ new)
    (attrs : List Attribute) :
    addMissing (addMissing attrs new) again =
      addMissing attrs new := by
  apply addMissing_eq_self
  intro a hMember
  have hNew : hasName new a.name = true :=
    hasName_iff.mpr (List.mem_map_of_mem (hAgain hMember))
  rw [hasName_addMissing, hNew, Bool.or_true]

end Attribute

------------------------------------------------------------
-- Elements
------------------------------------------------------------

/- What was read before is still read. -/
theorem Element.attr?_addMissing
    {e : Element}
    {key value : String}
    (hRead : e.attr? key = some value)
    (new : List Attribute) :
    Element.attr?
        { e with attrs := Attribute.addMissing e.attrs new }
        key =
      some value := by
  rw [attr?_eq, Option.map_eq_some_iff] at hRead ⊢
  rcases hRead with ⟨a, hFind, hValue⟩
  refine ⟨a, ?_, hValue⟩
  rw [Attribute.addMissing_eq, List.find?_append, hFind]
  rfl

------------------------------------------------------------
-- Trees
------------------------------------------------------------

namespace Tree

/-
  A tree is another one in which an element has got new
  attributes.  Those that it had stand in front, as they were,
  and all that was read from them is read as before.
-/
structure Merges
    (id : NodeId)
    (e : Element)
    (new : List Attribute)
    (t t' : Tree) : Prop where
  links : SameLinks t t'
  elsewhere : ∀ i, i ≠ id → t'.get? i = t.get? i
  element :
    t'.elementAt? id =
      some
        { e with
          attrs := e.attrs ++ Attribute.newcomers e.attrs new }
  kept :
    ∀ key value,
      t.attr? id key = some value →
        t'.attr? id key = some value
  distinct :
    (e.attrs.map (·.name)).Nodup →
      ((e.attrs ++ Attribute.newcomers e.attrs new).map
        (·.name)).Nodup

/-
  New attributes can be added to every element.  Afterwards
  none of them is missing.
-/
theorem exists_addAttributes
    {t : Tree}
    {id : NodeId}
    {e : Element}
    (hElement : t.elementAt? id = some e)
    (new : List Attribute) :
    ∃ t',
      t.addAttributes id new = .ok t' ∧
        t.Merges id e new t' ∧
          ∀ again, again ⊆ new →
            t'.addAttributes id again = .ok t' := by
  rcases
    exists_modifyAttrs hElement
      (Attribute.addMissing · new) with
    ⟨t', hRun, hAt, hLinks, hElsewhere⟩
  refine ⟨t', hRun, ⟨hLinks, hElsewhere, ?_, ?_, ?_⟩, ?_⟩
  · rw [hAt, Attribute.addMissing_eq]
  · intro key value hRead
    rw [attr?_of_elementAt? hElement] at hRead
    rw [attr?_of_elementAt? hAt]
    exact Element.attr?_addMissing hRead new
  · intro hDistinct
    rw [← Attribute.addMissing_eq]
    exact Attribute.nodup_addMissing hDistinct new
  · intro again hAgain
    have hOnce :
        (fun attrs =>
            Attribute.addMissing
              (Attribute.addMissing attrs new) again) =
          (Attribute.addMissing · new) :=
      funext (Attribute.addMissing_addMissing hAgain)
    rw [addAttributes, modifyAttrs_modifyAttrs hRun, hOnce,
      hRun]

end Tree

end Dom

end MarkupMetrics
