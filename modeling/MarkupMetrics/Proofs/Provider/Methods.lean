import MarkupMetrics.Proofs.Text.Case
import MarkupMetrics.Provider.Methods
import Mathlib.Data.Finset.Card

/-
  This file proves that a method table is a map whose keys are
  names up to title case.

  A builder stands under the title case of its name, and takes
  the place of the one that stood there.  Since title case is
  settled after one step, it does not matter whether a name is
  looked up as it was declared or in title case.

  Key definitions include:
    * `MethodTable.names`
    * `MethodTable.LastInserted`
    * `MethodTable.Maps`

  Key theorems include:
    * `MethodTable.get?_insert`
    * `MethodTable.mem_ofList`
    * `MethodTable.get?_ofList`
    * `MethodTable.names_insert`
    * `MethodTable.maps_ofList`
-/

namespace MarkupMetrics

open Text

namespace MethodTable

variable {β : Type}

------------------------------------------------------------
-- Insertion
------------------------------------------------------------

/- Setting a value under a key changes what is found there. -/
theorem find?_setEntry
    (key name : String)
    (value : β)
    (entries : List (String × β)) :
    (setEntry key value entries).find? (·.1 == name) =
      if key = name then some (key, value)
      else entries.find? (·.1 == name) := by
  induction entries with
  | nil => by_cases hKey : key = name <;> simp [setEntry, hKey]
  | cons e rest ih =>
      rw [setEntry]
      by_cases hSame : e.1 = key
      · subst hSame
        rw [if_pos rfl]
        by_cases hName : e.1 = name <;> simp [hName]
      · rw [if_neg hSame]
        by_cases hName : e.1 = name
        · have hKey : key ≠ name := fun hKey =>
            hSame (hName.trans hKey.symm)
          simp [hName, hKey]
        · have hOther (others : List (String × β)) :
              (e :: others).find? (·.1 == name) =
                others.find? (·.1 == name) :=
            List.find?_cons_of_neg (by simpa using hName)
          rw [hOther, hOther, ih]

/- A builder is found under every name of the same title case. -/
theorem get?_insert
    (table : MethodTable β)
    (method name : String)
    (builder : β) :
    (table.insert method builder).get? name =
      if titleCase method = titleCase name then some builder
      else table.get? name := by
  rw [get?, insert, find?_setEntry, get?]
  split <;> rfl

/- Inserting one more comes after inserting the others. -/
theorem ofList_concat
    (methods : List (String × β))
    (last : String × β) :
    ofList (methods ++ [last]) =
      (ofList methods).insert last.1 last.2 := by
  simp only [ofList, List.foldl_append, List.foldl_cons,
    List.foldl_nil]

/- Setting a value under a key leaves only old entries and it. -/
theorem mem_setEntry
    {key : String}
    {value : β}
    {entries : List (String × β)}
    {e : String × β}
    (hMember : e ∈ setEntry key value entries) :
    e = (key, value) ∨ e ∈ entries := by
  induction entries with
  | nil => exact Or.inl (List.mem_singleton.mp hMember)
  | cons first rest ih =>
      rw [setEntry] at hMember
      split at hMember
      · rcases List.mem_cons.mp hMember with hNew | hOld
        · exact Or.inl hNew
        · exact Or.inr (List.mem_cons_of_mem _ hOld)
      · rcases List.mem_cons.mp hMember with rfl | hLater
        · exact Or.inr List.mem_cons_self
        · exact
            (ih hLater).imp_right (List.mem_cons_of_mem _)

/- A table holds only what was inserted. -/
theorem mem_ofList
    {methods : List (String × β)}
    {e : String × β}
    (hMember : e ∈ (ofList methods).entries) :
    ∃ m ∈ methods, m.2 = e.2 := by
  induction methods using List.reverseRecOn with
  | nil => cases hMember
  | append_singleton methods last ih =>
      rw [ofList_concat] at hMember
      rcases mem_setEntry hMember with rfl | hOld
      · exact ⟨last, by simp, rfl⟩
      · rcases ih hOld with ⟨m, hThere, hSame⟩
        exact ⟨m, List.mem_append_left _ hThere, hSame⟩

------------------------------------------------------------
-- Lookup
------------------------------------------------------------

/- A builder that is looked up is one of the table. -/
theorem mem_of_get?
    {table : MethodTable β}
    {name : String}
    {builder : β}
    (hFound : table.get? name = some builder) :
    ∃ method ∈ table.entries, method.2 = builder := by
  rcases Option.map_eq_some_iff.mp hFound with
    ⟨method, hFind, hValue⟩
  exact ⟨method, List.mem_of_find?_eq_some hFind, hValue⟩

/-
  A builder is the last one that was inserted under a name of
  the same title case.
-/
def LastInserted
    (methods : List (String × β))
    (name : String)
    (builder : β) : Prop :=
  ∃ before method after,
    methods = before ++ (method, builder) :: after ∧
      titleCase method = titleCase name ∧
        ∀ later ∈ after, titleCase later.1 ≠ titleCase name

/- Looking up goes through the insertions backwards. -/
theorem get?_ofList
    (methods : List (String × β))
    (name : String) :
    (ofList methods).get? name =
      (methods.reverse.find? fun m =>
        titleCase m.1 == titleCase name).map Prod.snd := by
  induction methods using List.reverseRecOn with
  | nil => rfl
  | append_singleton methods last ih =>
      rw [ofList_concat, get?_insert, List.reverse_concat,
        List.find?_cons, ih]
      by_cases hSame : titleCase last.1 = titleCase name
      · simp [hSame]
      · simp [hSame, beq_eq_false_iff_ne.mpr hSame]

theorem get?_ofList_eq_some_iff
    {methods : List (String × β)}
    {name : String}
    {builder : β} :
    (ofList methods).get? name = some builder ↔
      LastInserted methods name builder := by
  simp only [get?_ofList, Option.map_eq_some_iff,
    List.find?_eq_some_iff_append]
  constructor
  · rintro
      ⟨⟨method, _⟩, ⟨hSame, after, before, hSplit, hOthers⟩,
        rfl⟩
    refine
      ⟨before.reverse, method, after.reverse, ?_,
        by simpa using hSame, ?_⟩
    · rw [← methods.reverse_reverse, hSplit]
      simp
    · intro later hLater
      simpa using hOthers later (List.mem_reverse.mp hLater)
  · rintro ⟨before, method, after, rfl, hSame, hOthers⟩
    refine
      ⟨(method, builder),
        ⟨by simpa using hSame, after.reverse, before.reverse,
          by simp, ?_⟩, rfl⟩
    intro later hLater
    simpa using hOthers later (List.mem_reverse.mp hLater)

theorem get?_ofList_eq_none_iff
    {methods : List (String × β)}
    {name : String} :
    (ofList methods).get? name = none ↔
      ∀ m ∈ methods, titleCase m.1 ≠ titleCase name := by
  simp [get?_ofList]

------------------------------------------------------------
-- Names
------------------------------------------------------------

/- The names in title case that a table has builders under. -/
def names
    (table : MethodTable β) : List String :=
  table.entries.map Prod.fst

theorem map_fst_setEntry
    (key : String)
    (value : β)
    (entries : List (String × β)) :
    (setEntry key value entries).map Prod.fst =
      if key ∈ entries.map Prod.fst then
        entries.map Prod.fst
      else
        entries.map Prod.fst ++ [key] := by
  induction entries with
  | nil => rfl
  | cons e rest ih =>
      rw [setEntry]
      by_cases hSame : e.1 = key
      · simp [hSame]
      · have hOther :
            key ∈ (e :: rest).map Prod.fst ↔
              key ∈ rest.map Prod.fst := by
          rw [List.map_cons, List.mem_cons,
            or_iff_right (Ne.symm hSame)]
        rw [if_neg hSame, List.map_cons, ih, apply_ite (e.1 :: ·)]
        exact if_congr hOther.symm rfl rfl

/- A name is added unless there is a builder under it. -/
theorem names_insert
    (table : MethodTable β)
    (method : String)
    (builder : β) :
    (table.insert method builder).names =
      if titleCase method ∈ table.names then table.names
      else table.names ++ [titleCase method] :=
  map_fst_setEntry (titleCase method) builder table.entries

theorem nodup_names_ofList
    (methods : List (String × β)) :
    (ofList methods).names.Nodup := by
  induction methods using List.reverseRecOn with
  | nil => exact List.nodup_nil
  | append_singleton methods last ih =>
      rw [ofList_concat, names_insert]
      split
      · exact ih
      · rename_i hNew
        exact List.concat_eq_append ▸ ih.concat hNew

theorem mem_names_ofList_iff
    {methods : List (String × β)}
    {name : String} :
    name ∈ (ofList methods).names ↔
      ∃ m ∈ methods, titleCase m.1 = name := by
  induction methods using List.reverseRecOn with
  | nil => simp [names, ofList]
  | append_singleton methods last ih =>
      simp only [ofList_concat, names_insert, List.mem_append,
        List.mem_singleton, or_and_right, exists_or,
        exists_eq_left, ← ih]
      split
      · rename_i hOld
        rw [or_iff_left_of_imp]
        rintro rfl
        exact hOld
      · rw [List.mem_append, List.mem_singleton, eq_comm (a := name)]

/- So there are as many as title-cased names were inserted. -/
theorem size_ofList
    (methods : List (String × β)) :
    (ofList methods).size =
      (methods.map fun m => titleCase m.1).toFinset.card := by
  have hNames :
      (ofList methods).names.toFinset =
        (methods.map fun m => titleCase m.1).toFinset := by
    ext name
    simp only [List.mem_toFinset, mem_names_ofList_iff,
      List.mem_map]
  calc
    (ofList methods).size = (ofList methods).names.length :=
      (List.length_map _).symm
    _ = (ofList methods).names.toFinset.card :=
      (List.toFinset_card_of_nodup
        (nodup_names_ofList methods)).symm
    _ = (methods.map fun m => titleCase m.1).toFinset.card := by
      rw [hNames]

------------------------------------------------------------
-- Maps
------------------------------------------------------------

/-
  A table is the map of some insertions.  Under a name stands
  the last builder that was inserted under the same title
  case, and a name and its title case are looked up alike.
-/
structure Maps
    (table : MethodTable β)
    (methods : List (String × β)) : Prop where
  found :
    ∀ name builder,
      table.get? name = some builder ↔
        LastInserted methods name builder
  missing :
    ∀ name,
      table.get? name = none ↔
        ∀ m ∈ methods, titleCase m.1 ≠ titleCase name
  folded :
    ∀ name, table.get? (titleCase name) = table.get? name
  size :
    table.size =
      (methods.map fun m => titleCase m.1).toFinset.card

/-
  What is inserted one by one makes up such a map, since title
  case is settled after one step for names of any characters.
-/
theorem maps_ofList
    (methods : List (String × β)) :
    (ofList methods).Maps methods ∧
      ∀ name, titleCase (titleCase name) = titleCase name := by
  refine ⟨?_, titleCase_titleCase⟩
  constructor
  · intro name builder
    exact get?_ofList_eq_some_iff
  · intro name
    exact get?_ofList_eq_none_iff
  · intro name
    simp only [get?, titleCase_titleCase]
  · exact size_ofList methods

/-
  The later of two names that differ in the case of the first
  letter takes the place of the earlier one.
-/
example :
    let table :=
      ofList [("record", 1), ("\u0149", 2), ("Record", 3)]
    table.get? "record" = some 3 ∧
      table.get? "\u02bcN" = some 2 ∧
        table.get? "event" = none ∧ table.size = 2 := by
  decide +kernel

end MethodTable

end MarkupMetrics
