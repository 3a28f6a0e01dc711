import MarkupMetrics.Dom.Edit
import MarkupMetrics.Proofs.Dom.Store

/-
  This file proves what it does to the attributes of an
  element to set or to remove one of them.

  Reading takes the first attribute with a local name.
  Setting replaces the one with the whole name, wherever it
  stands, and removing takes the first with the local name
  away.  So what is read afterwards depends on what stands
  first.

  Key definitions include:
    * `Attribute.isNamed`
    * `Tree.Rewrites`

  Key theorems include:
    * `Attribute.find?_setValue`
    * `Attribute.setValue_setValue`
    * `Attribute.filter_removeNamed`
    * `Tree.rewrites_of_element`
-/

namespace MarkupMetrics

namespace Dom

------------------------------------------------------------
-- Lists of attributes
------------------------------------------------------------

namespace Attribute

/- Whether an attribute has a local name. -/
def isNamed
    (key : String)
    (a : Attribute) : Bool :=
  a.name.local_ = key

/- Other local names are read as before. -/
theorem find?_setValue_other
    {name : QualName}
    {other : String}
    (hOther : other ≠ name.local_)
    (value : String)
    (attrs : List Attribute) :
    (setValue name value attrs).find? (isNamed other) =
      attrs.find? (isNamed other) := by
  have hNew :
      isNamed other ⟨name, value⟩ = false := by
    simp [isNamed, hOther.symm]
  induction attrs with
  | nil => rw [setValue, List.find?_cons_of_neg (by simp [hNew])]
  | cons a rest ih =>
      by_cases hSame : a.name = name
      · have hOld : isNamed other a = false := by
          simp [isNamed, hSame, hOther.symm]
        rw [setValue, if_pos hSame,
          List.find?_cons_of_neg (by simp [hNew]),
          List.find?_cons_of_neg (by simp [hOld])]
      · rw [setValue, if_neg hSame, List.find?_cons,
          List.find?_cons, ih]

/-
  The new value is read unless an attribute with the local
  name, but with another whole name, stands first.
-/
theorem find?_setValue
    (name : QualName)
    (value : String)
    (attrs : List Attribute) :
    (setValue name value attrs).find? (isNamed name.local_) =
      match attrs.find? (isNamed name.local_) with
      | none => some ⟨name, value⟩
      | some a =>
          if a.name = name then some ⟨name, value⟩
          else some a := by
  have hNew : isNamed name.local_ ⟨name, value⟩ = true := by
    simp [isNamed]
  induction attrs with
  | nil => rw [setValue, List.find?_cons_of_pos hNew]; rfl
  | cons a rest ih =>
      by_cases hSame : a.name = name
      · have hOld : isNamed name.local_ a = true := by
          simp [isNamed, hSame]
        rw [setValue, if_pos hSame, List.find?_cons_of_pos hNew,
          List.find?_cons_of_pos hOld]
        exact (if_pos hSame).symm
      · rw [setValue, if_neg hSame, List.find?_cons,
          List.find?_cons]
        cases isNamed name.local_ a with
        | true => exact (if_neg hSame).symm
        | false => exact ih

/- The value that was set last stays. -/
theorem setValue_setValue
    (name : QualName)
    (first second : String)
    (attrs : List Attribute) :
    setValue name second (setValue name first attrs) =
      setValue name second attrs := by
  induction attrs with
  | nil => simp [setValue]
  | cons a rest ih =>
      by_cases hSame : a.name = name
      · simp [setValue, hSame]
      · simp [setValue, hSame, ih]

/- Other local names are read as before. -/
theorem find?_removeNamed_other
    {key other : String}
    (hOther : other ≠ key)
    (attrs : List Attribute) :
    (removeNamed key attrs).find? (isNamed other) =
      attrs.find? (isNamed other) := by
  induction attrs with
  | nil => rfl
  | cons a rest ih =>
      by_cases hSame : a.name.local_ = key
      · have hOld : isNamed other a = false := by
          simp [isNamed, hSame, hOther.symm]
        rw [removeNamed, if_pos hSame,
          List.find?_cons_of_neg (by simp [hOld])]
      · rw [removeNamed, if_neg hSame, List.find?_cons,
          List.find?_cons, ih]

/- Of the attributes with the local name all but one stay. -/
theorem filter_removeNamed
    (key : String)
    (attrs : List Attribute) :
    (removeNamed key attrs).filter (isNamed key) =
      (attrs.filter (isNamed key)).tail := by
  induction attrs with
  | nil => rfl
  | cons a rest ih =>
      by_cases hSame : a.name.local_ = key
      · have hOld : isNamed key a = true := by
          simp [isNamed, hSame]
        rw [removeNamed, if_pos hSame,
          List.filter_cons_of_pos hOld, List.tail_cons]
      · have hOld : ¬ isNamed key a = true := by
          simp [isNamed, hSame]
        rw [removeNamed, if_neg hSame,
          List.filter_cons_of_neg hOld,
          List.filter_cons_of_neg hOld, ih]

end Attribute

------------------------------------------------------------
-- Elements
------------------------------------------------------------

namespace Element

variable {key : String}

theorem attr?_eq
    (e : Element)
    (key : String) :
    e.attr? key =
      (e.attrs.find? (Attribute.isNamed key)).map (·.value) :=
  rfl

/- Other attributes read the same on lists that agree on them. -/
theorem attr?_congr
    {e : Element}
    {attrs : List Attribute}
    (hFind :
      attrs.find? (Attribute.isNamed key) =
        e.attrs.find? (Attribute.isNamed key)) :
    Element.attr? { e with attrs } key = e.attr? key := by
  rw [attr?_eq, attr?_eq, hFind]

/-
  The value that was set is read if the first attribute with
  the local name, if there is one, has no namespace and no
  short form of one, or had that value before.
-/
theorem attr?_setValue_iff
    (e : Element)
    (key value : String) :
    Element.attr?
        { e with
          attrs := Attribute.setValue (.plain key) value e.attrs }
        key =
      some value ↔
        ∀ a,
          e.attrs.find? (Attribute.isNamed key) = some a →
            a.name = .plain key ∨ a.value = value := by
  have hLocal : (QualName.plain key).local_ = key := rfl
  have hFind :=
    Attribute.find?_setValue (.plain key) value e.attrs
  rw [hLocal] at hFind
  rw [attr?_eq, hFind]
  cases e.attrs.find? (Attribute.isNamed key) with
  | none => simp
  | some a =>
      by_cases hSame : a.name = .plain key
      · simp [hSame]
      · simp [hSame]

/- Nothing is read if there was no more than one to remove. -/
theorem attr?_removeNamed_iff
    (e : Element)
    (key : String) :
    Element.attr?
        { e with attrs := Attribute.removeNamed key e.attrs }
        key =
      none ↔
        (e.attrs.filter (Attribute.isNamed key)).length ≤ 1 := by
  rw [attr?_eq, Option.map_eq_none_iff, ← List.head?_filter,
    List.head?_eq_none_iff, Attribute.filter_removeNamed,
    ← List.length_eq_zero_iff, List.length_tail]
  omega

end Element

------------------------------------------------------------
-- Trees
------------------------------------------------------------

namespace Tree

open Outcome

/-
  Two trees differ at most in the attributes with one local
  name of one element.
-/
structure Rewrites
    (id : NodeId)
    (key : String)
    (t t' : Tree) : Prop where
  links : SameLinks t t'
  elsewhere : ∀ i, i ≠ id → t'.get? i = t.get? i
  name :
    (t'.elementAt? id).map (·.name) =
      (t.elementAt? id).map (·.name)
  others :
    ∀ other, other ≠ key → t'.attr? id other = t.attr? id other

theorem get?_put_self
    {t : Tree}
    {id : NodeId}
    {n : Node}
    (hNode : t.get? id = some n)
    (n' : Node) :
    (t.put id n').get? id = some n' := by
  rw [get?_put (contains_of_get? hNode), if_pos rfl]

/- What is read at a node is read from its element. -/
theorem attr?_of_elementAt?
    {t : Tree}
    {id : NodeId}
    {e : Element}
    (hElement : t.elementAt? id = some e)
    (key : String) :
    t.attr? id key = e.attr? key := by
  change (t.elementAt? id).bind (·.attr? key) = e.attr? key
  rw [hElement]
  rfl

/- A slot keeps what was put into it last. -/
theorem put_put
    (t : Tree)
    (id : NodeId)
    (first second : Node) :
    (t.put id first).put id second = t.put id second := by
  simp [put]

/- What a change of the attributes makes of an element. -/
theorem modifyAttrs_eq
    {t : Tree}
    {id : NodeId}
    {n : Node}
    {e : Element}
    (hNode : t.get? id = some n)
    (hData : n.data = .element e)
    (f : List Attribute → List Attribute) :
    t.modifyAttrs id f =
      .ok
        (t.put id
          { n with
            data := .element { e with attrs := f e.attrs } }) := by
  rw [modifyAttrs, node_eq_ok_iff.mpr hNode, ok_bind, hData]
  rfl

/- Two changes in a row are one change. -/
theorem modifyAttrs_modifyAttrs
    {t t' : Tree}
    {id : NodeId}
    {f : List Attribute → List Attribute}
    (hRun : t.modifyAttrs id f = .ok t')
    (g : List Attribute → List Attribute) :
    t'.modifyAttrs id g =
      t.modifyAttrs id fun attrs => g (f attrs) := by
  have hRest := hRun
  rw [modifyAttrs, bind_eq_ok_iff] at hRest
  rcases hRest with ⟨n, hNode, hDone⟩
  rw [node_eq_ok_iff] at hNode
  cases hData : n.data with
  | element e =>
      rw [modifyAttrs_eq hNode hData] at hRun
      cases hRun
      rw [modifyAttrs_eq hNode hData,
        modifyAttrs_eq (get?_put_self hNode _) rfl, put_put]
  | _ =>
      rw [hData] at hDone
      cases hDone
      rw [modifyAttrs, modifyAttrs, node_eq_ok_iff.mpr hNode,
        ok_bind, ok_bind, hData]

/- A change of the attributes of an element ends there. -/
theorem exists_modifyAttrs
    {t : Tree}
    {id : NodeId}
    {e : Element}
    (hElement : t.elementAt? id = some e)
    (f : List Attribute → List Attribute) :
    ∃ t',
      t.modifyAttrs id f = .ok t' ∧
        t'.elementAt? id =
            some { e with attrs := f e.attrs } ∧
          SameLinks t t' ∧
            ∀ i, i ≠ id → t'.get? i = t.get? i := by
  have hSome : (t.get? id).bind Node.element? = some e :=
    hElement
  rcases Option.bind_eq_some_iff.mp hSome with
    ⟨n, hNode, hAsElement⟩
  have hData : n.data = .element e := by
    unfold Node.element? at hAsElement
    split at hAsElement
    · next d hShape => rw [hShape, Option.some.inj hAsElement]
    · cases hAsElement
  refine
    ⟨_, modifyAttrs_eq hNode hData f, ?_,
      SameLinks.put hNode _, ?_⟩
  · rw [elementAt?, get?_put_self hNode]
    rfl
  · intro i hOther
    rw [get?_put (contains_of_get? hNode), if_neg hOther]

/-
  A change of the attributes with one local name shows in
  nothing else.
-/
theorem rewrites_of_element
    {t : Tree}
    {id : NodeId}
    {e : Element}
    (hElement : t.elementAt? id = some e)
    {key : String}
    {f : List Attribute → List Attribute}
    (hOthers :
      ∀ other, other ≠ key →
        (f e.attrs).find? (Attribute.isNamed other) =
          e.attrs.find? (Attribute.isNamed other)) :
    ∃ t',
      t.modifyAttrs id f = .ok t' ∧
        t'.elementAt? id =
            some { e with attrs := f e.attrs } ∧
          t.Rewrites id key t' := by
  rcases exists_modifyAttrs hElement f with
    ⟨t', hRun, hAt, hLinks, hElsewhere⟩
  refine ⟨t', hRun, hAt, hLinks, hElsewhere, ?_, ?_⟩
  · rw [hAt, hElement]
    rfl
  · intro other hOther
    rw [attr?_of_elementAt? hAt, attr?_of_elementAt? hElement]
    exact Element.attr?_congr (hOthers other hOther)

end Tree

end Dom

end MarkupMetrics
