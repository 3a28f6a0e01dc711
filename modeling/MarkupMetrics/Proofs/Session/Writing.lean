import MarkupMetrics.Proofs.Dom.Attributes
import MarkupMetrics.Proofs.Session.History

/-
  This file proves what is read from an element of a session
  after one of its attributes was set or removed.

  Nothing else changes.  But a value that was set is not read
  if an attribute with the same local name in some namespace
  stands before it, and a value is still read after the first
  of several attributes with one local name was removed.

  Key definitions include:
    * `Session.withTree`

  Key theorems include:
    * `Session.writing_of_element`
    * `Session.written_not_read`
-/

namespace MarkupMetrics

open Dom

namespace Session

/- A session on another tree. -/
def withTree
    (s : Session)
    (tree : Tree) : Session :=
  { s with page := { s.page with tree } }

/- An operation that edits the tree does no more than that. -/
theorem step_of_edit
    (s : Session)
    {operation : PageOperation}
    {f : Tree → Except Fault Tree}
    {tree : Tree}
    (hEdit :
      operation.perform s.surroundings s.page =
        PageOperation.edit s.page f)
    (hRun : f s.page.tree = .ok tree) :
    s.step (.page operation) =
      .ok (s.withTree tree, .nothing, []) := by
  rw [step, perform, hEdit, PageOperation.edit,
    Document.editTree, hRun]
  rfl

/- A call does no more than change the tree. -/
theorem act_of_run
    (s : Session)
    {call : Html.TreeCall NodeId}
    {tree : Tree}
    {made : Option NodeId}
    (hRun : call.run s.page.tree = .ok (tree, made)) :
    s.act (.build call) = .ok (s.withTree tree) := by
  rw [act, hRun]
  rfl

/-
  Setting an attribute of an element and removing it come to
  an end, and change nothing but the attributes with that
  local name; setting twice is setting once.  The value that
  was set is read unless the first attribute with the local
  name has another whole name and another value.  None is read
  after the removal unless there were two of them.
-/
theorem writing_of_element
    (s : Session)
    {n : NodeId}
    {e : Element}
    (hElement : s.page.tree.elementAt? n = some e)
    (key value : String) :
    ∃ set removed : Tree,
      s.step (.page (.setAttribute n key value)) =
          .ok (s.withTree set, .nothing, []) ∧
        (s.withTree set).step
            (.page (.setAttribute n key value)) =
          .ok (s.withTree set, .nothing, []) ∧
        s.step (.page (.removeAttribute n key)) =
          .ok (s.withTree removed, .nothing, []) ∧
        s.page.tree.Rewrites n key set ∧
        s.page.tree.Rewrites n key removed ∧
        (set.attr? n key = some value ↔
          ∀ a,
            e.attrs.find? (Attribute.isNamed key) = some a →
              a.name = .plain key ∨ a.value = value) ∧
        (removed.attr? n key = none ↔
          (e.attrs.filter (Attribute.isNamed key)).length ≤
            1) := by
  let put := Attribute.setValue (.plain key) value
  let drop := Attribute.removeNamed key
  rcases
    Tree.rewrites_of_element (f := put) hElement
      fun other hOther =>
        Attribute.find?_setValue_other hOther value e.attrs
    with ⟨set, hSet, hSetAt, hSetOnly⟩
  rcases
    Tree.rewrites_of_element (f := drop) hElement
      fun other hOther =>
        Attribute.find?_removeNamed_other hOther e.attrs
    with ⟨removed, hRemoved, hRemovedAt, hRemovedOnly⟩
  have hAgain : set.modifyAttrs n put = .ok set := by
    have hTwice : (fun attrs => put (put attrs)) = put :=
      funext (Attribute.setValue_setValue (.plain key) value value)
    rw [Tree.modifyAttrs_modifyAttrs hSet, hTwice, hSet]
  refine
    ⟨set, removed, s.step_of_edit rfl hSet,
      (s.withTree set).step_of_edit rfl hAgain,
      s.step_of_edit rfl hRemoved, hSetOnly, hRemovedOnly, ?_,
      ?_⟩
  · rw [Tree.attr?_of_elementAt? hSetAt]
    exact e.attr?_setValue_iff key value
  · rw [Tree.attr?_of_elementAt? hRemovedAt]
    exact e.attr?_removeNamed_iff key

/- The title of a paragraph can be changed and taken away. -/
theorem writing_of_paragraph :
    ∃ s earlier set removed,
      History Permits (s :: earlier) ∧
        s.page.tree.elementAt? 1 =
          some ⟨.html "p", [.plain "title" "a"]⟩ ∧
        s.step (.page (.setAttribute 1 "title" "b")) =
          .ok (s.withTree set, .nothing, []) ∧
        set.attr? 1 "title" = some "b" ∧
        s.step (.page (.removeAttribute 1 "title")) =
          .ok (s.withTree removed, .nothing, []) ∧
        removed.attr? 1 "title" = none := by
  let e : Element := ⟨.html "p", [.plain "title" "a"]⟩
  have h₀ : History Permits [start Document.empty {}] :=
    .start {}
  have h₁ :=
    h₀.step
      (.operation
        (.page (.createElement "p" [("title", "a")])))
      (ofElement e) trivial rfl
  have hElement :
      (ofElement e).page.tree.elementAt? 1 = some e :=
    rfl
  rcases writing_of_element _ hElement "title" "b" with
    ⟨set, removed, hSet, _, hRemoved, _, _, hValue, hNone⟩
  have hPlain :
      ∀ a, e.attrs.find? (Attribute.isNamed "title") = some a →
        a.name = .plain "title" ∨ a.value = "b" := by
    rintro a ⟨⟩
    exact Or.inl rfl
  exact
    ⟨_, _, set, removed, h₁, hElement, hSet, hValue.mpr hPlain,
      hRemoved, hNone.mpr (by decide)⟩

/-
  The link of a drawing still reads as before after another
  value was set, since it is in a namespace.  An element that
  was made with a name twice still has it after it was removed
  once.
-/
theorem written_not_read :
    (∃ s earlier s',
      History Permits (s :: earlier) ∧
        s.page.tree.isElement 1 = true ∧
        s.step (.page (.setAttribute 1 "href" "b")) =
          .ok (s', .nothing, []) ∧
        s'.page.tree.attr? 1 "href" = some "a") ∧
      ∃ s earlier s',
        History Permits (s :: earlier) ∧
          s.page.tree.isElement 1 = true ∧
          s.step (.page (.removeAttribute 1 "x")) =
            .ok (s', .nothing, []) ∧
          s'.page.tree.attr? 1 "x" = some "2" := by
  have h₀ : History Permits [start Document.empty {}] :=
    .start {}
  constructor
  · let drawing : QualName := { space := .svg, local_ := "svg" }
    let link : QualName := ⟨some "xlink", .xlink, "href"⟩
    have h₁ :=
      h₀.step (.build (.createElement drawing [⟨link, "a"⟩]))
        (ofElement ⟨drawing, [⟨link, "a"⟩]⟩) trivial rfl
    exact ⟨_, _, _, h₁, rfl, rfl, rfl⟩
  · have h₁ :=
      h₀.step
        (.operation
          (.page
            (.createElement "a" [("x", "1"), ("x", "2")])))
        (ofElement ⟨.html "a", [.plain "x" "1", .plain "x" "2"]⟩)
        trivial rfl
    exact ⟨_, _, _, h₁, rfl, rfl, rfl⟩

end Session

end MarkupMetrics
