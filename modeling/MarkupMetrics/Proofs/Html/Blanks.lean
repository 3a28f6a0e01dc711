import MarkupMetrics.Proofs.Dom.Blanks
import MarkupMetrics.Proofs.Html.Calls

/-
  This file proves that calls that make and move no nodes but
  blanks leave all texts as they are.

  Key definitions include:
    * `Content.Quiet`
    * `TreeCall.Quiet`

  Key theorems include:
    * `TreeCall.addsBlanks_of_run`
-/

namespace MarkupMetrics

------------------------------------------------------------
-- Calls
------------------------------------------------------------

namespace Html

open Dom MarkupMetrics.Outcome

/- Whether content is blank. -/
def Content.Quiet
    (t : Tree) : Content NodeId → Prop
  | .node id => t.isBlank id = true
  | .text content => content = ""

/- Whether a call makes and moves no nodes but blanks. -/
def TreeCall.Quiet
    (t : Tree) : TreeCall NodeId → Prop
  | .createComment => True
  | .append _ content => content.Quiet t
  | .appendBefore _ content => content.Quiet t
  | .appendBased _ _ content => content.Quiet t
  | .unlink node => t.isBlank node = true
  | .moveChildren source _ =>
      ∀ c ∈ t.childrenOf source, t.isBlank c = true
  | _ => False

end Html

namespace Dom.Tree

open Html

variable {t t' : Tree}
variable {content : Content NodeId}

theorem addsBlanks_of_appendContent
    (hLinked : t.Linked)
    (hQuiet : content.Quiet t)
    {parent : NodeId}
    (hRun : t.appendContent parent content = .ok t') :
    t.AddsBlanks t' := by
  rcases appendContent_cases hRun with
    ⟨id, rfl, hAppend⟩ |
      ⟨text, rfl, ⟨id, hJoin⟩ | ⟨_, hAppend⟩⟩
  · exact
      addsBlanks_of_append (List.forall_mem_singleton.mpr hQuiet)
        hAppend
  · cases hQuiet
    exact addsBlanks_of_appendText? hJoin
  · cases hQuiet
    have hBlank := isBlank_create hLinked.free (.text "")
    exact
      (AddsBlanks.create hLinked rfl).trans
        (addsBlanks_of_append
          (List.forall_mem_singleton.mpr hBlank) hAppend)

theorem addsBlanks_of_insertContentBefore
    (hLinked : t.Linked)
    (hQuiet : content.Quiet t)
    {sibling : NodeId}
    (hRun : t.insertContentBefore sibling content = .ok t') :
    t.AddsBlanks t' := by
  rcases insertContentBefore_cases hRun with
    ⟨id, rfl, hInsert⟩ | ⟨text, rfl, ⟨id, hJoin⟩ | hInsert⟩
  · exact
      addsBlanks_of_insertBefore
        (List.forall_mem_singleton.mpr hQuiet) hInsert
  · cases hQuiet
    exact addsBlanks_of_appendText? hJoin
  · cases hQuiet
    have hBlank := isBlank_create hLinked.free (.text "")
    exact
      (AddsBlanks.create hLinked rfl).trans
        (addsBlanks_of_insertBefore
          (List.forall_mem_singleton.mpr hBlank) hInsert)

end Dom.Tree

namespace Html

open Dom MarkupMetrics.Outcome

/- A quiet call changes no more than blanks. -/
theorem TreeCall.addsBlanks_of_run
    {t t' : Tree}
    {call : TreeCall NodeId}
    {made : Option NodeId}
    (hLinked : t.Linked)
    (hQuiet : call.Quiet t)
    (hRun : call.run t = .ok (t', made)) :
    t.AddsBlanks t' := by
  cases call with
  | createElement name attrs => cases hQuiet
  | createComment =>
      cases hRun
      exact .create hLinked rfl
  | append parent content =>
      exact
        Tree.addsBlanks_of_appendContent hLinked hQuiet
          (of_run_step hRun)
  | appendBefore sibling content =>
      exact
        Tree.addsBlanks_of_insertContentBefore hLinked hQuiet
          (of_run_step hRun)
  | appendBased element previous content =>
      rcases run_appendBased_cases hRun with
        ⟨p, _, hPut⟩ | ⟨_, hPut⟩
      · exact
          Tree.addsBlanks_of_insertContentBefore hLinked hQuiet
            hPut
      · exact
          Tree.addsBlanks_of_appendContent hLinked hQuiet hPut
  | addAttributes element attrs => cases hQuiet
  | unlink node =>
      cases hRun
      exact Tree.addsBlanks_unlink hLinked hQuiet
  | moveChildren source target =>
      exact
        Tree.addsBlanks_of_reparent hLinked hQuiet
          (of_run_step hRun)

end Html

end MarkupMetrics
