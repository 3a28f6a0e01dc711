import MarkupMetrics.Html.Receiver
import MarkupMetrics.Proofs.Html.Apart

/-
  This file proves that a receiver whose tree is not empty
  leaves alone what is there, if it is asked for nothing but
  to make nodes and to put these below each other and below
  the document node.

  Requests may depend on earlier answers, so a dialogue is a
  list of both.  How long it is and in which order the calls
  come does not matter.

  Key definitions include:
    * `TreeCall.Separate`
    * `Request.Separate`
    * `Receiver.Serves`
    * `Receiver.made`

  Key theorems include:
    * `TreeCall.exists_run`
    * `Receiver.exists_answer`
    * `Receiver.Serves.apart`
    * `Receiver.Serves.made`
-/

namespace MarkupMetrics

namespace Html

open Dom Tree MarkupMetrics.Outcome

------------------------------------------------------------
-- Calls
------------------------------------------------------------

/-
  Whether a call names new nodes only, and the old document
  node as a parent at most, below which it puts no text.
-/
def TreeCall.Separate
    (old t : Tree) : TreeCall NodeId → Prop
  | .createElement _ _ => True
  | .createComment => True
  | .append parent content =>
      Holds old t parent ∧ Fits old t (some parent) content
  | .appendBefore sibling content =>
      New old t sibling ∧
        Fits old t (t.parent? sibling) content
  | .appendBased element previous content =>
      New old t element ∧ Holds old t previous ∧
        Fits old t
          (some ((t.parent? element).getD previous)) content
  | .addAttributes element _ => New old t element
  | .unlink id => New old t id
  | .moveChildren source target =>
      New old t source ∧ New old t target

variable {old : Tree}

/- Such a call comes to an end and leaves old nodes alone. -/
theorem TreeCall.exists_run
    {t : Tree}
    (hApart : Apart old t)
    (hOld : old.Linked)
    {call : TreeCall NodeId}
    (hSeparate : call.Separate old t) :
    ∃ t' made, call.run t = .ok (t', made) ∧ Apart old t' ∧
      ∀ id, made = some id →
        t.contains id = false ∧ New old t' id := by
  have hQuiet
      {x : Except Fault Tree}
      (hRun : ∃ t', x = .ok t' ∧ Apart old t') :
      ∃ t' made,
        (do return (← x, none) :
          Except Fault (Tree × Option NodeId)) =
            .ok (t', made) ∧ Apart old t' ∧
          ∀ id, made = some id →
            t.contains id = false ∧ New old t' id := by
    rcases hRun with ⟨t', rfl, hDone⟩
    exact ⟨t', none, rfl, hDone, by simp⟩
  have hMade
      (data : NodeData) :
      Apart old (t.create data).1 ∧
        ∀ id, some (t.create data).2 = some id →
          t.contains id = false ∧
            New old (t.create data).1 id := by
    refine ⟨hApart.create data, ?_⟩
    intro id hSame
    cases hSame
    exact hApart.new_create data
  cases call with
  | createElement name attrs => exact ⟨_, _, rfl, hMade _⟩
  | createComment => exact ⟨_, _, rfl, hMade _⟩
  | append parent content =>
      exact
        hQuiet
          (hApart.exists_appendContent hOld hSeparate.1
            hSeparate.2)
  | appendBefore sibling content =>
      exact
        hQuiet
          (hApart.exists_insertContentBefore hOld hSeparate.1
            hSeparate.2)
  | appendBased element previous content =>
      rcases hSeparate with ⟨hElement, hPrevious, hFits⟩
      cases hParent : t.parent? element with
      | some p =>
          rw [hParent, Option.getD_some, ← hParent] at hFits
          rw [TreeCall.run_appendBased_of_parent hParent]
          exact
            hQuiet
              (hApart.exists_insertContentBefore hOld hElement
                hFits)
      | none =>
          rw [hParent, Option.getD_none] at hFits
          rw [TreeCall.run_appendBased_of_root hElement.1 hParent]
          exact
            hQuiet
              (hApart.exists_appendContent hOld hPrevious hFits)
  | addAttributes element attrs =>
      exact hQuiet (hApart.exists_addAttributes hSeparate attrs)
  | unlink node =>
      exact
        ⟨_, none, rfl, hApart.unlink hOld hSeparate, by simp⟩
  | moveChildren source target =>
      exact
        hQuiet
          (hApart.exists_reparent hOld hSeparate.1 hSeparate.2)

------------------------------------------------------------
-- Requests
------------------------------------------------------------

namespace Request

/- Questions may be about any node. -/
def Separate
    (old t : Tree) : Request → Prop
  | .build call => call.Separate old t
  | _ => True

/- Whether a node is asked for. -/
def Makes : Request → Prop
  | .build (.createElement _ _) => True
  | .build .createComment => True
  | _ => False

end Request

namespace Receiver

/- What is known of an answer and the receiver after it. -/
structure Minds
    (old : Tree)
    (r : Receiver)
    (request : Request)
    (r' : Receiver)
    (answer : Answer) : Prop where
  apart : Apart old r'.tree
  keeps : r.tree.Keeps r'.tree
  made :
    request.Makes →
      ∃ id, answer = .node id ∧ r.tree.contains id = false ∧
        New old r'.tree id

/- Whatever is answered leaves old nodes alone. -/
theorem minds_of_answer
    {r r' : Receiver}
    {request : Request}
    {answer : Answer}
    (hApart : Apart old r.tree)
    (hOld : old.Linked)
    (hSeparate : request.Separate old r.tree)
    (hAnswer : r.answer request = .ok (r', answer)) :
    Minds old r request r' answer := by
  have hAsked
      (hSame : r'.tree = r.tree)
      (hQuiet : ¬ request.Makes) :
      Minds old r request r' answer :=
    ⟨hSame ▸ hApart, hSame ▸ Keeps.refl r.tree,
      fun hMakes => (hQuiet hMakes).elim⟩
  cases request with
  | build call =>
      rcases TreeCall.exists_run hApart hOld hSeparate with
        ⟨t', made, hRun, hDone, hMade⟩
      have hKeeps := (TreeCall.touched_of_run hRun).keeps
      rw [Receiver.answer, hRun] at hAnswer
      cases hAnswer
      refine ⟨hDone, hKeeps, ?_⟩
      intro hMakes
      cases call with
      | createElement name attrs =>
          cases hRun
          exact ⟨_, rfl, hMade _ rfl⟩
      | createComment =>
          cases hRun
          exact ⟨_, rfl, hMade _ rfl⟩
      | _ => exact hMakes.elim
  | name node =>
      rw [Receiver.answer, bind_eq_ok_iff] at hAnswer
      rcases hAnswer with ⟨name, _, hDone⟩
      cases hDone
      exact hAsked rfl id
  | _ =>
      cases hAnswer
      exact hAsked rfl id

/- A name is known of elements only; all else is answered. -/
theorem exists_answer
    {r : Receiver}
    {request : Request}
    (hApart : Apart old r.tree)
    (hOld : old.Linked)
    (hSeparate : request.Separate old r.tree)
    (hNamed :
      ∀ node, request = .name node →
        r.tree.isElement node = true) :
    ∃ r' answer, r.answer request = .ok (r', answer) := by
  cases request with
  | build call =>
      rcases TreeCall.exists_run hApart hOld hSeparate with
        ⟨t', made, hRun, _⟩
      rw [Receiver.answer, hRun]
      exact ⟨_, _, rfl⟩
  | name node =>
      rcases Option.isSome_iff_exists.mp (hNamed node rfl) with
        ⟨e, hElement⟩
      rcases Option.bind_eq_some_iff.mp hElement with
        ⟨n, hNode, hData⟩
      refine ⟨r, .name e.name.local_, ?_⟩
      rw [Receiver.answer, elementName, elementName?,
        node_eq_ok_iff.mpr hNode]
      simp only [ok_bind, hData]
      rfl
  | _ => exact ⟨_, _, rfl⟩

------------------------------------------------------------
-- Dialogues
------------------------------------------------------------

/- Requests to a receiver and its answers, in order. -/
inductive Serves
    (old : Tree) :
    Receiver → List (Request × Answer) → Receiver → Prop where
  | done
      (r : Receiver) :
      Serves old r [] r
  | next
      {r r' r'' : Receiver}
      {request : Request}
      {answer : Answer}
      {rest : List (Request × Answer)}
      (hSeparate : request.Separate old r.tree)
      (hAnswer : r.answer request = .ok (r', answer))
      (hRest : Serves old r' rest r'') :
      Serves old r ((request, answer) :: rest) r''

/- The id in an answer to a request for a node. -/
def madeIn : Request × Answer → Option NodeId
  | (.build (.createElement _ _), .node id) => some id
  | (.build .createComment, .node id) => some id
  | _ => none

theorem makes_of_madeIn
    {request : Request}
    {answer : Answer}
    {id : NodeId}
    (hMade : madeIn (request, answer) = some id) :
    request.Makes ∧ answer = .node id := by
  unfold madeIn at hMade
  split at hMade
  · cases hMade
    rename_i hPair
    cases hPair
    exact ⟨trivial, rfl⟩
  · cases hMade
    rename_i hPair
    cases hPair
    exact ⟨trivial, rfl⟩
  · cases hMade

/- The ids of the nodes that were asked for, in order. -/
def made
    (dialogue : List (Request × Answer)) : List NodeId :=
  dialogue.filterMap madeIn

namespace Serves

variable {r r' : Receiver}
variable {dialogue : List (Request × Answer)}

/- A whole dialogue leaves old nodes alone. -/
theorem apart
    (hServes : Serves old r dialogue r')
    (hOld : old.Linked)
    (hApart : Apart old r.tree) :
    Apart old r'.tree ∧ r.tree.Keeps r'.tree := by
  induction hServes with
  | done r => exact ⟨hApart, Keeps.refl r.tree⟩
  | next hSeparate hAnswer _ ih =>
      have hMinds :=
        minds_of_answer hApart hOld hSeparate hAnswer
      rcases ih hMinds.apart with ⟨hLater, hKeeps⟩
      exact ⟨hLater, hMinds.keeps.trans hKeeps⟩

/-
  Each node that was asked for is new, and none of them is
  there twice.
-/
theorem made
    (hServes : Serves old r dialogue r')
    (hOld : old.Linked)
    (hApart : Apart old r.tree) :
    (Receiver.made dialogue).Nodup ∧
      ∀ id ∈ Receiver.made dialogue,
        r.tree.contains id = false ∧ New old r'.tree id := by
  induction hServes with
  | done r => simp [Receiver.made]
  | @next r r' r'' request answer rest hSeparate hAnswer hRest
      ih =>
      have hMinds :=
        minds_of_answer hApart hOld hSeparate hAnswer
      rcases ih hMinds.apart with ⟨hNodup, hNew⟩
      have hKeeps := (hRest.apart hOld hMinds.apart).2
      have hLater :
          ∀ id ∈ Receiver.made rest,
            r.tree.contains id = false ∧
              New old r''.tree id := by
        intro id hMember
        rcases hNew id hMember with ⟨hMissing, hThere⟩
        exact ⟨hMinds.keeps.missing hMissing, hThere⟩
      cases hMade : madeIn (request, answer) with
      | none =>
          rw [Receiver.made, List.filterMap_cons_none hMade]
          exact ⟨hNodup, hLater⟩
      | some id =>
          rcases makes_of_madeIn hMade with ⟨hMakes, hNode⟩
          rcases hMinds.made hMakes with
            ⟨id', hSame, hMissing, hThere⟩
          rw [hNode] at hSame
          cases hSame
          rw [Receiver.made, List.filterMap_cons_some hMade,
            List.nodup_cons, List.forall_mem_cons]
          refine
            ⟨⟨?_, hNodup⟩, ⟨hMissing, hThere.of_keeps hKeeps⟩,
              hLater⟩
          intro hAgain
          have hGone := (hNew id hAgain).1
          rw [hThere.1] at hGone
          cases hGone

end Serves

end Receiver

end Html

end MarkupMetrics
