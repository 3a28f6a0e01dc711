import MarkupMetrics.Proofs.Html.Requests
import MarkupMetrics.Proofs.Session.Numbers
import MarkupMetrics.Proofs.Session.Registering
import MarkupMetrics.Proofs.Session.Writing
import Mathlib

/-
  This file proves that in every session of a run a page can
  be read into the tree, call by call, without a change to
  what is there.

  Key definitions include:
    * `Session.callsOf`
    * `Session.Spares`

  Key theorems include:
    * `Session.acts_of_serves`
    * `Session.dialogues_of_history`
-/

namespace MarkupMetrics

open Dom Html

namespace Session

/- The calls of a dialogue, as actions on a session. -/
def callsOf
    (dialogue : List (Request × Html.Answer)) : List Action :=
  dialogue.filterMap fun
    | (.build call, _) => some (.build call)
    | _ => none

/- A dialogue does to a session what its calls do. -/
theorem acts_of_serves
    {old : Tree}
    {r r' : Receiver}
    {dialogue : List (Request × Html.Answer)}
    (hServes : Receiver.Serves old r dialogue r')
    (s : Session) :
    (s.withTree r.tree).acts (callsOf dialogue) =
      .ok (s.withTree r'.tree) := by
  induction hServes with
  | done r => rfl
  | @next r r' r'' request answer rest _ hAnswer _ ih =>
      cases request with
      | build call =>
          rw [Receiver.answer, Outcome.bind_eq_ok_iff] at hAnswer
          rcases hAnswer with ⟨⟨tree, made⟩, hRun, hDone⟩
          cases hDone
          have hFirst := (s.withTree r.tree).act_of_run hRun
          have hCalls (answer : Html.Answer) :
              callsOf ((.build call, answer) :: rest) =
                .build call :: callsOf rest :=
            rfl
          rw [hCalls, acts_cons, hFirst]
          exact ih
      | name node =>
          rw [Receiver.answer, Outcome.bind_eq_ok_iff] at hAnswer
          rcases hAnswer with ⟨name, _, hDone⟩
          cases hDone
          exact ih
      | _ =>
          cases hAnswer
          exact ih

/-
  What a dialogue leaves of a session.  Every node is the same
  but the document node, which may have new children behind
  the others, and keeps its listeners.  The nodes that were
  asked for are all different, new, and without listeners.
-/
structure Spares
    (s s' : Session)
    (made : List NodeId) : Prop where
  same :
    ∀ i, s.page.tree.contains i = true → i ≠ 0 →
      s'.page.tree.get? i = s.page.tree.get? i
  root :
    ∀ n, s.page.tree.get? 0 = some n →
      ∃ added,
        (∀ c ∈ added, Tree.New s.page.tree s'.page.tree c) ∧
          s'.page.tree.get? 0 =
            some { n with children := n.children ++ added }
  listeners :
    ∀ i, s'.page.listenersOf i = s.page.listenersOf i
  distinct : made.Nodup
  fresh : ∀ i ∈ made, Tree.New s.page.tree s'.page.tree i
  silent : ∀ i ∈ made, s'.page.listenersOf i = []

/- Trees whose new nodes stand apart have the old ones alike. -/
theorem Tidy.spares
    {s : Session}
    (hTidy : s.Tidy)
    {tree : Tree}
    (hApart : Tree.Apart s.page.tree tree)
    {made : List NodeId}
    (hDistinct : made.Nodup)
    (hFresh : ∀ i ∈ made, Tree.New s.page.tree tree i) :
    s.Spares (s.withTree tree) made := by
  have hContent := hApart.content
  have hParent := hApart.parent
  refine ⟨?_, ?_, fun _ => rfl, hDistinct, hFresh, ?_⟩
  · intro i hOld hOther
    refine
      Tree.get?_congr (hContent i hOld) (hParent i hOld) ?_
    apply hApart.others
    rintro (⟨_, hMissing⟩ | ⟨hRoot, _⟩)
    · rw [hOld] at hMissing
      cases hMissing
    · exact hOther hRoot
  · intro n hNode
    have hOld := Tree.contains_of_get? hNode
    rcases hApart.lists 0 with ⟨added, hList, hAdded⟩
    refine ⟨added, hAdded, ?_⟩
    rcases Tree.get?_eq_some_iff.mp hNode with
      ⟨hData, hAbove, hBelow⟩
    refine Tree.get?_eq_some_iff.mpr ⟨?_, ?_, ?_⟩
    · exact (hContent 0 hOld).trans hData
    · exact (hParent 0 hOld).trans hAbove
    · exact hList.trans (by rw [hBelow])
  · intro i hMember
    exact hTidy.listenersOf_missing (hFresh i hMember).2

/-
  Reading a page into the tree is a dialogue with a receiver
  for it.  However it has gone so far, what was there before
  is spared; and any request of the kind has an answer.
-/
theorem dialogues_of_history
    {s : Session}
    {earlier : List Session}
    (hHistory : History Permits (s :: earlier))
    {dialogue : List (Request × Html.Answer)}
    {r : Receiver}
    (hServes :
      Receiver.Serves s.page.tree (.ofTree s.page.tree) dialogue
        r) :
    s.acts (callsOf dialogue) = .ok (s.withTree r.tree) ∧
      s.Spares (s.withTree r.tree) (Receiver.made dialogue) ∧
      ∀ request : Request,
        request.Separate s.page.tree r.tree →
        (∀ node, request = .name node →
          r.tree.isElement node = true) →
          ∃ r' answer,
            r.answer request = .ok (r', answer) ∧
              Receiver.Minds s.page.tree r request r' answer := by
  have hLinked := hHistory.linked_last
  have hTidy := hHistory.tidy s (by simp)
  have hStart := Tree.Apart.refl hLinked.free
  have hApart := (hServes.apart hLinked hStart).1
  rcases hServes.made hLinked hStart with ⟨hDistinct, hMade⟩
  refine ⟨acts_of_serves hServes s, ?_, ?_⟩
  · exact
      hTidy.spares hApart hDistinct fun i hMember =>
        (hMade i hMember).2
  · intro request hSeparate hNamed
    rcases
      Receiver.exists_answer hApart hLinked hSeparate hNamed with
      ⟨r', answer, hAnswer⟩
    exact
      ⟨r', answer, hAnswer,
        Receiver.minds_of_answer hApart hLinked hSeparate
          hAnswer⟩

/-
  An element and a comment are put beside a paragraph, in the
  order other than that of making them, and text below the
  element.  The element may even go below itself then.
-/
theorem dialogues_beside_paragraph :
    ∃ s earlier dialogue r,
      History Permits (s :: earlier) ∧
        s.page.tree.childrenOf 0 = [1] ∧
        Receiver.Serves s.page.tree (.ofTree s.page.tree)
          dialogue r ∧
        Receiver.made dialogue = [2, 4] ∧
        r.tree.childrenOf 0 = [1, 4] ∧
        r.tree.childrenOf 2 = [3, 2] ∧
        s.Spares (s.withTree r.tree) [2, 4] := by
  let paragraph : Session :=
    ofNodes [rootNode [1], htmlNode 1 "p" (some 0) []]
  let old : Tree := paragraph.page.tree
  have h₀ : History Permits [start Document.empty {}] :=
    .start {}
  have h₁ :=
    h₀.step (.operation (.page (.appendPage 0 "<p></p>")))
      paragraph rfl (by cbv)
  let bold := htmlNode 2 "b"
  let text : Node :=
    { id := 3, parent := some 2, data := .text "x" }
  let comment (parent : Option NodeId) : Node :=
    { id := 4, parent, data := .comment }
  let holding (children : List NodeId) (more : List Node) :=
    Receiver.ofTree
      (ofNodes
        ([rootNode children, htmlNode 1 "p" (some 0) []] ++
          more)).page.tree
  have hLast :
      Receiver.Serves old
        (holding [1, 4, 2]
          [bold (some 0) [3], text, comment (some 0)])
        [(.build (.append 2 (.node 2)), .nothing)]
        (holding [1, 4]
          [bold (some 2) [3, 2], text, comment (some 0)]) :=
    .next ⟨Or.inl ⟨rfl, rfl⟩, rfl, rfl⟩ rfl (.done _)
  have hBefore :
      Receiver.Serves old
        (holding [1, 2] [bold (some 0) [3], text])
        [(.build .createComment, .node 4),
          (.build (.appendBefore 2 (.node 4)), .nothing),
          (.build (.append 2 (.node 2)), .nothing)] _ :=
    .next trivial rfl (.next ⟨⟨rfl, rfl⟩, rfl, rfl⟩ rfl hLast)
  have hText :
      Receiver.Serves old (holding [1, 2] [bold (some 0) []])
        ((.build (.append 2 (.text "x")), .nothing) :: _) _ :=
    .next ⟨Or.inl ⟨rfl, rfl⟩, fun h => absurd h (by decide)⟩
      rfl hBefore
  have hServes :
      Receiver.Serves old (holding [1] [])
        ((.build (.createElement (.html "b") []), .node 2) ::
          (.build (.append 0 (.node 2)), .nothing) :: _) _ :=
    .next trivial rfl
      (.next ⟨Or.inr ⟨rfl, rfl⟩, rfl, rfl⟩ rfl hText)
  rcases dialogues_of_history h₁ hServes with ⟨_, hSpares, _⟩
  exact
    ⟨_, _, _, _, h₁, rfl, hServes, rfl, rfl, rfl, hSpares⟩

end Session

end MarkupMetrics
