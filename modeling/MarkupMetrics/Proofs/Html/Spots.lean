import MarkupMetrics.Proofs.Dom.Texts
import MarkupMetrics.Proofs.Html.Insertion
import Mathlib.Data.List.Chain

/-
  This file proves what the calls do that put text at a place
  that nodes tell: at the end of a node, before a node, or
  whichever of the two fits a node.

  The text comes to stand where the place is, between what was
  there before and after it.  It makes no difference in how
  many runs it comes, and text is never cut in two.

  Key definitions include:
    * `Spot`
    * `Spot.call`
    * `Spot.There`
    * `Spot.Opens`
    * `Tree.Unbroken`

  Key theorems include:
    * `Spot.exists_opens`
    * `Spot.exists_writes`
    * `Spot.exists_twice`
    * `Tree.Writes.reads`
    * `Tree.Writes.unbroken`
-/

namespace MarkupMetrics

namespace Html

open Dom Tree MarkupMetrics.Outcome

------------------------------------------------------------
-- Places
------------------------------------------------------------

/-
  A place for text: at the end of a node, before a node, or
  before an element if that has a parent, else at the end of
  another one.
-/
inductive Spot where
  | endOf (parent : NodeId)
  | before (sibling : NodeId)
  | based (element previous : NodeId)

namespace Spot

/- The call that puts text at a place. -/
def call
    (text : String) : Spot → TreeCall NodeId
  | .endOf parent => .append parent (.text text)
  | .before sibling => .appendBefore sibling (.text text)
  | .based element previous =>
      .appendBased element previous (.text text)

/- Whether a tree has the nodes that tell a place. -/
def There
    (t : Tree) : Spot → Prop
  | .endOf parent => t.contains parent = true
  | .before sibling => ∃ p, t.parent? sibling = some p
  | .based element previous =>
      t.contains element = true ∧
        (t.parent? element = none →
          t.contains previous = true)

/-
  Whether a place is in the child list of an owner, with only
  some last children behind it.
-/
def Aims
    (t : Tree)
    (owner : NodeId)
    (back : List NodeId) : Spot → Prop
  | .endOf parent => owner = parent ∧ back = []
  | .before sibling => back.head? = some sibling
  | .based element previous =>
      back.head? = some element ∨
        t.contains element = true ∧
          t.parent? element = none ∧
          owner = previous ∧ back = []

/- A place cuts the child list of an owner in two. -/
structure Opens
    (spot : Spot)
    (t : Tree)
    (owner : NodeId)
    (front back : List NodeId) : Prop where
  live : t.contains owner = true
  children : t.childrenOf owner = front ++ back
  aims : spot.Aims t owner back

variable {t u : Tree}
variable {spot : Spot}
variable {owner : NodeId}
variable {front back : List NodeId}

/- Before a child there is a cut through the list it is in. -/
theorem exists_cut
    (hLinked : t.Linked)
    {sibling p : NodeId}
    (hParent : t.parent? sibling = some p) :
    ∃ front back,
      t.contains p = true ∧ t.childrenOf p = front ++ back ∧
        back.head? = some sibling := by
  have hMember := (hLinked.listed sibling p).mpr hParent
  rcases List.append_of_mem hMember with
    ⟨front, rest, hChildren⟩
  exact
    ⟨front, sibling :: rest, contains_of_mem_childrenOf hMember,
      hChildren, rfl⟩

/- Every place that is there is a cut. -/
theorem exists_opens
    (hLinked : t.Linked)
    (hThere : spot.There t) :
    ∃ owner front back, spot.Opens t owner front back := by
  cases spot with
  | endOf parent =>
      exact
        ⟨parent, t.childrenOf parent, [], hThere,
          (List.append_nil _).symm, rfl, rfl⟩
  | before sibling =>
      rcases hThere with ⟨p, hParent⟩
      rcases exists_cut hLinked hParent with
        ⟨front, back, hLive, hChildren, hHead⟩
      exact ⟨p, front, back, hLive, hChildren, hHead⟩
  | based element previous =>
      rcases hThere with ⟨hElement, hElse⟩
      cases hParent : t.parent? element with
      | some p =>
          rcases exists_cut hLinked hParent with
            ⟨front, back, hLive, hChildren, hHead⟩
          exact
            ⟨p, front, back, hLive, hChildren, Or.inl hHead⟩
      | none =>
          exact
            ⟨previous, t.childrenOf previous, [], hElse hParent,
              (List.append_nil _).symm,
              Or.inr ⟨hElement, hParent, rfl, rfl⟩⟩

/- Text can be put at a place that is there. -/
theorem exists_writes
    (hLinked : t.Linked)
    (hOpens : spot.Opens t owner front back)
    (text : String) :
    ∃ t', (spot.call text).run t = .ok (t', none) ∧
      Writes owner front back text t t' := by
  rcases hOpens with ⟨hLive, hChildren, hAims⟩
  have hBefore :
      ∀ {s}, back.head? = some s →
        t.parent? s = some owner ∧
          ∃ t', t.insertContentBefore s (.text text) = .ok t' ∧
            Writes owner front back text t t' := by
    intro s hHead
    rcases List.head?_eq_some_iff.mp hHead with ⟨rest, rfl⟩
    have hMember : s ∈ t.childrenOf owner := by
      simp [hChildren]
    exact
      ⟨(hLinked.listed s owner).mp hMember,
        exists_insertText hLinked hChildren text⟩
  have hEnd :
      back = [] →
        ∃ t', t.appendContent owner (.text text) = .ok t' ∧
          Writes owner front back text t t' := by
    rintro rfl
    rw [List.append_nil] at hChildren
    exact hChildren ▸ exists_appendText hLinked hLive text
  cases spot with
  | endOf parent =>
      rcases hAims with ⟨rfl, hBack⟩
      rcases hEnd hBack with ⟨t', hRun, hWrites⟩
      refine ⟨t', ?_, hWrites⟩
      rw [call, TreeCall.run, hRun]
      rfl
  | before sibling =>
      rcases hBefore hAims with ⟨_, t', hRun, hWrites⟩
      refine ⟨t', ?_, hWrites⟩
      rw [call, TreeCall.run, hRun]
      rfl
  | based element previous =>
      rcases hAims with hHead | ⟨hElement, hRoot, rfl, hBack⟩
      · rcases hBefore hHead with
          ⟨hParent, t', hRun, hWrites⟩
        refine ⟨t', ?_, hWrites⟩
        rw [call, TreeCall.run_appendBased_of_parent hParent,
          TreeCall.run, hRun]
        rfl
      · rcases hEnd hBack with ⟨t', hRun, hWrites⟩
        refine ⟨t', ?_, hWrites⟩
        rw [call,
          TreeCall.run_appendBased_of_root hElement hRoot,
          TreeCall.run, hRun]
        rfl

/- A call with text keeps the links in agreement. -/
theorem linked_run
    (hLinked : t.Linked)
    {text : String}
    {made : Option NodeId}
    (hRun : (spot.call text).run t = .ok (u, made)) :
    u.Linked := by
  apply TreeCall.linked_run hLinked _ hRun
  cases spot <;> trivial

/-
  Two runs of text at a place come to the same as one.  The
  place is still there after the first run, with the text
  before it.
-/
theorem exists_twice
    (hLinked : t.Linked)
    (hOpens : spot.Opens t owner front back)
    (first second : String) :
    ∃ u v,
      (spot.call first).run t = .ok (u, none) ∧
        Writes owner front back first t u ∧
        (spot.call second).run u = .ok (v, none) ∧
        (spot.call (first ++ second)).run t = .ok (v, none) := by
  rcases exists_writes hLinked hOpens first with
    ⟨u, hRun, hWrites⟩
  rcases hWrites.again hOpens.live hOpens.children with
    ⟨front', hChildren, hJoins⟩
  have hStill : spot.Opens u owner front' back := by
    refine ⟨(hWrites.kept hOpens.live).1, hChildren, ?_⟩
    cases spot with
    | endOf parent => exact hOpens.aims
    | before sibling => exact hOpens.aims
    | based element previous =>
        rcases hOpens.aims with
          hHead | ⟨hElement, hRoot, hRest⟩
        · exact Or.inl hHead
        · rcases hWrites.kept hElement with ⟨hLive, hParent⟩
          exact Or.inr ⟨hLive, hParent.trans hRoot, hRest⟩
  rcases
    exists_writes (linked_run hLinked hRun) hStill second with
    ⟨v, hMore, hLater⟩
  rcases exists_writes hLinked hOpens (first ++ second) with
    ⟨w, hOnce, hTogether⟩
  have hSame : v = w :=
    (hJoins second v hLater).unique hTogether hOpens.live
  exact ⟨u, v, hRun, hWrites, hMore, hSame ▸ hOnce⟩

end Spot

end Html

------------------------------------------------------------
-- What has changed
------------------------------------------------------------

namespace Dom.Tree

open Outcome

/- No two text nodes stand side by side. -/
def Unbroken
    (t : Tree) : Prop :=
  ∀ q, (t.childrenOf q).IsChain fun x y =>
    t.textAt? x = none ∨ t.textAt? y = none

/- All children are nodes. -/
theorem filter_children
    {t : Tree}
    (hLinked : t.Linked)
    (q : NodeId) :
    (t.childrenOf q).filter t.contains = t.childrenOf q :=
  List.filter_eq_self.mpr fun _ => hLinked.contains_child

namespace Writes

variable {t u : Tree}
variable {owner : NodeId}
variable {front back : List NodeId}
variable {text : String}

/- Nodes that were there are listed as they were. -/
theorem children_kept
    (hWrites : Writes owner front back text t u)
    (hLinked : t.Linked)
    (hOwner : t.contains owner = true)
    (hChildren : t.childrenOf owner = front ++ back)
    (q : NodeId) :
    (u.childrenOf q).filter t.contains = t.childrenOf q := by
  cases hWrites with
  | joined last n content _ hNode _ hTree =>
      have hSame :=
        SameLinks.put hNode (.text (content ++ text))
      rw [hTree, hSame.children, filter_children hLinked]
  | made _ hPlanted =>
      by_cases hNew : q = t.upcoming 0
      · subst hNew
        rw [childrenOf_of_get? hPlanted.leaf]
        simp [childrenOf, not_contains_iff.mp hPlanted.fresh]
      · by_cases hSame : q = owner
        · subst hSame
          rcases contains_iff.mp hOwner with ⟨n, hNode⟩
          rw [childrenOf_of_get? (hPlanted.extended n hNode),
            List.filter_append,
            List.filter_cons_of_neg (by simp [hPlanted.fresh]),
            ← List.filter_append, ← hChildren,
            filter_children hLinked]
        · have hStill :
              u.childrenOf q = t.childrenOf q := by
            simp only [childrenOf, hPlanted.others q hNew hSame]
          rw [hStill, filter_children hLinked]

/-
  Nodes that are neither above the cut nor where the text is
  have no child that is.
-/
private theorem outside_down
    (hLinked : t.Linked)
    {x : NodeId}
    (hPlace : ∀ q, t.parent? x = some q → q = owner) :
    ∀ y, ¬ t.Within owner y ∧ y ≠ x →
      ∀ c ∈ t.childrenOf y, ¬ t.Within owner c ∧ c ≠ x := by
  rintro y ⟨hAbove, _⟩ c hChild
  have hParent := (hLinked.listed c y).mp hChild
  refine ⟨?_, ?_⟩
  · intro hWithin
    exact hAbove (hWithin.tail hParent)
  · rintro rfl
    exact hAbove (hPlace y hParent ▸ t.within_self owner)

/-
  Children of the owner read as before if the change is only
  in the owner itself and at some other child.
-/
private theorem reads_elsewhere
    (hLinked : t.Linked)
    {x : NodeId}
    (hPlace : ∀ q, t.parent? x = some q → q = owner)
    (hSame :
      ∀ y, y ≠ x → y ≠ owner → u.get? y = t.get? y)
    {ids : List NodeId}
    (hIds : ∀ c ∈ ids, c ∈ t.childrenOf owner ∧ c ≠ x)
    {content : String}
    (hText : t.Reads ids content) :
    u.Reads ids content := by
  apply hText.congr (outside_down hLinked hPlace)
  · rintro y ⟨hAbove, hApart⟩
    apply hSame y hApart
    rintro rfl
    exact hAbove (t.within_self y)
  · intro c hMember
    rcases hIds c hMember with ⟨hChild, hApart⟩
    exact
      ⟨hLinked.not_within_child
          ((hLinked.listed c owner).mp hChild), hApart⟩

/- Text that joins the last node before a cut is read there. -/
private theorem reads_of_joined
    {last : NodeId}
    {m : Node}
    {content before after : String}
    (hLinked : t.Linked)
    (hChildren : t.childrenOf owner = front ++ back)
    (hLast : front.getLast? = some last)
    (hNode : t.get? last = some m)
    (hText : m.data = .text content)
    (hFront : t.Reads front before)
    (hBack : t.Reads back after) :
    (t.put last { m with data := .text (content ++ text) }).Reads
      (front ++ back) (before ++ (text ++ after)) := by
  rcases List.getLast?_eq_some_iff.mp hLast with ⟨init, rfl⟩
  have hListed : last ∈ t.childrenOf owner := by
    rw [hChildren]
    simp
  have hParent := (hLinked.listed last owner).mp hListed
  have hPlace : ∀ q, t.parent? last = some q → q = owner := by
    intro q hOther
    exact Option.some.inj (hOther.symm.trans hParent)
  have hRead := get?_put (contains_of_get? hNode)
    { m with data := .text (content ++ text) }
  have hOnce := hLinked.nodup owner
  rw [hChildren, List.append_assoc, List.singleton_append,
    List.nodup_middle, List.nodup_cons] at hOnce
  have hApart :
      ∀ c ∈ init ++ back,
        c ∈ t.childrenOf owner ∧ c ≠ last := by
    intro c hMember
    refine ⟨?_, ?_⟩
    · rw [hChildren, List.append_assoc]
      exact
        (List.sublist_append_right [last] back).append_left init
          |>.subset hMember
    · rintro rfl
      exact hOnce.1 hMember
  have hStill
      {ids : List NodeId}
      {words : String}
      (hIds : ids ⊆ init ++ back)
      (hWords : t.Reads ids words) :
      (t.put last
        { m with data := .text (content ++ text) }).Reads ids
          words :=
    reads_elsewhere hLinked hPlace
      (fun y hOther _ => by rw [hRead, if_neg hOther])
      (fun c hInside => hApart c (hIds hInside)) hWords
  -- the text before the cut ends with what the last node said
  rcases exists_textOfAll hLinked init with ⟨own, hInit⟩
  rw [textOfAll_eq_ok_iff hLinked] at hInit
  have hOld : t.Reads [last] content := by
    have hLeaf := Reads.leaf hNode (by rw [hText]; rfl) .nil
    rwa [String.append_empty] at hLeaf
  have hBehind := hStill (List.subset_append_right _ _) hBack
  have hNew :=
    Reads.leaf ((hRead last).trans (if_pos rfl)) rfl hBehind
  have hBefore := hStill (List.subset_append_left _ _) hInit
  rw [← (hInit.append hOld).unique hFront]
  simpa [String.append_assoc] using hBefore.append hNew

/- A text node that stands at a cut is read there. -/
private theorem reads_of_planted
    {before after : String}
    (hLinked : t.Linked)
    (hChildren : t.childrenOf owner = front ++ back)
    (hPlanted : Planted owner front back (.text text) t u)
    (hFront : t.Reads front before)
    (hBack : t.Reads back after) :
    u.Reads (front ++ t.upcoming 0 :: back)
      (before ++ (text ++ after)) := by
  have hMissing := not_contains_iff.mp hPlanted.fresh
  have hPlace :
      ∀ q, t.parent? (t.upcoming 0) = some q → q = owner := by
    intro q hParent
    simp [parent?, hMissing] at hParent
  have hStill
      {ids : List NodeId}
      {words : String}
      (hIds : ids ⊆ front ++ back)
      (hWords : t.Reads ids words) :
      u.Reads ids words := by
    apply
      reads_elsewhere hLinked hPlace hPlanted.others ?_ hWords
    intro c hInside
    have hChild : c ∈ t.childrenOf owner :=
      hChildren ▸ hIds hInside
    exact
      ⟨hChild,
        ne_of_missing (hLinked.contains_child hChild)
          hPlanted.fresh⟩
  have hBehind := hStill (List.subset_append_right _ _) hBack
  exact
    (hStill (List.subset_append_left _ _) hFront).append
      (.leaf hPlanted.leaf rfl hBehind)

/-
  Where the cut is in a node that has no text of its own, the
  text of this node is what was written before the cut, the
  new text, and what was written after it.
-/
theorem reads
    (hWrites : Writes owner front back text t u)
    (hLinked : t.Linked)
    (hAfter : u.Linked)
    (hChildren : t.childrenOf owner = front ++ back)
    {n : Node}
    (hNode : t.get? owner = some n)
    (hOwn : n.data.ownText? = none) :
    ∃ before after,
      t.textOfAll front = .ok before ∧
        t.textOfAll back = .ok after ∧
        u.textContent owner = .ok (before ++ text ++ after) := by
  rcases exists_textOfAll hLinked front with ⟨before, hFront⟩
  rcases exists_textOfAll hLinked back with ⟨after, hBack⟩
  refine ⟨before, after, hFront, hBack, ?_⟩
  rw [textOfAll_eq_ok_iff hLinked] at hFront hBack
  rw [textContent_eq_ok_iff hAfter, String.append_assoc]
  cases hWrites with
  | joined last m content hLast hLastNode hText hTree =>
      have hOther : owner ≠ last := by
        rintro rfl
        rw [hNode] at hLastNode
        cases hLastNode
        rw [hText] at hOwn
        cases hOwn
      have hStill : u.get? owner = some n := by
        rw [hTree, get?_put (contains_of_get? hLastNode),
          if_neg hOther, hNode]
      rw [reads_inner_iff hStill hOwn, ← childrenOf_of_get? hNode,
        hChildren, hTree]
      exact
        reads_of_joined hLinked hChildren hLast hLastNode hText
          hFront hBack
  | made _ hPlanted =>
      rw [reads_inner_iff (hPlanted.extended n hNode) hOwn]
      exact
        reads_of_planted hLinked hChildren hPlanted hFront hBack

/- Nodes other than the new one are text if they were. -/
private theorem textAt?_of_planted
    {data : NodeData}
    (hPlanted : Planted owner front back data t u)
    (hOwner : t.contains owner = true)
    {y : NodeId}
    (hLive : t.contains y = true) :
    u.textAt? y = t.textAt? y := by
  have hOld := ne_of_missing hLive hPlanted.fresh
  by_cases hSame : y = owner
  · subst hSame
    rcases contains_iff.mp hOwner with ⟨n, hNode⟩
    simp [textAt?, hNode, hPlanted.extended n hNode]
  · simp only [textAt?, hPlanted.others y hOld hSame]

/- Text that becomes longer stands beside what it stood. -/
private theorem unbroken_of_joined
    {last : NodeId}
    {m : Node}
    {content : String}
    (hNode : t.get? last = some m)
    (hText : m.data = .text content)
    (hBefore : t.Unbroken) :
    (t.put last
      { m with data := .text (content ++ text) }).Unbroken := by
  have hSame := SameLinks.put hNode (.text (content ++ text))
  have hKind :
      ∀ y, t.textAt? y = none →
        (t.put last
          { m with data := .text (content ++ text) }).textAt? y =
            none := by
    intro y hNone
    have hOther : y ≠ last := by
      rintro rfl
      have hThere :=
        textAt?_eq_some_iff.mpr ⟨m, hNode, hText⟩
      rw [hNone] at hThere
      cases hThere
    rw [textAt?, get?_put (contains_of_get? hNode),
      if_neg hOther]
    exact hNone
  intro q
  rw [hSame.children]
  exact
    (hBefore q).imp fun x y hApart =>
      hApart.imp (hKind x) (hKind y)

/-
  A text node stands beside no text if none stood before the
  cut, and none behind it.
-/
private theorem unbroken_of_planted
    (hLinked : t.Linked)
    (hOwner : t.contains owner = true)
    (hChildren : t.childrenOf owner = front ++ back)
    (hPlanted : Planted owner front back (.text text) t u)
    (hFront :
      ∀ x, front.getLast? = some x → t.textAt? x = none)
    (hBack :
      ∀ y, back.head? = some y → t.textAt? y = none)
    (hBefore : t.Unbroken) :
    u.Unbroken := by
  have hKeeps :
      ∀ {ids : List NodeId},
        (∀ c ∈ ids, t.contains c = true) →
        (ids.IsChain fun x y =>
          t.textAt? x = none ∨ t.textAt? y = none) →
        ids.IsChain fun x y =>
          u.textAt? x = none ∨ u.textAt? y = none := by
    intro ids hLive hChain
    refine hChain.imp_of_mem_imp ?_
    intro x y hFirst hSecond hApart
    rwa [textAt?_of_planted hPlanted hOwner (hLive x hFirst),
      textAt?_of_planted hPlanted hOwner (hLive y hSecond)]
  intro q
  have hOld := hBefore q
  by_cases hNew : q = t.upcoming 0
  · subst hNew
    rw [childrenOf_of_get? hPlanted.leaf]
    exact .nil
  by_cases hSame : q = owner
  · subst hSame
    rcases contains_iff.mp hOwner with ⟨n, hNode⟩
    have hLive :
        ∀ c ∈ front ++ back, t.contains c = true := by
      rw [← hChildren]
      exact fun c => hLinked.contains_child
    have hLiveFront :
        ∀ c ∈ front, t.contains c = true :=
      fun c hIn => hLive c (List.mem_append_left back hIn)
    have hLiveBack :
        ∀ c ∈ back, t.contains c = true :=
      fun c hIn => hLive c (List.mem_append_right front hIn)
    rw [hChildren, List.isChain_append] at hOld
    rcases hOld with ⟨hOldFront, hOldBack, _⟩
    rw [childrenOf_of_get? (hPlanted.extended n hNode),
      List.isChain_append, List.isChain_cons]
    refine
      ⟨hKeeps hLiveFront hOldFront,
        ⟨?_, hKeeps hLiveBack hOldBack⟩, ?_⟩
    · intro y hHead
      have hThere := hLiveBack y (List.mem_of_head? hHead)
      right
      rw [textAt?_of_planted hPlanted hOwner hThere]
      exact hBack y hHead
    · intro x hLast y _
      have hThere := hLiveFront x (List.mem_of_getLast? hLast)
      left
      rw [textAt?_of_planted hPlanted hOwner hThere]
      exact hFront x hLast
  · have hStill : u.childrenOf q = t.childrenOf q := by
      simp only [childrenOf, hPlanted.others q hNew hSame]
    rw [hStill]
    exact hKeeps (fun c => hLinked.contains_child) hOld

/-
  Where no text stood beside text, and none stands behind the
  cut, none stands beside text then.
-/
theorem unbroken
    (hWrites : Writes owner front back text t u)
    (hLinked : t.Linked)
    (hOwner : t.contains owner = true)
    (hChildren : t.childrenOf owner = front ++ back)
    (hBack :
      ∀ y, back.head? = some y → t.textAt? y = none)
    (hBefore : t.Unbroken) :
    u.Unbroken := by
  cases hWrites with
  | joined last m content _ hNode hText hTree =>
      rw [hTree]
      exact unbroken_of_joined hNode hText hBefore
  | made hFront hPlanted =>
      exact
        unbroken_of_planted hLinked hOwner hChildren hPlanted
          hFront hBack hBefore

end Writes

end Dom.Tree

end MarkupMetrics
