import MarkupMetrics.Proofs.Dom.Copies
import MarkupMetrics.Proofs.Dom.Filling
import MarkupMetrics.Proofs.Dom.Texts

/-
  This file proves that comments and texts without characters
  can be moved about, put into a tree and taken out of it with
  all that hangs below them, and no node outside has another
  text then.

  The text of a node depends on its children that are not
  blank alone.  So it is enough that these stay the same, and
  stay in their order.

  Key definitions include:
    * `Tree.isBlank`
    * `Tree.ReadsLike`
    * `Tree.AddsBlanks`

  Key theorems include:
    * `Tree.reads_solid_iff`
    * `Tree.ReadsLike.textContent_eq`
    * `Tree.textContent_of_remove`
    * `Tree.CopiedBelow.readsLike`
-/

namespace MarkupMetrics

namespace Dom

theorem NodeData.isBlank_iff
    {data : NodeData} :
    data.isBlank = true ↔ data.ownText? = some "" := by
  cases data <;> simp [isBlank, ownText?]

namespace Tree

open Outcome Relation

variable {t u t' : Tree}
variable {x id owner : NodeId}

------------------------------------------------------------
-- Blanks
------------------------------------------------------------

/-
  Whether there is no node here, or a comment, or a text
  without characters.
-/
def isBlank
    (t : Tree)
    (x : NodeId) : Bool :=
  (t.get? x).all fun n => n.data.isBlank

/- The children that are not blank. -/
def solidChildren
    (t : Tree)
    (x : NodeId) : List NodeId :=
  (t.childrenOf x).filter fun c => !t.isBlank c

theorem isBlank_of_get?
    {n : Node}
    (hNode : t.get? x = some n) :
    t.isBlank x = n.data.isBlank := by
  simp [isBlank, hNode]

theorem isBlank_of_missing
    (hMissing : t.contains x = false) :
    t.isBlank x = true := by
  simp [isBlank, not_contains_iff.mp hMissing]

theorem isBlank_congr
    (hContent : t'.contentOf? x = t.contentOf? x) :
    t'.isBlank x = t.isBlank x := by
  have hView :
      ∀ v : Tree,
        v.isBlank x =
          (v.contentOf? x).all fun c => c.2.isBlank := by
    intro v
    cases hNode : v.get? x <;> simp [isBlank, contentOf?, hNode]
  rw [hView, hView, hContent]

theorem isBlank_create
    (hFree : t.FreeListed)
    (data : NodeData) :
    (t.create data).1.isBlank (t.create data).2 =
      data.isBlank := by
  have hNode := (get?_create hFree data).2 (t.create data).2
  rw [if_pos rfl] at hNode
  exact isBlank_of_get? hNode

/- The same nodes are left out where the content is the same. -/
theorem filter_solid_congr
    {ids : List NodeId}
    (hContent :
      ∀ c ∈ ids, t'.contentOf? c = t.contentOf? c) :
    (ids.filter fun c => !t'.isBlank c) =
      ids.filter fun c => !t.isBlank c := by
  apply List.filter_congr
  intro c hMember
  rw [isBlank_congr (hContent c hMember)]

/- A blank has no text. -/
theorem reads_of_blank
    (hBlank : t.isBlank x = true) :
    t.Reads [x] "" := by
  cases hNode : t.get? x with
  | none => exact .missing hNode .nil
  | some n =>
      rw [isBlank_of_get? hNode, NodeData.isBlank_iff] at hBlank
      simpa using Reads.leaf hNode hBlank .nil

theorem textContent_of_blank
    (hLinked : t.Linked)
    (hBlank : t.isBlank x = true) :
    t.textContent x = .ok "" :=
  (textContent_eq_ok_iff hLinked).mpr (reads_of_blank hBlank)

/- The first of several nodes is read before the others. -/
theorem reads_cons_iff
    {rest : List NodeId}
    {text : String} :
    t.Reads (x :: rest) text ↔
      ∃ own after,
        t.Reads [x] own ∧ t.Reads rest after ∧
          text = own ++ after := by
  constructor
  · intro hText
    cases hText with
    | missing hMissing hAfter =>
        exact
          ⟨"", _, .missing hMissing .nil, hAfter, by simp⟩
    | leaf hNode hOwn hAfter =>
        exact
          ⟨_, _, by simpa using Reads.leaf hNode hOwn .nil,
            hAfter, rfl⟩
    | inner hNode hOwn hBelow hAfter =>
        exact
          ⟨_, _, by simpa using Reads.inner hNode hOwn hBelow .nil,
            hAfter, rfl⟩
  · rintro ⟨own, after, hOwn, hAfter, rfl⟩
    exact hOwn.append hAfter

/- Blanks can be left out of what is read. -/
theorem reads_solid_iff
    {ids : List NodeId}
    {text : String} :
    t.Reads (ids.filter fun c => !t.isBlank c) text ↔
      t.Reads ids text := by
  induction ids generalizing text with
  | nil => rfl
  | cons x rest ih =>
      cases hBlank : t.isBlank x with
      | false =>
          rw [List.filter_cons_of_pos (by simp [hBlank]),
            reads_cons_iff, reads_cons_iff]
          simp only [ih]
      | true =>
          have hNone := reads_of_blank hBlank
          rw [List.filter_cons_of_neg (by simp [hBlank]), ih]
          constructor
          · intro hRest
            simpa using hNone.append hRest
          · intro hText
            rcases reads_cons_iff.mp hText with
              ⟨own, after, hOwn, hRest, rfl⟩
            rw [hOwn.unique hNone, String.empty_append]
            exact hRest

------------------------------------------------------------
-- Reading alike
------------------------------------------------------------

/-
  The nodes of one tree are in another with the same content,
  and with the same children but for blanks.
-/
structure ReadsLike
    (t t' : Tree) : Prop where
  content :
    ∀ x, t.contains x = true →
      t'.contentOf? x = t.contentOf? x
  solid :
    ∀ x, t.contains x = true →
      t'.solidChildren x = t.solidChildren x

namespace ReadsLike

theorem contains
    (hLike : t.ReadsLike t')
    (hLive : t.contains x = true) :
    t'.contains x = true := by
  rw [contains_iff_contentOf?, hLike.content x hLive,
    ← contains_iff_contentOf?, hLive]

theorem trans
    (hFirst : t.ReadsLike u)
    (hSecond : u.ReadsLike t') :
    t.ReadsLike t' where
  content x hLive :=
    (hSecond.content x (hFirst.contains hLive)).trans
      (hFirst.content x hLive)
  solid x hLive :=
    (hSecond.solid x (hFirst.contains hLive)).trans
      (hFirst.solid x hLive)

/-
  What is read in one tree is read in the other.  Going down,
  the blanks are left out before the change and come back
  after it.
-/
theorem reads
    (hLike : t.ReadsLike t')
    (hLinked : t.Linked)
    {ids : List NodeId}
    {text : String}
    (hText : t.Reads ids text)
    (hLive : ∀ x ∈ ids, t.contains x = true) :
    t'.Reads ids text := by
  have hNode' :
      ∀ {x n}, t.get? x = some n →
        ∃ n', t'.get? x = some n' ∧ n'.data = n.data :=
    fun hNode =>
      exists_same_data
        (hLike.content _ (contains_of_get? hNode)) hNode
  induction hText with
  | nil => exact .nil
  | missing hMissing _ _ =>
      rcases List.forall_mem_cons.mp hLive with ⟨hThere, _⟩
      rw [not_contains_iff.mpr hMissing] at hThere
      cases hThere
  | leaf hNode hOwn _ ih =>
      rcases hNode' hNode with ⟨n', hSame, hData⟩
      exact
        .leaf hSame (hData ▸ hOwn)
          (ih (List.forall_mem_cons.mp hLive).2)
  | @inner x n rest below after hNode hOwn _ _ ihBelow ihAfter =>
      rcases hNode' hNode with ⟨n', hSame, hData⟩
      have hInside : ∀ c ∈ n.children, t.contains c = true := by
        rw [← childrenOf_of_get? hNode]
        exact fun c => hLinked.contains_child
      have hSolid := hLike.solid x (contains_of_get? hNode)
      rw [solidChildren, solidChildren, childrenOf_of_get? hNode,
        childrenOf_of_get? hSame] at hSolid
      have hFiltered :
          (n.children.filter fun c => !t'.isBlank c) =
            n.children.filter fun c => !t.isBlank c :=
        filter_solid_congr fun c hChild =>
          hLike.content c (hInside c hChild)
      refine
        .inner hSame (hData ▸ hOwn) ?_
          (ihAfter (List.forall_mem_cons.mp hLive).2)
      rw [← reads_solid_iff, hSolid, ← hFiltered,
        reads_solid_iff]
      exact ihBelow hInside

/- So no node has another text, if what is new is blank. -/
theorem textContent_eq
    (hLike : t.ReadsLike t')
    (hLinked : t.Linked)
    (hLinked' : t'.Linked)
    {n : NodeId}
    (hNew : t.contains n = false → t'.isBlank n = true) :
    t'.textContent n = t.textContent n := by
  cases hLive : t.contains n with
  | false =>
      rw [textContent_of_blank hLinked' (hNew hLive),
        textContent_of_blank hLinked (isBlank_of_missing hLive)]
  | true =>
      rcases exists_textContent hLinked n with ⟨text, hText⟩
      rw [hText, textContent_eq_ok_iff hLinked']
      exact
        hLike.reads hLinked
          ((textContent_eq_ok_iff hLinked).mp hText)
          (by simpa using hLive)

end ReadsLike

/- One tree reads like another, and what is new is blank. -/
structure AddsBlanks
    (t t' : Tree) : Prop extends ReadsLike t t' where
  new :
    ∀ x, t.contains x = false → t'.isBlank x = true

namespace AddsBlanks

theorem refl
    (t : Tree) :
    t.AddsBlanks t where
  content _ _ := rfl
  solid _ _ := rfl
  new _ := isBlank_of_missing

theorem trans
    (hFirst : t.AddsBlanks u)
    (hSecond : u.AddsBlanks t') :
    t.AddsBlanks t' where
  toReadsLike := hFirst.toReadsLike.trans hSecond.toReadsLike
  new x hMissing := by
    cases hMiddle : u.contains x with
    | false => exact hSecond.new x hMiddle
    | true =>
        rw [isBlank_congr (hSecond.content x hMiddle)]
        exact hFirst.new x hMissing

/- Links may change as long as blanks alone are moved. -/
theorem ofSameNodes
    (hNodes : SameNodes t t')
    (hSolid :
      ∀ q, (t'.childrenOf q).filter (fun c => !t.isBlank c) =
        t.solidChildren q) :
    t.AddsBlanks t' where
  content x _ := hNodes.content x
  solid x _ := by
    rw [← hSolid]
    exact filter_solid_congr fun c _ => hNodes.content c
  new x hMissing := by
    apply isBlank_of_missing
    rw [hNodes.contains, hMissing]

/- A new blank stands in no child list. -/
theorem create
    (hLinked : t.Linked)
    {data : NodeData}
    (hBlank : data.isBlank = true) :
    t.AddsBlanks (t.create data).1 := by
  rcases get?_create hLinked.free data with ⟨_, hRead⟩
  have hFresh := (contains_created hLinked.free data).1
  have hOld :
      ∀ x, t.contains x = true →
        (t.create data).1.contentOf? x = t.contentOf? x := by
    intro x hLive
    rw [contentOf?, hRead, if_neg (ne_of_missing hLive hFresh),
      contentOf?]
  refine ⟨⟨hOld, ?_⟩, ?_⟩
  · intro x _
    rw [solidChildren, childrenOf_create hLinked.free]
    exact
      filter_solid_congr fun c hChild =>
        hOld c (hLinked.contains_child hChild)
  · intro x hMissing
    by_cases hSame : x = (t.create data).2
    · rw [hSame, isBlank_create hLinked.free, hBlank]
    · apply isBlank_of_missing
      rw [Tree.contains, hRead, if_neg hSame, ← Tree.contains,
        hMissing]

end AddsBlanks

------------------------------------------------------------
-- Moving blanks
------------------------------------------------------------

theorem addsBlanks_setParent
    (t : Tree)
    (id : NodeId)
    (parent : Option NodeId) :
    t.AddsBlanks (t.setParent id parent) := by
  apply AddsBlanks.ofSameNodes (.setParent t id parent)
  intro q
  rw [childrenOf_setParent, solidChildren]

/- A child list may change in its blanks. -/
theorem addsBlanks_setChildren
    {list : List NodeId}
    (hList :
      list.filter (fun c => !t.isBlank c) =
        t.solidChildren owner) :
    t.AddsBlanks (t.setChildren owner list) := by
  apply AddsBlanks.ofSameNodes (.setChildren t owner list)
  intro q
  rw [childrenOf_setChildren]
  by_cases hSame : q = owner ∧ t.contains owner = true
  · rw [if_pos hSame, hList, hSame.1]
  · rw [if_neg hSame, solidChildren]

theorem addsBlanks_dropChild
    {child : NodeId}
    (hBlank : t.isBlank child = true)
    (parent : NodeId) :
    t.AddsBlanks (t.dropChild parent child) := by
  rw [dropChild_eq]
  apply addsBlanks_setChildren
  rw [List.filter_filter, solidChildren]
  apply List.filter_congr
  intro c _
  by_cases hSame : c = child
  · simp [hSame, hBlank]
  · simp [hSame]

theorem addsBlanks_of_detach
    {child : NodeId}
    (hBlank : t.isBlank child = true)
    (hRun : t.detach child = .ok u) :
    t.AddsBlanks u := by
  rcases detach_cases hRun with
    ⟨n, _, ⟨_, rfl⟩ | ⟨p, _, _, rfl⟩⟩
  · exact .refl u
  · have hNodes := SameNodes.setParent t child none
    exact
      (addsBlanks_setParent t child none).trans
        (addsBlanks_dropChild
          ((isBlank_congr (hNodes.content child)).trans hBlank) p)

/- A blank that was detached may be put anywhere. -/
theorem addsBlanks_of_place
    {child : NodeId}
    (hBlank : t.isBlank child = true)
    (hDetach : t.detach child = .ok u)
    (place : List NodeId → List NodeId)
    (hPlace :
      ∀ (keep : NodeId → Bool) list,
        keep child = false →
          (place list).filter keep = list.filter keep) :
    t.AddsBlanks
      ((u.setChildren owner (place (u.childrenOf owner))).setParent
        child (some owner)) := by
  have hStill : u.isBlank child = true := by
    rw [isBlank_congr
      ((sameNodes_of_detach hDetach).content child), hBlank]
  refine (addsBlanks_of_detach hBlank hDetach).trans ?_
  refine .trans ?_ (addsBlanks_setParent _ child (some owner))
  apply addsBlanks_setChildren
  exact hPlace _ _ (by simp [hStill])

theorem addsBlanks_of_appendOne
    {child : NodeId}
    (hBlank : t.isBlank child = true)
    (hRun : appendOne owner t child = .ok t') :
    t.AddsBlanks t' := by
  rcases appendOne_cases hRun with ⟨u, hDetach, _, rfl⟩
  apply addsBlanks_of_place hBlank hDetach fun l => l ++ [child]
  intro keep list hOut
  simp [hOut]

theorem addsBlanks_of_insertOneBefore
    {anchor child : NodeId}
    (hBlank : t.isBlank child = true)
    (hRun : insertOneBefore owner anchor t child = .ok t') :
    t.AddsBlanks t' := by
  rcases insertOneBefore_cases hRun with ⟨u, hDetach, _, rfl⟩
  apply addsBlanks_of_place hBlank hDetach
    (insertBeforeAnchor anchor child)
  intro keep list hOut
  exact filter_insertBeforeAnchor hOut anchor list

/- Moving blanks one after the other, each is still blank. -/
theorem addsBlanks_of_moves
    {f : Tree → NodeId → Except Fault Tree}
    (hStep :
      ∀ {t c t'}, t.isBlank c = true → f t c = .ok t' →
        t.AddsBlanks t' ∧ SameNodes t t')
    {ids : List NodeId}
    (hBlanks : ∀ c ∈ ids, t.isBlank c = true)
    (hRun : ids.foldlM f t = .ok t') :
    t.AddsBlanks t' := by
  induction ids generalizing t with
  | nil =>
      rw [List.foldlM_nil, pure_eq_ok_iff] at hRun
      exact hRun ▸ .refl t
  | cons c ids ih =>
      rw [List.foldlM_cons, bind_eq_ok_iff] at hRun
      rcases hRun with ⟨u, hFirst, hRest⟩
      rcases List.forall_mem_cons.mp hBlanks with
        ⟨hBlank, hOthers⟩
      rcases hStep hBlank hFirst with ⟨hOne, hNodes⟩
      refine hOne.trans (ih ?_ hRest)
      intro d hMember
      rw [isBlank_congr (hNodes.content d), hOthers d hMember]

theorem addsBlanks_of_append
    {ids : List NodeId}
    (hBlanks : ∀ c ∈ ids, t.isBlank c = true)
    (hRun : t.append owner ids = .ok t') :
    t.AddsBlanks t' :=
  addsBlanks_of_moves
    (fun hBlank hStep =>
      ⟨addsBlanks_of_appendOne hBlank hStep,
        sameNodes_of_appendOne hStep⟩)
    hBlanks hRun

theorem addsBlanks_of_insertBefore
    {anchor : NodeId}
    {ids : List NodeId}
    (hBlanks : ∀ c ∈ ids, t.isBlank c = true)
    (hRun : t.insertBefore anchor ids = .ok t') :
    t.AddsBlanks t' := by
  rcases insertBefore_cases hRun with
    ⟨_, rfl⟩ | ⟨p, _, hMoves⟩
  · exact .refl t'
  · exact
      addsBlanks_of_moves
        (fun hBlank hStep =>
          ⟨addsBlanks_of_insertOneBefore hBlank hStep,
            sameNodes_of_insertOneBefore hStep⟩)
        hBlanks hMoves

/- Blanks may lose their parent. -/
theorem addsBlanks_of_cut
    {ids : List NodeId}
    (hBlanks : ∀ c ∈ ids, t.isBlank c = true)
    (hCut : Cut ids t u) :
    t.AddsBlanks u := by
  apply AddsBlanks.ofSameNodes hCut.nodes
  intro q
  rw [hCut.children, List.filter_filter, solidChildren]
  apply List.filter_congr
  intro c _
  by_cases hMember : c ∈ ids
  · simp [hMember, hBlanks c hMember]
  · simp [hMember]

theorem addsBlanks_unlink
    (hLinked : t.Linked)
    (hBlank : t.isBlank id = true) :
    t.AddsBlanks (t.unlink id) :=
  addsBlanks_of_cut (by simpa using hBlank)
    (cut_of_unlink hLinked id)

theorem addsBlanks_of_reparent
    {source target : NodeId}
    (hLinked : t.Linked)
    (hBlanks : ∀ c ∈ t.childrenOf source, t.isBlank c = true)
    (hRun : t.reparent source target = .ok t') :
    t.AddsBlanks t' := by
  rcases reparent_cases hRun with
    ⟨u, hSource, hOrphans, hAppend⟩
  have hCut := cut_of_orphans hLinked hSource hOrphans
  refine
    (addsBlanks_of_cut hBlanks hCut).trans
      (addsBlanks_of_append ?_ hAppend)
  intro c hChild
  rw [isBlank_congr (hCut.nodes.content c), hBlanks c hChild]

/- Nothing is added to a text by a text without characters. -/
theorem addsBlanks_of_appendText?
    (hRun : t.appendText? id "" = .ok (some t')) :
    t.AddsBlanks t' := by
  have hLinks := sameLinks_of_appendText? hRun
  have hContent : ∀ x, t'.contentOf? x = t.contentOf? x := by
    rw [appendText?, bind_eq_ok_iff] at hRun
    rcases hRun with ⟨n, hNode, hRest⟩
    rw [node_eq_ok_iff] at hNode
    cases hData : n.data with
    | text content =>
        rw [hData] at hRest
        have hDone := Option.some.inj (pure_eq_ok_iff.mp hRest)
        intro x
        rw [← hDone, contentOf?,
          get?_put (contains_of_get? hNode)]
        by_cases hSame : x = id
        · subst hSame
          simp [contentOf?, hNode, hData]
        · rw [if_neg hSame, contentOf?]
    | element e => simp [hData] at hRest
    | document => simp [hData] at hRest
    | comment => simp [hData] at hRest
  exact
    .ofSameNodes ⟨hContent, hLinks.free, hLinks.size⟩ fun q => by
      rw [hLinks.children, solidChildren]

------------------------------------------------------------
-- Removing a blank
------------------------------------------------------------

/- What is left after a subtree was freed reads as before. -/
theorem Freed.textContent_eq
    {top n : NodeId}
    {gone : List NodeId}
    (hLinked : t.Linked)
    (hRoot : t.parent? top = none)
    (hFreed : Freed gone t t')
    (hGone : ∀ x, x ∈ gone ↔ t.Within x top)
    (hStays : n ∉ gone) :
    t'.textContent n = t.textContent n := by
  have hLinked' := hLinked.freed hRoot hFreed hGone
  rcases exists_textContent hLinked n with ⟨text, hText⟩
  rw [hText, textContent_eq_ok_iff hLinked']
  refine
    Reads.congr (P := fun x => x ∉ gone) ?_ ?_
      ((textContent_eq_ok_iff hLinked).mp hText)
      (by simpa using hStays)
  · intro x hLeft c hChild
    have hParent := (hLinked.listed c x).mp hChild
    rwa [gone_iff_of_parent hRoot hGone hParent]
  · intro x hLeft
    rw [hFreed.get, if_neg hLeft]

/-
  A blank is cut off first, which no text tells.  The nodes
  that are freed then stand below it, and from elsewhere no
  way leads down to them.
-/
theorem textContent_of_remove
    (hLinked : t.Linked)
    (hBlank : t.isBlank id = true)
    (hRun : t.remove id = .ok t')
    {n : NodeId}
    (hOutside : ¬ TransGen t.IsChild n id) :
    t'.textContent n = t.textContent n := by
  have hLinked' := hLinked.remove hRun
  rcases remove_cases hLinked hRun with
    ⟨_, rfl⟩ | ⟨u, gone, hCut, hFreed, hGone⟩
  · rfl
  · by_cases hMember : n ∈ gone
    · have hWithin := hCut.within_iff.mp ((hGone n).mp hMember)
      rcases reflTransGen_iff_eq_or_transGen.mp hWithin with
        rfl | hUnder
      · have hMissing : t'.contains id = false := by
          rw [not_contains_iff, hFreed.get, if_pos hMember]
        rw [textContent_of_blank hLinked hBlank,
          textContent_of_blank hLinked'
            (isBlank_of_missing hMissing)]
      · exact (hOutside hUnder).elim
    · have hCutLinked := hLinked.cut hCut
      have hAdds :=
        addsBlanks_of_cut (by simpa using hBlank) hCut
      have hRoot : u.parent? id = none := by simp [hCut.parent]
      rw [hFreed.textContent_eq hCutLinked hRoot hGone hMember,
        hAdds.textContent_eq hLinked hCutLinked (hAdds.new n)]

------------------------------------------------------------
-- Taking in blanks
------------------------------------------------------------

/-
  A node that takes in copies reads as before if the copies
  that become its children are blank.
-/
theorem CopiedBelow.readsLike
    {page : Tree}
    {top : NodeId}
    {below : List NodeId}
    (hLinked : t.Linked)
    (hOwner : t.contains owner = true)
    (hCopied : CopiedBelow page top below owner t t')
    (hBlanks :
      ∀ c ∈ t'.childrenOf owner, t.contains c = false →
        t'.isBlank c = true) :
    t.ReadsLike t' := by
  rcases contains_iff.mp hOwner with ⟨n, hNode⟩
  have hExtended := hCopied.extended n hNode
  have hContent :
      ∀ x, t.contains x = true →
        t'.contentOf? x = t.contentOf? x := by
    intro x hLive
    by_cases hSame : x = owner
    · simp [hSame, contentOf?, hNode, hExtended]
    · rw [contentOf?, hCopied.others x hLive hSame, contentOf?]
  have hOld :
      ∀ x, (t.childrenOf x).filter (fun c => !t'.isBlank c) =
        t.solidChildren x :=
    fun x =>
      filter_solid_congr fun c hChild =>
        hContent c (hLinked.contains_child hChild)
  have hNew :
      ∀ c ∈ (page.childrenOf top).map (t.copyOf below),
        t'.isBlank c = true := by
    intro c hRoot
    rcases List.mem_map.mp (hCopied.order.tops_subset hRoot) with
      ⟨x, hMember, rfl⟩
    apply hBlanks _ _ (hCopied.fresh x hMember)
    rw [childrenOf_of_get? hExtended]
    exact List.mem_append_right n.children hRoot
  refine ⟨hContent, ?_⟩
  intro x hLive
  rw [← hOld x, solidChildren]
  by_cases hSame : x = owner
  · subst hSame
    rw [childrenOf_of_get? hExtended, childrenOf_of_get? hNode,
      List.filter_append, List.append_right_eq_self,
      List.filter_eq_nil_iff]
    intro c hRoot
    simp [hNew c hRoot]
  · rw [childrenOf, hCopied.others x hLive hSame, childrenOf]

end Tree

end Dom

end MarkupMetrics
