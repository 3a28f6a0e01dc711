import MarkupMetrics.Proofs.Session.Copies
import Mathlib

/-
  This file proves what of a page is lost when its text is
  added to a session.

  The content of a page is all but its html element, and the
  head and the body below that.  What stands below the first
  body is copied in document order.  All other content is
  lost: what the head holds, comments around the body, and
  everything if there is no body.

  Key definitions include:
    * `Tree.isFrame`
    * `Tree.content`
    * `Tree.InBody`
    * `Tree.Conveyed`

  Key theorems include:
    * `Tree.sublist_content`
    * `Tree.CopiedBelow.descendants`
    * `Session.conveyed_iff`
    * `Session.comment_not_conveyed`
-/

namespace MarkupMetrics

open Dom

namespace Dom.Tree

open Outcome

------------------------------------------------------------
-- Content of pages
------------------------------------------------------------

/- Whether a node is an element with a local name. -/
def isNamed
    (t : Tree)
    (name : String)
    (x : NodeId) : Bool :=
  (t.elementAt? x).any fun e => e.name.local_ == name

/-
  Whether a node is an html element below the document, or a
  head or body element below one of these.
-/
def isFrame
    (page : Tree)
    (x : NodeId) : Bool :=
  match page.parent? x with
  | none => false
  | some p =>
      (p == 0 && page.isNamed "html" x) ||
        (page.parent? p == some 0 && page.isNamed "html" p &&
          (page.isNamed "head" x || page.isNamed "body" x))

/- The nodes of a page that hold what it says. -/
def content
    (page : Tree)
    (all : List NodeId) : List NodeId :=
  all.filter fun x => !page.isFrame x

/- Whether a node stands below the first body of a page. -/
def InBody
    (page : Tree)
    (all : List NodeId)
    (x : NodeId) : Prop :=
  ∃ body, all.find? (page.selects "body") = some body ∧
    x ≠ body ∧ page.Within x body

/- What a node is, without its id and its place. -/
def dataAt?
    (t : Tree)
    (x : NodeId) : Option NodeData :=
  (t.get? x).map (·.data)

/-
  The nodes below another one that are new in a tree, in the
  same order.
-/
def added
    (t : Tree)
    (under : List NodeId) : List NodeId :=
  under.filter fun x => !t.contains x

/-
  All nodes with content have copies among the nodes that were
  added, in the same order.
-/
def Conveyed
    (page : Tree)
    (all : List NodeId)
    (t t' : Tree)
    (under : List NodeId) : Prop :=
  ((page.content all).map page.dataAt?).Sublist
    ((t.added under).map t'.dataAt?)

variable {page t t' : Tree}
variable {all below under : List NodeId}
variable {body owner : NodeId}

/- An element does not have two local names. -/
theorem isNamed_unique
    {name other : String}
    {x : NodeId}
    (hFirst : page.isNamed name x = true)
    (hSecond : page.isNamed other x = true) :
    name = other := by
  unfold isNamed at hFirst hSecond
  cases hElement : page.elementAt? x with
  | none => simp [hElement] at hFirst
  | some e =>
      rw [hElement, Option.any_some, beq_iff_eq]
        at hFirst hSecond
      rw [← hFirst, hSecond]

theorem isNamed_of_selects
    (hSelects : page.selects "body" body = true) :
    page.isNamed "body" body = true := by
  rcases selects_body_iff.mp hSelects with
    ⟨e, hElement, hName⟩
  simp [isNamed, hElement, hName]

/- No html element, and no head or body of it, is in a body. -/
theorem not_isFrame_of_below
    (hPage : page.Linked)
    (hBody : page.isNamed "body" body = true)
    (hInside : page.Within body 0)
    (hOther : body ≠ 0)
    {x : NodeId}
    (hApart : x ≠ body)
    (hBelow : page.Within x body) :
    page.isFrame x = false := by
  rcases (within_cases hBelow).resolve_left hApart with
    ⟨p, hParent, hAbove⟩
  have hRoot : ¬ page.Within 0 body := by
    intro hWithin
    exact
      hPage.acyclic 0
        (((below_iff hPage).mpr ⟨hOther.symm, hWithin⟩).trans_left
          hInside)
  have hNotRoot : p ≠ 0 := by
    rintro rfl
    exact hRoot hAbove
  rw [← Bool.not_eq_true]
  intro hFrame
  simp only [isFrame, hParent, Bool.or_eq_true,
    Bool.and_eq_true, beq_iff_eq] at hFrame
  rcases hFrame with ⟨hTop, _⟩ | ⟨⟨hUpper, hHtml⟩, _⟩
  · exact hNotRoot hTop
  · rcases within_cases hAbove with rfl | ⟨q, hOver, hHigher⟩
    · have hSame := isNamed_unique hBody hHtml
      exact absurd hSame (by decide)
    · rw [hUpper] at hOver
      cases hOver
      exact hRoot hHigher

/-
  What stands below the first body is content, and stands in
  the order of the page.
-/
theorem sublist_content
    (hPage : page.Linked)
    (hAll : page.descendants 0 = .ok all)
    (hFirst : all.find? (page.selects "body") = some body)
    (hBelow : page.descendants body = .ok below) :
    below.Sublist (page.content all) := by
  have hListed := List.mem_of_find?_eq_some hFirst
  have hTop : page.contains body = true :=
    contains_of_mem_descendants hAll hListed
  have hRoot : page.contains 0 = true := by
    cases hMissing : page.contains 0 with
    | true => rfl
    | false =>
        rw [not_contains_iff] at hMissing
        rw [descendants, hMissing] at hAll
        cases hAll
        cases hListed
  rcases (mem_descendants_iff hPage hRoot hAll).mp hListed with
    ⟨hOther, hInside⟩
  have hBody :=
    isNamed_of_selects (List.find?_some hFirst)
  have hNoFrame :
      ∀ x ∈ below, page.isFrame x = false := by
    intro x hMember
    rcases (mem_descendants_iff hPage hTop hBelow).mp hMember
      with ⟨hApart, hWithin⟩
    exact
      not_isFrame_of_below hPage hBody hInside hOther hApart
        hWithin
  have hKept :
      (below.filter fun x => !page.isFrame x) = below := by
    apply List.filter_eq_self.mpr
    intro x hMember
    rw [hNoFrame x hMember]
    rfl
  rw [← hKept]
  exact
    (infix_of_within hPage hInside hAll hBelow).sublist.filter _

------------------------------------------------------------
-- What is added
------------------------------------------------------------

/- Copies are listed behind what the owner had below it. -/
theorem CopiedBelow.descendants
    {old : List NodeId}
    (hCopied : CopiedBelow page body below owner t t')
    (hLinked : t.Linked)
    (hOwner : t.contains owner = true)
    (hOld : t.descendants owner = .ok old)
    (hUnder : t'.descendants owner = .ok under) :
    under = old ++ below.map (t.copyOf below) := by
  rcases contains_iff.mp hOwner with ⟨n, hNode⟩
  have hChildren :
      t'.childrenOf owner =
        t.childrenOf owner ++
          (page.childrenOf body).map (t.copyOf below) := by
    rw [childrenOf_of_get? (hCopied.extended n hNode),
      childrenOf_of_get? hNode]
  have hOrder := preorder_of_descendants hUnder
  rw [hChildren] at hOrder
  rcases hOrder.split with
    ⟨first, second, rfl, hFirst, hSecond⟩
  have hStill : t'.Preorder (t.childrenOf owner) old := by
    apply (preorder_of_descendants hOld).congr
    intro x hMember
    have hLive := contains_of_mem_descendants hOld hMember
    have hApart :=
      ((mem_descendants_iff hLinked hOwner hOld).mp hMember).1
    have hSame := hCopied.others x hLive hApart
    exact
      ⟨(hCopied.live x).mpr (Or.inl hLive),
        (links_of_get? hSame).2.2⟩
  rw [hFirst.unique hStill, hSecond.unique hCopied.order]

/- In a tree that has not changed no node is new. -/
theorem added_eq_nil
    {old : List NodeId}
    (hOld : t.descendants owner = .ok old) :
    t.added old = [] := by
  apply List.filter_eq_nil_iff.mpr
  intro x hMember
  rw [contains_of_mem_descendants hOld hMember]
  decide

/- What was added has the data of what was copied, in order. -/
theorem CopiedBelow.map_added
    (hCopied : CopiedBelow page body below owner t t')
    (hBelow : page.descendants body = .ok below)
    (hLinked : t.Linked)
    (hOwner : t.contains owner = true)
    (hUnder : t'.descendants owner = .ok under) :
    (t.added under).map t'.dataAt? = below.map page.dataAt? := by
  rcases exists_descendants hLinked owner with ⟨old, hOld⟩
  have hNoneNew := added_eq_nil hOld
  unfold added at hNoneNew
  have hAllNew :
      ((below.map (t.copyOf below)).filter
        fun x => !t.contains x) =
      below.map (t.copyOf below) := by
    apply List.filter_eq_self.mpr
    intro y hMember
    rcases List.mem_map.mp hMember with ⟨x, hInside, rfl⟩
    rw [hCopied.fresh x hInside]
    rfl
  rw [hCopied.descendants hLinked hOwner hOld hUnder, added,
    List.filter_append, hNoneNew, hAllNew, List.nil_append,
    List.map_map]
  apply List.map_congr_left
  intro x hMember
  rcases
    contains_iff.mp (contains_of_mem_descendants hBelow hMember)
    with ⟨n, hNode⟩
  simp [dataAt?, hCopied.copies x hMember n hNode, hNode]

/-
  Where the content that is kept is a part of all content in
  order, all of it has copies only if there is no other.
-/
theorem sublist_map_iff
    {inside content : List NodeId}
    (hNodup : content.Nodup)
    (hInside : inside.Sublist content)
    {f : NodeId → Option NodeData} :
    (content.map f).Sublist (inside.map f) ↔
      ∀ x ∈ content, x ∈ inside := by
  constructor
  · intro hSublist x hMember
    have hLength := hSublist.length_le
    rw [List.length_map, List.length_map] at hLength
    rw [hInside.eq_of_length_le hLength]
    exact hMember
  · intro hSubset
    have hLength :=
      List.Nodup.length_le_of_subset hNodup hSubset
    rw [hInside.eq_of_length_le hLength]

end Dom.Tree

namespace Session

------------------------------------------------------------
-- Runs
------------------------------------------------------------

/-
  Of the content of a page some is inside its body.  That is
  what has copies below the node, in order, and no other node
  there is new.  So all content is conveyed if and only if all
  of it is inside the body.
-/
structure Saves
    (page : Tree)
    (all inside : List NodeId)
    (t t' : Tree)
    (under : List NodeId) : Prop where
  part : inside.Sublist (page.content all)
  members :
    ∀ x ∈ page.content all, x ∈ inside ↔ page.InBody all x
  copied :
    (t.added under).map t'.dataAt? = inside.map page.dataAt?
  whole :
    page.Conveyed all t t' under ↔
      ∀ x ∈ page.content all, page.InBody all x

theorem conveyed_iff
    {s : Session}
    {earlier : List Session}
    (hHistory : History Permits (s :: earlier))
    {node : NodeId}
    (hLive : s.page.tree.contains node = true)
    {html : String}
    {page : Tree}
    (hPage : Tree.ofPage html = .ok page) :
    ∃ all inside tree ids under,
      page.descendants 0 = .ok all ∧
        s.step (.page (.appendPage node html)) =
          .ok (s.withTree tree, .nodes ids, s.complained html) ∧
        tree.descendants node = .ok under ∧
        Saves page all inside s.page.tree tree under := by
  have hLinked := hHistory.linked_last
  have hPageLinked : page.Linked :=
    Tree.linked_empty.addPage hPage
  rcases Tree.exists_descendants hPageLinked 0 with
    ⟨all, hAll⟩
  have hNodup : (page.content all).Nodup :=
    (Tree.nodup_of_descendants hPageLinked hAll).filter _
  have hWhole
      {inside under : List NodeId}
      {tree : Tree}
      (hPart : inside.Sublist (page.content all))
      (hInside :
        ∀ x ∈ page.content all,
          x ∈ inside ↔ page.InBody all x)
      (hCopied :
        (s.page.tree.added under).map tree.dataAt? =
          inside.map page.dataAt?) :
      Saves page all inside s.page.tree tree under := by
    refine ⟨hPart, hInside, hCopied, ?_⟩
    rw [Tree.Conveyed, hCopied,
      Tree.sublist_map_iff hNodup hPart]
    exact
      forall₂_congr fun x hMember => hInside x hMember
  rcases Tree.exists_appendPage hPage hAll hLinked hLive with
    ⟨hNone, hRun⟩ | ⟨body, below, tree, hBody, hBelow, hRun, hCopied⟩
  · rcases Tree.exists_descendants hLinked node with
      ⟨under, hUnder⟩
    refine
      ⟨all, [], s.page.tree, [], under, hAll, step_appendPage hRun,
        hUnder, hWhole (List.nil_sublist _) ?_ ?_⟩
    · intro x _
      simp [Tree.InBody, hNone]
    · rw [Tree.added_eq_nil hUnder]
      rfl
  · have hTop : page.contains body = true :=
      Tree.contains_of_mem_descendants hAll
        (List.mem_of_find?_eq_some hBody)
    rcases
      Tree.exists_descendants
        (hLinked.appendPage hLive hRun) node with
      ⟨under, hUnder⟩
    refine
      ⟨all, below, tree, _, under, hAll, step_appendPage hRun, hUnder,
        hWhole
          (Tree.sublist_content hPageLinked hAll hBody hBelow) ?_
          (hCopied.map_added hBelow hLinked hLive hUnder)⟩
    intro x _
    rw [Tree.mem_descendants_iff hPageLinked hTop hBelow]
    simp [Tree.InBody, hBody]

/- What is written without more than that is all conveyed. -/
theorem conveyed_of_bold :
    ∃ s earlier page all tree ids under,
      History Permits (s :: earlier) ∧
        Tree.ofPage "<b>a</b>c" = .ok page ∧
        page.descendants 0 = .ok all ∧
        page.content all = [4, 5, 6] ∧
        s.step (.page (.appendPage 0 "<b>a</b>c")) =
          .ok
            (s.withTree tree, .nodes ids,
              [.log .debug none
                "HTML parse error: Unexpected token"]) ∧
        tree.descendants 0 = .ok under ∧
        page.Conveyed all s.page.tree tree under := by
  let page : Tree :=
    ⟨#[some (rootNode [1]), htmlNode 1 "html" (some 0) [2, 3],
        htmlNode 2 "head" (some 1) [],
        htmlNode 3 "body" (some 1) [4, 6],
        htmlNode 4 "b" (some 3) [5],
        some { id := 5, parent := some 4, data := .text "a" },
        some { id := 6, parent := some 3, data := .text "c" }],
      []⟩
  have hPage : Tree.ofPage "<b>a</b>c" = .ok page := by
    cbv
  have hStart : History Permits [start Document.empty {}] :=
    .start {}
  have hLive : Tree.empty.contains 0 = true := rfl
  rcases conveyed_iff hStart hLive hPage with
    ⟨all, inside, tree, ids, under, hAll, hStep, hUnder, hSaves⟩
  have hContent : page.content all = [4, 5, 6] := by
    cases hAll
    decide
  have hBody : all.find? (page.selects "body") = some 3 := by
    cases hAll
    cbv
  have hUp :
      ∀ x ∈ [4, 5, 6], x ≠ 3 ∧ page.Within x 3 := by
    have hFour : page.Within 4 3 :=
      Tree.within_of_parent? rfl (page.within_self 3)
    have hFive : page.Within 5 3 :=
      Tree.within_of_parent? rfl hFour
    have hSix : page.Within 6 3 :=
      Tree.within_of_parent? rfl (page.within_self 3)
    simp [hFour, hFive, hSix]
  refine
    ⟨_, _, page, all, tree, ids, under, hStart, hPage, hAll,
      hContent, hStep, hUnder, hSaves.whole.mpr ?_⟩
  intro x hMember
  rw [hContent] at hMember
  exact ⟨3, hBody, hUp x hMember⟩

/-
  A comment that stands before all elements of a page is
  content of it, but has no copy.
-/
theorem comment_not_conveyed :
    ∃ s earlier page all tree under,
      History Permits (s :: earlier) ∧
        Tree.ofPage "<!--x--><p>a</p>" = .ok page ∧
        page.descendants 0 = .ok all ∧
        page.content all = [1, 5, 6] ∧
        page.dataAt? 1 = some .comment ∧
        s.step (.page (.appendPage 0 "<!--x--><p>a</p>")) =
          .ok
            (s.withTree tree, .nodes [1],
              [.log .debug none
                "HTML parse error: Unexpected token"]) ∧
        tree.descendants 0 = .ok under ∧
        (s.page.tree.added under).map tree.dataAt? =
          [some (.element ⟨.html "p", []⟩), some (.text "a")] ∧
        ¬ page.Conveyed all s.page.tree tree under := by
  let page : Tree :=
    ⟨#[some (rootNode [1, 2]),
        some { id := 1, parent := some 0, data := .comment },
        htmlNode 2 "html" (some 0) [3, 4],
        htmlNode 3 "head" (some 2) [],
        htmlNode 4 "body" (some 2) [5],
        htmlNode 5 "p" (some 4) [6],
        some { id := 6, parent := some 5, data := .text "a" }],
      []⟩
  let tree : Tree :=
    ⟨#[some (rootNode [1]), htmlNode 1 "p" (some 0) [2],
        some { id := 2, parent := some 1, data := .text "a" }],
      []⟩
  have hStart : History Permits [start Document.empty {}] :=
    .start {}
  have hPage : Tree.ofPage "<!--x--><p>a</p>" = .ok page := by
    cbv
  have hRun :
      Tree.empty.appendPage 0 "<!--x--><p>a</p>" =
        .ok (tree, [1]) := by
    cbv
  refine
    ⟨_, _, page, _, tree, _, hStart, hPage, rfl, by decide, rfl,
      step_appendPage hRun, rfl, by decide, ?_⟩
  intro hConveyed
  exact absurd hConveyed.length_le (by decide)

end Session

end MarkupMetrics
