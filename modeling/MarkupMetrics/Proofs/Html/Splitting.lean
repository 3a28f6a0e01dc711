import MarkupMetrics.Proofs.Html.Steps

/-
  This file proves that overlapping formatting can always be
  split.

  The open elements that are split stay nested: each copy goes
  in between two of them, and what is put elsewhere goes below
  an element that is not among those inside.  No table is
  inside, as the search for the formatting element ends there.

  Key definitions include:
    * `Split.kept`
    * `Split.Stands`

  Key theorems include:
    * `Tracks.wrapped`
    * `exists_copyBetween`
    * `exists_splitAround`
    * `proceeds_splitFormatting`
-/

namespace MarkupMetrics

namespace Html

open Dom Dom.Tree MarkupMetrics.Outcome

variable {t : Tree}
variable {reason : Prop}
variable {n : Nat}
variable {b : Builder}
variable {a : Assembly}

------------------------------------------------------------
-- A new wrapping
------------------------------------------------------------

/- A node that stands nowhere takes over all children. -/
theorem Tracks.handedOver
    {front back : List Handle}
    {heir node : Handle}
    (hTracks : Tracks t (front ++ heir :: node :: back) b a)
    (hRoot : a.tree.parent? (a.node heir) = none) :
    ∃ a',
      Tracks t (front ++ heir :: node :: back)
          { b with calls := .moveChildren node heir :: b.calls }
          a' ∧
        a'.tree.parent? (a'.node heir) = none := by
  have hLinked := hTracks.sound.linked
  have hHeir := hTracks.known heir (by simp)
  have hNode := hTracks.known node (by simp)
  have hNested := hTracks.nested
  rw [List.map_append, List.map_cons, List.map_cons] at hNested
  have hOther : a.node heir ≠ a.node node := by
    intro hSame
    have hBehind := (List.pairwise_append.mp hNested).2.1
    exact
      (List.pairwise_cons.mp hBehind).1 _ List.mem_cons_self
        (hSame ▸ a.tree.within_self _)
  have hApart :
      ¬ a.tree.Within (a.node heir) (a.node node) :=
    fun hWithin => hOther (eq_of_within_root hRoot hWithin)
  -- the heir is no child of any node
  have hChild :
      ∀ p, a.node heir ∉ a.tree.childrenOf p := by
    intro p hMember
    have hParent := (hLinked.listed _ p).mp hMember
    rw [hRoot] at hParent
    cases hParent
  have hMovable :
      a.tree.Movable (a.node heir)
        (a.tree.childrenOf (a.node node)) := by
    intro c hMember
    refine ⟨hLinked.contains_child hMember, fun hWithin => ?_⟩
    rw [← eq_of_within_root hRoot hWithin] at hMember
    exact hChild _ hMember
  rcases
    exists_reparent hLinked (hTracks.live hNode)
      (hTracks.live hHeir) hOther hMovable with
    ⟨t', hRun, hSpliced⟩
  refine
    ⟨{ a with tree := t' },
      hTracks.sent ⟨hNode, hHeir⟩ ?_ ?_ hTracks.known ?_, ?_⟩
  · have hTest := isWithin_eq_false hLinked hApart
    simp only [TreeCall.map, admits, hTest, Bool.not_false,
      Bool.or_true]
  · rw [TreeCall.map, TreeCall.run, hRun]
    rfl
  · rw [List.map_append, List.map_cons, List.map_cons]
    refine hNested.handOver hLinked hRoot ?_ hSpliced.parent
    intro hInner
    exact
      hNested.apart hInner List.mem_cons_self
        (a.tree.within_self _)
  · exact
      (hSpliced.parent _).trans
        ((if_neg (hChild _)).trans hRoot)

/-
  A new node takes over all children of another one, and
  becomes its only child.
-/
theorem Tracks.wrapped
    {front back : List Handle}
    {node : Handle}
    (hTracks : Tracks t (front ++ node :: back) b a)
    (name : QualName)
    (attrs : List Attribute) :
    ∃ a',
      Tracks t (front ++ (b.made + 1) :: node :: back)
        { b with
          made := b.made + 1
          calls :=
            .append node (.node (b.made + 1)) ::
              .moveChildren node (b.made + 1) ::
                .createElement name attrs :: b.calls } a' := by
  rcases
    hTracks.made_between
      (show TreeCall.data? (.createElement name attrs) = _ from
        rfl) with
    ⟨u, hMade, hRoot⟩
  rcases hMade.handedOver hRoot with ⟨v, hOver, hStill⟩
  rw [List.append_cons] at hOver ⊢
  have hPlace :
      (Place.endOf node).All (· ∈ node :: back) :=
    List.mem_cons_self
  exact hOver.moved (by simp) hStill hPlace

/- A new node comes around an inner one. -/
theorem Tracks.copied
    {front back : List Handle}
    {inner : Handle}
    (hTracks : Tracks t (front ++ back) b a)
    (hInner : inner ∈ front)
    (name : QualName)
    (attrs : List Attribute) :
    ∃ a',
      Tracks t (front ++ (b.made + 1) :: back)
        { b with
          made := b.made + 1
          calls :=
            .append (b.made + 1) (.node inner) ::
              .unlink inner ::
                .createElement name attrs :: b.calls } a' := by
  rcases
    hTracks.made_between
      (show TreeCall.data? (.createElement name attrs) = _ from
        rfl) with
    ⟨u, hMade, _⟩
  have hPlace :
      (Place.endOf (b.made + 1)).All
        (· ∈ (b.made + 1) :: back) :=
    List.mem_cons_self
  exact hMade.transferred hInner hPlace

------------------------------------------------------------
-- Copies
------------------------------------------------------------

/- The copies made so far, the inner ones first. -/
def Split.kept
    (s : Split) : List Handle :=
  s.copies.reverse.map (·.handle)

/-
  A split stands between inner and outer elements: the copies
  are nested between them, and the node to go into the next
  copy is not among the outer ones.
-/
structure Split.Stands
    (t : Tree)
    (front back : List Handle)
    (s : Split)
    (b : Builder) : Prop where
  tracked : ∃ a, Tracks t ((front ++ s.kept) ++ back) b a
  inner : s.inner ∈ front ++ s.kept
  passed : ∀ e ∈ s.copies, PassedBy e.name

namespace Split.Stands

variable {front back : List Handle}
variable {s : Split}

theorem sheds
    {b' : Builder}
    (hStands : s.Stands t front back b)
    (hSheds : b.Sheds b') :
    s.Stands t front back b' := by
  rcases hStands.tracked with ⟨a, hTracks⟩
  exact
    ⟨⟨a, hTracks.sheds hSheds (List.Sublist.refl _)⟩,
      hStands.inner, hStands.passed⟩

/- One more copy comes around the others. -/
theorem copied
    {tag : Tag}
    (hStands : s.Stands t front back b)
    (hTag : PassedBy (.html tag.name))
    (bookmark : Option Handle) :
    Split.Stands t front back
      { copies := ⟨b.made + 1, .html tag.name⟩ :: s.copies
        inner := b.made + 1
        bookmark }
      { b with
        made := b.made + 1
        calls :=
          .append (b.made + 1) (.node s.inner) ::
            .unlink s.inner ::
              .createElement (.html tag.name) (plainAttrs tag) ::
                b.calls } := by
  have hKept :
      Split.kept
          { copies := ⟨b.made + 1, .html tag.name⟩ :: s.copies
            inner := b.made + 1
            bookmark } =
        s.kept ++ [b.made + 1] := by
    simp [Split.kept]
  rcases hStands.tracked with ⟨a, hTracks⟩
  rcases
    hTracks.copied hStands.inner (.html tag.name)
      (plainAttrs tag) with
    ⟨a', hTracks'⟩
  refine ⟨⟨a', ?_⟩, ?_, ?_⟩
  · rw [hKept, ← List.append_assoc, ← List.append_cons]
    exact hTracks'
  · rw [hKept]
    simp
  · intro e hMember
    rcases List.mem_cons.mp hMember with rfl | hOld
    · exact hTag
    · exact hStands.passed e hOld

end Split.Stands

/- Copies can be made of all elements in between. -/
theorem exists_copyBetween
    {front back : List Handle}
    (furthest : Handle)
    (between : List OpenElement)
    (seen : Nat)
    {s : Split}
    {b : Builder}
    (hStands : s.Stands t front back b) :
    ∃ s' b',
      copyBetween furthest seen between s b = .ok (s', b') ∧
        b.made ≤ b'.made ∧ s'.Stands t front back b' := by
  induction between generalizing seen s b with
  | nil => exact ⟨s, b, rfl, Nat.le_refl _, hStands⟩
  | cons e rest ih =>
      rcases hStands.tracked with ⟨a, hTracks⟩
      cases hTag : b.formatTag? e.handle with
      | none =>
          simp only [copyBetween, get_bind, hTag]
          exact ih (seen + 1) hStands
      | some tag =>
          simp only [copyBetween, get_bind, hTag]
          have hPassed :=
            passedBy_of_formatTag? hTracks.formatting hTag
          by_cases hMany : seen ≥ 3
          · rw [if_pos hMany]
            exact
              ih (seen + 1)
                (hStands.sheds (sheds_dropFormat b e.handle))
          · rw [if_neg hMany]
            rcases
              ih (seen + 1)
                ((hStands.copied hPassed _).sheds
                  (sheds_replaceFormat _ e.handle
                    (show
                      (FormatEntry.element (b.made + 1)
                        tag).Plain from hPassed))) with
              ⟨s', b', hRun, hMade, hDone⟩
            exact
              ⟨s', b', hRun,
                Nat.le_trans (Nat.le_succ _) hMade, hDone⟩

------------------------------------------------------------
-- Around the furthest block
------------------------------------------------------------

/- The search for a place passes by some inner elements. -/
theorem fosterPlace_append
    {inner outer : List OpenElement}
    (hInner : ∀ e ∈ inner, PassedBy e.name)
    (hOuter : outer ≠ []) :
    fosterPlace (inner ++ outer) = fosterPlace outer := by
  induction inner with
  | nil => rfl
  | cons e inner ih =>
      have hRest :=
        ih fun x hMember => hInner x (List.mem_cons_of_mem e hMember)
      rcases hInner e List.mem_cons_self with
        ⟨hTemplate, hTable⟩
      rcases
        List.exists_cons_of_ne_nil
          (List.append_ne_nil_of_right_ne_nil inner hOuter) with
        ⟨around, rest, hCons⟩
      rw [← hRest, List.cons_append, hCons, fosterPlace, if_neg,
        if_neg]
      · simp [hTable]
      · simp [hTemplate]

/- Where the outermost copy goes. -/
def splitPlace
    (b : Builder) : List OpenElement → Place
  | around :: _ => b.placeIn around
  | [] => .endOf documentHandle

/- That place is told by elements around the inner ones. -/
theorem splitPlace_all
    {inner below : List OpenElement}
    {format : OpenElement}
    (hStack : b.stack = inner ++ format :: below)
    (hInner : ∀ e ∈ inner, PassedBy e.name) :
    (splitPlace b below).All
      (· ∈ (format :: below).map (·.handle) ++
        [documentHandle]) := by
  have hFoster :
      (fosterPlace b.stack).All
        (· ∈ (format :: below).map (·.handle) ++
          [documentHandle]) := by
    rw [hStack,
      fosterPlace_append hInner (List.cons_ne_nil format below)]
    exact
      fosterPlace_all (by simp) fun e hMember =>
        List.mem_append_left _ (List.mem_map_of_mem hMember)
  cases below with
  | nil => simp [splitPlace, Place.All]
  | cons around rest =>
      rw [splitPlace, Builder.placeIn]
      by_cases hTest :
          (b.fostering &&
            isHtmlAmong tableParts around.name) = true
      · rw [if_pos hTest]
        exact hFoster
      · rw [if_neg hTest]
        simp [Place.All]

/- Elements can be split around the furthest block. -/
theorem exists_splitAround
    {above below : List OpenElement}
    {furthest format : OpenElement}
    {tag : Tag}
    (between : List OpenElement)
    (hTracks :
      Tracks t
        ((above ++ [furthest]).map (·.handle) ++
          ((format :: below).map (·.handle) ++
            [documentHandle])) b a)
    (hTag : PassedBy (.html tag.name))
    (hPassed : ∀ e ∈ above ++ [furthest], PassedBy e.name) :
    ∃ b' a',
      splitAround above furthest between format tag below b =
          .ok ((), b') ∧
        b.made ≤ b'.made ∧ Tracks t b'.nest b' a' := by
  have hStart :
      Split.Stands t ((above ++ [furthest]).map (·.handle))
        ((format :: below).map (·.handle) ++ [documentHandle])
        { inner := furthest.handle } b :=
    ⟨⟨a, by simpa [Split.kept] using hTracks⟩,
      by simp, fun _ hMember => nomatch hMember⟩
  rcases exists_copyBetween furthest.handle between 0 hStart with
    ⟨s, u, hRun, hMade, ⟨c, hCopied⟩, hInner, hCopies⟩
  have hAll :
      ∀ e ∈ above ++ furthest :: s.copies.reverse,
        PassedBy e.name := by
    intro e hMember
    rw [List.append_cons, List.mem_append,
      List.mem_reverse] at hMember
    exact hMember.elim (hPassed e) (hCopies e)
  have hStacked :=
    hCopied.restack
      (above ++ furthest :: s.copies.reverse ++
        format :: below) (by simp [Split.kept])
  have hPlace :=
    splitPlace_all (b :=
      { u with
        stack :=
          above ++ furthest :: s.copies.reverse ++
            format :: below
        calls := .unlink s.inner :: u.calls }) rfl hAll
  rcases hStacked.transferred hInner hPlace with ⟨d, hPut⟩
  rw [List.map_append, List.append_assoc, List.append_assoc]
    at hPut
  rcases hPut.wrapped (.html tag.name) (plainAttrs tag) with
    ⟨e, hWrapped⟩
  rcases
    exists_moveFormat _ format.handle s.bookmark
      (show
        (FormatEntry.element (u.made + 1) tag).Plain from hTag)
    with ⟨w, hMove, hSheds⟩
  -- the formatting element is closed at last
  have hFewer :
      ((above ++ ⟨u.made + 1, .html tag.name⟩ ::
            furthest :: s.copies.reverse ++ below).map
          (·.handle) ++ [documentHandle]).Sublist
        (above.map (·.handle) ++ (u.made + 1) ::
          furthest.handle :: (s.kept ++
            ((format :: below).map (·.handle) ++
              [documentHandle]))) := by
    simp [Split.kept]
  have hLeft :=
    (hWrapped.sheds hSheds (List.Sublist.refl _)).restack _
      ((List.sublist_append_left _ _).trans hFewer)
  refine ⟨_, e, ?_, ?_, hLeft.fewer hFewer⟩
  · rw [splitAround, bind_of_ok hRun]
    simp only [insertAt_eq, get_bind, modify_bind, emit_bind,
      make_bind]
    cases below <;> exact bind_of_ok hMove
  · exact
      Nat.le_trans hMade
        (hSheds.made ▸ Nat.le_succ u.made)

------------------------------------------------------------
-- Splits
------------------------------------------------------------

/- What a search went past comes before what it found. -/
theorem eq_append_of_drop
    {α : Type}
    {p : α → Bool}
    {items rest : List α}
    (hRest : items.drop (items.takeWhile p).length = rest) :
    items = items.takeWhile p ++ rest := by
  rcases List.takeWhile_prefix p (l := items) with
    ⟨others, hSplit⟩
  have hDrop :=
    congrArg (List.drop (items.takeWhile p).length) hSplit
  rw [List.drop_left, hRest] at hDrop
  rw [← hDrop, hSplit]

/- Elements within the scope are passed by. -/
theorem passedBy_of_not_endsScope
    {m : QualName}
    (hInside : endsScope m = false) :
    PassedBy m := by
  rw [endsScope, Bool.or_eq_false_iff,
    Bool.or_eq_false_iff] at hInside
  have hEach :
      ∀ name ∈ scopeNames, isHtml name m = false := by
    intro name hMember
    rw [Bool.eq_false_iff]
    intro hTest
    rw [isHtml, Bool.and_eq_true, beq_iff_eq (a := m.local_)]
      at hTest
    rcases hTest with ⟨hSpace, rfl⟩
    have hAmong := hInside.1.1
    rw [isHtmlAmong, hSpace, List.contains_iff_mem.mpr hMember]
      at hAmong
    cases hAmong
  exact ⟨hEach _ (by decide), hEach _ (by decide)⟩

/- What a search in the scope went past is within the scope. -/
theorem inside_of_reaches
    {stop : QualName → Bool}
    {goal : OpenElement → Bool}
    {stack : List OpenElement}
    (hReaches : Builder.reaches stop goal stack = true) :
    ∀ e ∈ stack.takeWhile (fun e => !goal e),
      stop e.name = false := by
  induction stack with
  | nil => exact fun _ hMember => nomatch hMember
  | cons e rest ih =>
      intro x hMember
      rw [Builder.reaches, Bool.or_eq_true,
        Bool.and_eq_true] at hReaches
      rw [List.takeWhile_cons] at hMember
      by_cases hGoal : goal e = true
      · simp [hGoal] at hMember
      · rcases hReaches with hFound | ⟨hStop, hRest⟩
        · exact (hGoal hFound).elim
        · simp only [hGoal, Bool.not_false, if_true,
            List.mem_cons] at hMember
          rcases hMember with rfl | hLater
          · simpa using hStop
          · exact ih hRest x hLater

theorem proceeds_closeNamed
    (name : String) :
    Proceeds t reason n (closeNamed name) := by
  refine Safe.get fun b => ?_
  cases findNamed? name b.stack with
  | none => exact Safe.done ()
  | some e =>
      exact
        proceeds_modify fun _ =>
          Builder.sheds_stack
            ((List.drop_sublist 1 _).trans
              (List.dropWhile_sublist _))

/- A formatting element that is found is closed or split. -/
theorem ends_splitFound
    {format : OpenElement}
    {inside below : List OpenElement}
    {handle : Handle}
    {tag : Tag}
    {next : Build Unit}
    (hTracks : Tracks t b.nest b a)
    (hStack : b.stack = inside ++ format :: below)
    (hInside : ∀ e ∈ inside, PassedBy e.name)
    (hTag : PassedBy (.html tag.name))
    (hNext : Proceeds t reason b.made next) :
    Ends reason
      (fun r =>
        True ∧ b.made ≤ r.2.made ∧
          ∃ a', Tracks t r.2.nest r.2 a')
      ((match
          inside.reverse.drop
            (inside.reverse.takeWhile fun e =>
              !isSpecial e.name).length with
        | [] => do
            modify fun b => { b with stack := below }
            dropFormat handle
        | furthest :: above => do
            splitAround above.reverse furthest
              (inside.reverse.takeWhile fun e =>
                !isSpecial e.name).reverse format tag below
            next :
        Build Unit) b) := by
  cases hDrop :
    inside.reverse.drop
      (inside.reverse.takeWhile fun e =>
        !isSpecial e.name).length with
  | nil =>
      have hFewer : below.Sublist b.stack := by
        rw [hStack]
        exact
          (List.sublist_cons_self format below).trans
            (List.sublist_append_right inside _)
      exact
        proceeds_dropFormat handle { b with stack := below } a
          (Nat.le_refl _)
          (hTracks.sheds (Builder.sheds_stack hFewer)
            ((hFewer.map _).append_right _))
  | cons furthest above =>
      have hReverse := eq_append_of_drop hDrop
      generalize
        (inside.reverse.takeWhile fun e =>
          !isSpecial e.name) = between at hReverse ⊢
      have hSplit :
          inside =
            (above.reverse ++ [furthest]) ++ between.reverse := by
        rw [← List.reverse_reverse inside, hReverse]
        simp
      have hFewer :
          ((above.reverse ++ [furthest]).map (·.handle) ++
              ((format :: below).map (·.handle) ++
                [documentHandle])).Sublist b.nest := by
        rw [Builder.nest, hStack, hSplit]
        simp
      rcases
        exists_splitAround between.reverse (hTracks.fewer hFewer)
          hTag fun e hMember => hInside e (by
            rw [hSplit]
            exact List.mem_append_left _ hMember) with
        ⟨b', a', hRun, hMade, hTracks'⟩
      dsimp only
      rw [bind_of_ok hRun]
      refine (hNext b' a' hMade hTracks').imp id ?_
      rintro r ⟨_, hMore, hRest⟩
      exact ⟨trivial, Nat.le_trans hMade hMore, hRest⟩

theorem proceeds_splitWith
    (name : String)
    (fuel : Nat) :
    Proceeds t reason n (splitWith name fuel) := by
  induction fuel generalizing n with
  | zero => exact Safe.done ()
  | succ fuel ih =>
      intro b a hMade hTracks
      rw [splitWith, get_bind]
      cases hNamed : b.recentNamed? name with
      | none => exact proceeds_closeNamed name b a hMade hTracks
      | some found =>
          rcases found with ⟨handle, tag⟩
          cases hDrop :
            b.stack.drop
              (b.stack.takeWhile fun e =>
                !(e.handle == handle)).length with
          | nil =>
              simp only [hDrop]
              exact
                proceeds_dropFormat handle b a hMade hTracks
          | cons format below =>
              simp only [hDrop]
              by_cases hScope :
                  Builder.reaches endsScope
                    (fun e => e.handle == handle) b.stack = true
              · rw [if_neg (by simp [hScope])]
                exact
                  ends_splitFound hTracks
                    (eq_append_of_drop hDrop)
                    (fun e hMember =>
                      passedBy_of_not_endsScope
                        (inside_of_reaches hScope e hMember))
                    (passedBy_of_recentNamed? hTracks.formatting
                      hNamed)
                    ih
              · rw [if_pos (by simp [hScope])]
                exact Safe.done () b a hMade hTracks

theorem proceeds_splitFormatting
    (name : String) :
    Proceeds t reason n (splitFormatting name) := by
  refine Safe.get fun b => ?_
  cases b.current? with
  | none => exact proceeds_splitWith name 8
  | some e =>
      exact
        Safe.ite (fun _ => proceeds_pop)
          (fun _ => proceeds_splitWith name 8)

theorem proceeds_closeOpenLink :
    Proceeds t reason n closeOpenLink := by
  refine Safe.get fun b => ?_
  cases b.recentNamed? "a" with
  | none => exact Safe.done ()
  | some found =>
      exact
        (proceeds_splitFormatting "a").andThen
          ((proceeds_dropFormat found.1).andThen
            (proceeds_close found.1))

end Html

end MarkupMetrics
