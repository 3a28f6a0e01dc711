import MarkupMetrics.Proofs.Html.Declarations

/-
  This file proves that the steps from which the rules of tree
  construction are made can always be taken.

  A step closes elements and notes things, or it makes a node
  and puts it into a place that open elements tell.

  Key definitions include:
    * `Builder.Sheds`
    * `Builder.lasting`
    * `Outcome.Harmless`

  Key theorems include:
    * `Tracks.sheds`
    * `Builder.place_all`
    * `adds_insertElement`
    * `proceeds_appendText`
    * `proceeds_reopenFormatting`
-/

namespace MarkupMetrics

namespace Html

open Dom MarkupMetrics.Outcome

variable {α : Type}
variable {t : Tree}
variable {reason : Prop}
variable {n : Nat}

------------------------------------------------------------
-- Closing and noting
------------------------------------------------------------

/- Elements are closed at most, and no call is added. -/
structure Builder.Sheds
    (b b' : Builder) : Prop where
  calls : b'.calls = b.calls
  made : b'.made = b.made
  head : b'.head = b.head
  stack : b'.stack.Sublist b.stack
  formatting :
    (∀ entry ∈ b.formatting, entry.Plain) →
      ∀ entry ∈ b'.formatting, entry.Plain

theorem Builder.sheds_stack
    {b : Builder}
    {rest : List OpenElement}
    (hFewer : rest.Sublist b.stack) :
    b.Sheds { b with stack := rest } :=
  ⟨rfl, rfl, rfl, hFewer, id⟩

theorem Builder.sheds_formatting
    {b : Builder}
    {entries : List FormatEntry}
    (hPlain :
      (∀ entry ∈ b.formatting, entry.Plain) →
        ∀ entry ∈ entries, entry.Plain) :
    b.Sheds { b with formatting := entries } :=
  ⟨rfl, rfl, rfl, List.Sublist.refl _, hPlain⟩

/- The same assembly tracks what is left. -/
theorem Tracks.sheds
    {nest nest' : List Handle}
    {b b' : Builder}
    {a : Assembly}
    (hTracks : Tracks t nest b a)
    (hSheds : b.Sheds b')
    (hNest : nest'.Sublist nest) :
    Tracks t nest' b' a where
  built := hSheds.calls ▸ hTracks.built
  count := hTracks.count.trans hSheds.made.symm
  sound := hTracks.sound
  stack e hMember :=
    hSheds.made ▸ hTracks.stack e (hSheds.stack.subset hMember)
  head h hHead :=
    hSheds.made ▸ hTracks.head h (hSheds.head ▸ hHead)
  known h hMember :=
    hSheds.made ▸ hTracks.known h (hNest.subset hMember)
  nested := hTracks.nested.sublist (hNest.map a.node)
  formatting := hSheds.formatting hTracks.formatting

theorem proceeds_modify
    {f : Builder → Builder}
    (hSheds : ∀ b : Builder, b.Sheds (f b)) :
    Proceeds t reason n (modify f) :=
  fun b a _ hTracks =>
    Ends.ok
      ⟨trivial, Nat.le_of_eq (hSheds b).made.symm, a,
        hTracks.sheds (hSheds b)
          (((hSheds b).stack.map _).append_right _)⟩

theorem adds_modify
    {f : Builder → Builder}
    (hSheds : ∀ b : Builder, b.Sheds (f b))
    (hStack : ∀ b : Builder, (f b).stack = b.stack) :
    Adds t reason (fun _ => True) (modify f) :=
  fun nest b a hTracks =>
    Ends.ok
      ⟨trivial, Nat.le_of_eq (hSheds b).made.symm, [], a,
        hStack b, fun _ hMember => (nomatch hMember),
        hTracks.sheds (hSheds b) (List.Sublist.refl nest)⟩

/- What a note leaves as it is. -/
def Builder.lasting
    (b : Builder) : Builder :=
  { calls := b.calls
    made := b.made
    head := b.head
    stack := b.stack
    formatting := b.formatting }

theorem Builder.sheds_of_lasting
    {b b' : Builder}
    (hNotes : b'.lasting = b.lasting) :
    b.Sheds b' := by
  have hStack : b'.stack = b.stack := by injection hNotes
  have hFormatting : b'.formatting = b.formatting := by
    injection hNotes
  refine ⟨?_, ?_, ?_, ?_, ?_⟩
  · injection hNotes
  · injection hNotes
  · injection hNotes
  · rw [hStack]
  · rw [hFormatting]
    exact id

theorem adds_note
    {f : Builder → Builder}
    (hNotes : ∀ b : Builder, (f b).lasting = b.lasting) :
    Adds t reason (fun _ => True) (modify f) :=
  adds_modify (fun b => Builder.sheds_of_lasting (hNotes b))
    fun b => by injection hNotes b

theorem proceeds_note
    {f : Builder → Builder}
    (hNotes : ∀ b : Builder, (f b).lasting = b.lasting) :
    Proceeds t reason n (modify f) :=
  (adds_note hNotes).safe

/- Something may be noted first. -/
theorem Safe.note
    {P : α → Prop}
    {f : Builder → Builder}
    {x : Build α}
    (hNotes : ∀ b : Builder, (f b).lasting = b.lasting)
    (hNext : Safe t reason n P x) :
    Safe t reason n P (modify f >>= fun _ => x) :=
  (proceeds_note hNotes).andThen hNext

theorem proceeds_pop :
    Proceeds t reason n pop :=
  proceeds_modify fun b =>
    Builder.sheds_stack (List.drop_sublist 1 b.stack)

theorem proceeds_popWhile
    (p : QualName → Bool) :
    Proceeds t reason n (popWhile p) :=
  proceeds_modify fun _ =>
    Builder.sheds_stack (List.dropWhile_sublist _)

theorem proceeds_popUntil
    (p : QualName → Bool) :
    Proceeds t reason n (popUntil p) :=
  proceeds_modify fun _ =>
    Builder.sheds_stack
      ((List.drop_sublist 1 _).trans (List.dropWhile_sublist _))

theorem proceeds_close
    (handle : Handle) :
    Proceeds t reason n (close handle) :=
  proceeds_modify fun _ =>
    Builder.sheds_stack List.eraseP_sublist

theorem proceeds_closeParagraph :
    Proceeds t reason n closeParagraph :=
  (proceeds_popWhile _).andThen (proceeds_popUntil _)

theorem proceeds_closeParagraphInScope :
    Proceeds t reason n closeParagraphInScope :=
  Safe.get fun _ => Safe.when proceeds_closeParagraph

theorem adds_setMode
    (mode : Mode) :
    Adds t reason (fun _ => True) (setMode mode) :=
  adds_note fun _ => rfl

theorem proceeds_resetMode :
    Proceeds t reason n resetMode :=
  proceeds_note fun _ => rfl

theorem adds_forbidFrameset :
    Adds t reason (fun _ => True) forbidFrameset :=
  adds_note fun _ => rfl

------------------------------------------------------------
-- Formatting
------------------------------------------------------------

theorem adds_pushMarker :
    Adds t reason (fun _ => True) pushMarker :=
  adds_modify
    (fun _ =>
      Builder.sheds_formatting fun hPlain entry hMember =>
        (List.mem_cons.mp hMember).elim (· ▸ trivial)
          (hPlain entry))
    (fun _ => rfl)

theorem proceeds_dropToMarker :
    Proceeds t reason n dropToMarker :=
  proceeds_modify fun _ =>
    Builder.sheds_formatting fun hPlain entry hMember =>
      hPlain entry
        ((List.dropWhile_sublist _).subset
          ((List.drop_sublist 1 _).subset hMember))

/- What is left over does not become another formatting. -/
theorem sheds_dropFormat
    (b : Builder)
    (handle : Handle) :
    b.Sheds
      { b with
        formatting := b.formatting.eraseP (·.isOf handle) } :=
  Builder.sheds_formatting fun hPlain entry hMember =>
    hPlain entry (List.mem_of_mem_eraseP hMember)

theorem proceeds_dropFormat
    (handle : Handle) :
    Proceeds t reason n (dropFormat handle) :=
  proceeds_modify fun b => sheds_dropFormat b handle

theorem sheds_replaceFormat
    {entry : FormatEntry}
    (b : Builder)
    (handle : Handle)
    (hEntry : entry.Plain) :
    b.Sheds
      { b with
        formatting :=
          b.formatting.map fun e =>
            if e.isOf handle then entry else e } := by
  refine Builder.sheds_formatting fun hPlain e hMember => ?_
  rcases List.mem_map.mp hMember with ⟨old, hOld, rfl⟩
  by_cases hTest : old.isOf handle = true
  · rw [if_pos hTest]
    exact hEntry
  · rw [if_neg hTest]
    exact hPlain old hOld

theorem sheds_addFormatAfter
    {entry : FormatEntry}
    (b : Builder)
    (handle : Handle)
    (hEntry : entry.Plain) :
    b.Sheds
      { b with
        formatting :=
          b.formatting.flatMap fun e =>
            if e.isOf handle then [entry, e] else [e] } := by
  refine Builder.sheds_formatting fun hPlain e hMember => ?_
  rcases List.mem_flatMap.mp hMember with ⟨old, hOld, hIn⟩
  by_cases hTest : old.isOf handle = true
  · rw [if_pos hTest] at hIn
    rcases List.mem_cons.mp hIn with rfl | hIn
    · exact hEntry
    · exact List.mem_singleton.mp hIn ▸ hPlain old hOld
  · rw [if_neg hTest] at hIn
    exact List.mem_singleton.mp hIn ▸ hPlain old hOld

theorem Builder.Sheds.trans
    {b b' b'' : Builder}
    (hFirst : b.Sheds b')
    (hSecond : b'.Sheds b'') :
    b.Sheds b'' :=
  ⟨hSecond.calls.trans hFirst.calls,
    hSecond.made.trans hFirst.made,
    hSecond.head.trans hFirst.head,
    hSecond.stack.trans hFirst.stack,
    hSecond.formatting ∘ hFirst.formatting⟩

theorem exists_moveFormat
    {entry : FormatEntry}
    (b : Builder)
    (old : Handle)
    (bookmark : Option Handle)
    (hEntry : entry.Plain) :
    ∃ b', moveFormat old bookmark entry b = .ok ((), b') ∧
      b.Sheds b' := by
  cases bookmark with
  | none => exact ⟨_, rfl, sheds_replaceFormat b old hEntry⟩
  | some handle =>
      exact
        ⟨_, rfl,
          (sheds_addFormatAfter b handle hEntry).trans
            (sheds_dropFormat _ old)⟩

/- The tag of an entry is that of its element. -/
theorem passedBy_of_formatTag?
    {b : Builder}
    {handle : Handle}
    {tag : Tag}
    (hPlain : ∀ entry ∈ b.formatting, entry.Plain)
    (hTag : b.formatTag? handle = some tag) :
    PassedBy (.html tag.name) := by
  rcases Option.bind_eq_some_iff.mp hTag with
    ⟨entry, hFind, hOf⟩
  have hEntry := hPlain entry (List.mem_of_find?_eq_some hFind)
  cases entry with
  | marker => cases hOf
  | element h other => exact Option.some.inj hOf ▸ hEntry

theorem passedBy_of_recentNamed?
    {b : Builder}
    {name : String}
    {handle : Handle}
    {tag : Tag}
    (hPlain : ∀ entry ∈ b.formatting, entry.Plain)
    (hNamed : b.recentNamed? name = some (handle, tag)) :
    PassedBy (.html tag.name) := by
  rcases List.exists_of_findSome?_eq_some hNamed with
    ⟨entry, hMember, hOf⟩
  have hEntry :=
    hPlain entry ((List.takeWhile_sublist _).subset hMember)
  cases entry with
  | marker => cases hOf
  | element h other =>
      by_cases hName : other.name = name
      · simp only [if_pos hName, Option.some.injEq,
          Prod.mk.injEq] at hOf
        exact hOf.2 ▸ hEntry
      · simp only [if_neg hName] at hOf
        cases hOf

------------------------------------------------------------
-- Calls
------------------------------------------------------------

/- Attributes can be added to what is known. -/
theorem proceeds_addAttributes
    {h : Handle}
    (hKnown : h ≤ n)
    (attrs : List Attribute) :
    Proceeds t reason n (emit (.addAttributes h attrs)) := by
  intro b a hMade hTracks
  rcases
    hTracks.addAttributes (Nat.le_trans hKnown hMade) attrs with
    ⟨a', hTracks'⟩
  exact Ends.ok ⟨trivial, Nat.le_refl _, a', hTracks'⟩

theorem proceeds_unlink
    {h : Handle}
    (hKnown : h ≤ n) :
    Proceeds t reason n (emit (.unlink h)) :=
  fun _ _ hMade hTracks =>
    Ends.ok
      ⟨trivial, Nat.le_refl _, _,
        hTracks.unlink (Nat.le_trans hKnown hMade)⟩

------------------------------------------------------------
-- Places
------------------------------------------------------------

/- What holds of the open elements holds of their place. -/
theorem fosterPlace_all
    {P : Handle → Prop}
    (hDocument : P documentHandle) :
    ∀ {stack : List OpenElement},
      (∀ e ∈ stack, P e.handle) → (fosterPlace stack).All P
  | [], _ => hDocument
  | [e], hEach => hEach e List.mem_cons_self
  | e :: around :: rest, hEach => by
      have hFirst := hEach e List.mem_cons_self
      have hRest :
          ∀ x ∈ around :: rest, P x.handle := fun x hMember =>
        hEach x (List.mem_cons_of_mem e hMember)
      rw [fosterPlace]
      by_cases hTemplate : isHtml "template" e.name = true
      · rw [if_pos hTemplate]
        exact hFirst
      · rw [if_neg hTemplate]
        by_cases hTable : isHtml "table" e.name = true
        · rw [if_pos hTable]
          exact ⟨hFirst, hRest around List.mem_cons_self⟩
        · rw [if_neg hTable]
          exact fosterPlace_all hDocument hRest

theorem Builder.place_all
    {P : Handle → Prop}
    (b : Builder)
    (hDocument : P documentHandle)
    (hEach : ∀ e ∈ b.stack, P e.handle) :
    b.place.All P := by
  rw [place, current?]
  cases hStack : b.stack with
  | nil => exact hDocument
  | cons e rest =>
      rw [List.head?_cons]
      by_cases hTest :
          (b.fostering && isHtmlAmong tableParts e.name) = true
      · simp only [placeIn, if_pos hTest]
        exact fosterPlace_all hDocument hEach
      · simp only [placeIn, if_neg hTest]
        exact hEach e (hStack ▸ List.mem_cons_self)

theorem Tracks.place_known
    {nest : List Handle}
    {b : Builder}
    {a : Assembly}
    (hTracks : Tracks t nest b a) :
    b.place.All (· ≤ b.made) :=
  b.place_all (Nat.zero_le _) hTracks.stack

------------------------------------------------------------
-- New nodes
------------------------------------------------------------

/- An element is made that is none of the open ones yet. -/
theorem exists_placeElement
    {nest : List Handle}
    {b : Builder}
    {a : Assembly}
    (hTracks : Tracks t nest b a)
    (name : QualName)
    (attrs : List Attribute) :
    ∃ b' a',
      placeElement name attrs b =
          .ok (⟨b.made + 1, name⟩, b') ∧
        b'.made = b.made + 1 ∧ b'.stack = b.stack ∧
        Tracks t ((b.made + 1) :: nest) b' a' := by
  rcases
    hTracks.plant
      (show TreeCall.data? (.createElement name attrs) = _ from
        rfl) hTracks.place_known with
    ⟨a', hTracks'⟩
  refine ⟨_, a', ?_, ?_, ?_, hTracks'⟩
  · simp only [placeElement, insertAt_eq]
    rfl
  · rfl
  · rfl

theorem adds_placeElement
    (name : QualName)
    (attrs : List Attribute) :
    Adds t reason (fun _ => True) (placeElement name attrs) := by
  intro nest b a hTracks
  rcases exists_placeElement hTracks name attrs with
    ⟨b', a', hRun, hMade, hStack, hTracks'⟩
  rw [hRun]
  exact
    Ends.ok
      ⟨trivial, Nat.le_of_lt (Nat.lt_of_succ_le hMade.ge), [],
        a', hStack, fun _ hMember => (nomatch hMember),
        hTracks'.fewer (List.sublist_cons_self _ nest)⟩

/- It can be opened then. -/
theorem Tracks.push
    {nest : List Handle}
    {b : Builder}
    {a : Assembly}
    {e : OpenElement}
    (hTracks : Tracks t (e.handle :: nest) b a) :
    Tracks t (e.handle :: nest) { b with stack := e :: b.stack }
      a := by
  refine { hTracks with stack := fun x hMember => ?_ }
  rcases List.mem_cons.mp hMember with rfl | hOld
  · exact hTracks.known _ List.mem_cons_self
  · exact hTracks.stack x hOld

theorem exists_insertElement
    {nest : List Handle}
    {b : Builder}
    {a : Assembly}
    (hTracks : Tracks t nest b a)
    (tag : Tag) :
    ∃ e b' a',
      insertElement tag b = .ok (e, b') ∧
        e.handle = b.made + 1 ∧ b'.made = b.made + 1 ∧
        b'.stack = e :: b.stack ∧
        Tracks t (e.handle :: nest) b' a' := by
  rcases
    exists_placeElement hTracks (.html tag.name)
      (plainAttrs tag) with
    ⟨b', a', hRun, hMade, hStack, hTracks'⟩
  rw [← hStack]
  refine
    ⟨⟨b.made + 1, .html tag.name⟩,
      { b' with
        stack := ⟨b.made + 1, .html tag.name⟩ :: b'.stack },
      a', ?_, rfl, hMade, rfl, Tracks.push hTracks'⟩
  rw [insertElement, bind_of_ok hRun]
  rfl

theorem adds_insertElement
    (tag : Tag) :
    Adds t reason (fun _ => True) (insertElement tag) := by
  intro nest b a hTracks
  rcases exists_insertElement hTracks tag with
    ⟨e, b', a', hRun, hHandle, hMade, hStack, hTracks'⟩
  rw [hRun]
  refine
    Ends.ok
      ⟨trivial, Nat.le_of_lt (Nat.lt_of_succ_le hMade.ge), [e],
        a', hStack, ?_, hTracks'⟩
  intro x hMember
  rw [List.mem_singleton.mp hMember, hHandle]
  exact Nat.lt_succ_self _

theorem adds_openElement
    (tag : Tag) :
    Adds t reason (fun _ => True) (openElement tag) :=
  (adds_insertElement tag).andThen (Adds.pure trivial)

theorem adds_insertVoid
    (tag : Tag) :
    Adds t reason (fun _ => True) (insertVoid tag) :=
  (adds_placeElement _ _).andThen (Adds.pure trivial)

/- A node may be made without being put anywhere. -/
theorem adds_make
    (name : QualName)
    (attrs : List Attribute) :
    Adds t reason (fun _ => True)
      (make (.createElement name attrs)) :=
  fun _ _ _ hTracks =>
    Ends.ok
      ⟨trivial, Nat.le_succ _, [], _, rfl,
        fun _ hMember => (nomatch hMember), hTracks.made rfl⟩

theorem proceeds_appendText
    (text : List Char) :
    Proceeds t reason n (appendText text) := by
  intro b a _ hTracks
  have hRun :
      appendText text b =
        .ok
          ((),
            { b with
              calls :=
                b.place.call (.text (String.ofList text)) ::
                  b.calls }) := by
    simp only [appendText, insertAt_eq]
    rfl
  rw [hRun]
  rcases
    hTracks.write (String.ofList text) hTracks.place_known with
    ⟨a', hTracks'⟩
  exact Ends.ok ⟨trivial, Nat.le_refl _, a', hTracks'⟩

/- A comment can be put into any known place. -/
theorem tracks_comment
    {nest : List Handle}
    {b : Builder}
    {a : Assembly}
    {place : Place}
    (hTracks : Tracks t nest b a)
    (hPlace : place.All (· ≤ b.made)) :
    ∃ a',
      Tracks t nest
        { b with
          made := b.made + 1
          calls :=
            place.call (.node (b.made + 1)) ::
              .createComment :: b.calls } a' := by
  rcases
    hTracks.plant
      (show TreeCall.data? .createComment = _ from rfl) hPlace
    with ⟨a', hTracks'⟩
  exact ⟨a', hTracks'.fewer (List.sublist_cons_self _ nest)⟩

theorem proceeds_appendComment :
    Proceeds t reason n appendComment := by
  intro b a _ hTracks
  rcases tracks_comment hTracks hTracks.place_known with
    ⟨a', hTracks'⟩
  simp only [appendComment, insertAt_eq]
  exact Ends.ok ⟨trivial, Nat.le_succ _, a', hTracks'⟩

theorem proceeds_appendCommentTo
    {parent : Handle}
    (hKnown : parent ≤ n) :
    Proceeds t reason n (appendCommentTo parent) := by
  intro b a hMade hTracks
  have hPlace : (Place.endOf parent).All (· ≤ b.made) :=
    Nat.le_trans hKnown hMade
  rcases tracks_comment hTracks hPlace with ⟨a', hTracks'⟩
  exact Ends.ok ⟨trivial, Nat.le_succ _, a', hTracks'⟩

------------------------------------------------------------
-- Formatting again
------------------------------------------------------------

theorem safe_reopen
    {entry : FormatEntry}
    (hPlain : entry.Plain) :
    Safe t reason n FormatEntry.Plain (reopen entry) := by
  cases entry with
  | marker => exact Safe.pure trivial
  | element handle tag =>
      exact
        (adds_insertElement tag).safe.bind fun _ _ =>
          Safe.pure hPlain

theorem proceeds_reopenFormatting :
    Proceeds t reason n reopenFormatting := by
  refine Safe.read fun b a _ hTracks => ?_
  refine
    (Safe.mapM fun entry hMember =>
      safe_reopen
        (hTracks.formatting entry
          ((List.takeWhile_sublist _).subset
            (List.mem_reverse.mp hMember)))).bind ?_
  intro fresh hFresh
  refine
    proceeds_modify fun _ =>
      Builder.sheds_formatting fun hPlain entry hMember => ?_
  rcases List.mem_append.mp hMember with hNew | hOld
  · exact hFresh entry (List.mem_reverse.mp hNew)
  · exact hPlain entry ((List.drop_sublist _ _).subset hOld)

theorem proceeds_limitAlike
    (tag : Tag) :
    Proceeds t reason n (limitAlike tag) := by
  refine Safe.get fun b => ?_
  dsimp only
  cases List.getLast? _ with
  | none => exact Safe.done ()
  | some first => exact Safe.when (proceeds_dropFormat first)

theorem proceeds_insertFormatting
    {tag : Tag}
    (hTag : PassedBy (.html tag.name)) :
    Proceeds t reason n (insertFormatting tag) := by
  refine (proceeds_limitAlike tag).andThen ?_
  refine (adds_insertElement tag).safe.bind fun e _ => ?_
  refine
    proceeds_modify fun _ =>
      Builder.sheds_formatting fun hPlain entry hMember => ?_
  rcases List.mem_cons.mp hMember with rfl | hOld
  · exact hTag
  · exact hPlain entry hOld

------------------------------------------------------------
-- Outcomes
------------------------------------------------------------

/- A token cuts off no declaration, except for a reason. -/
def Token.Harmless
    (reason : Prop) : Token → Prop
  | .startTag tag => tag.CutsOff → reason
  | _ => True

/- What is taken up again is such a token. -/
def Outcome.Harmless
    (reason : Prop) : Outcome → Prop
  | .again token => token.Harmless reason
  | _ => True

/- A step that settles a token, or leaves another one. -/
abbrev Settles
    (t : Tree)
    (reason : Prop)
    (n : Nat)
    (x : Build Outcome) : Prop :=
  Safe t reason n (Outcome.Harmless reason) x

theorem settles_done :
    Settles t reason n (pure .done) :=
  Safe.pure trivial

theorem settles_setMode
    (mode : Mode) :
    Settles t reason n (do
      setMode mode
      return .done) :=
  (adds_setMode mode).safe.andThen settles_done

theorem settles_retryIn
    {token : Token}
    (mode : Mode)
    (hToken : token.Harmless reason) :
    Settles t reason n (retryIn mode token) :=
  (adds_setMode mode).safe.andThen (Safe.pure hToken)

/- An element ends, after those whose ends it implies. -/
theorem settles_closeUntil
    {next : Build Outcome}
    (hNext : Settles t reason n next)
    (p q : QualName → Bool) :
    Settles t reason n (do
      popWhile p
      popUntil q
      next) :=
  (proceeds_popWhile p).andThen ((proceeds_popUntil q).andThen hNext)

theorem adds_insertSpecialText
    (tag : Tag)
    (kind : TextKind) :
    Adds t reason (Outcome.Harmless reason)
      (insertSpecialText tag kind) := by
  refine (adds_openElement tag).andThen ?_
  refine Adds.andThen (P := fun _ => True) ?_ (Adds.pure trivial)
  exact adds_note fun _ => rfl

end Html

end MarkupMetrics
