import MarkupMetrics.Html.HeadRules
import MarkupMetrics.Proofs.Html.Declarations
import MarkupMetrics.Proofs.Html.Steps

/-
  This file proves that the rules before and in the head of a
  page, and those for templates, can always be applied.

  A tag in the head may declare the encoding of the page.
  Only there building can come to a fault: where the
  declaration is cut off.

  Key theorems include:
    * `Rules.adds_inHead`
    * `Rules.settles_inHead`
    * `Rules.settles_addToHead`
    * `Rules.settles_afterHead`
-/

namespace MarkupMetrics

namespace Html

open Dom MarkupMetrics.Outcome

variable {t : Tree}
variable {reason : Prop}
variable {n : Nat}

namespace Rules

------------------------------------------------------------
-- Shared rules
------------------------------------------------------------

theorem adds_mergeRootAttrs
    (tag : Tag) :
    Adds t reason (Outcome.Harmless reason)
      (mergeRootAttrs tag) := by
  intro nest b a hTracks
  have hDone :
      Adds t reason (Outcome.Harmless reason) (pure .done) :=
    Adds.pure trivial
  rw [mergeRootAttrs, get_bind]
  by_cases hTemplate : (!b.inTemplate) = true
  · rw [if_pos hTemplate]
    cases hRoot : b.root? with
    | none => exact hDone nest b a hTracks
    | some root =>
        have hKnown :=
          hTracks.stack root (List.mem_of_getLast? hRoot)
        rcases
          hTracks.addAttributes hKnown (plainAttrs tag) with
          ⟨a', hTracks'⟩
        exact hDone nest _ a' hTracks'
  · rw [if_neg hTemplate]
    exact hDone nest b a hTracks

theorem settles_mergeRootAttrs
    (tag : Tag) :
    Settles t reason n (mergeRootAttrs tag) :=
  (adds_mergeRootAttrs tag).safe

theorem settles_keepBlank
    (text : List Char) :
    Settles t reason n (keepBlank text) :=
  (proceeds_appendText text).andThen settles_done

theorem settles_keepComment :
    Settles t reason n keepComment :=
  proceeds_appendComment.andThen settles_done

theorem settles_commentOnDocument :
    Settles t reason n commentOnDocument :=
  (proceeds_appendCommentTo (Nat.zero_le n)).andThen settles_done

theorem settles_commentOnRoot :
    Settles t reason n commentOnRoot := by
  refine Safe.read fun b a _ hTracks => ?_
  cases hRoot : b.root? with
  | none => exact settles_done
  | some root =>
      have hKnown :=
        hTracks.stack root (List.mem_of_getLast? hRoot)
      exact
        (proceeds_appendCommentTo hKnown).andThen settles_done

------------------------------------------------------------
-- Templates
------------------------------------------------------------

theorem adds_startTemplate
    (tag : Tag) :
    Adds t reason (Outcome.Harmless reason)
      (startTemplate tag) := by
  have hMode :
      Adds t reason (fun _ => True)
        (modify fun b : Builder =>
          { b with
            mode := .inTemplate
            templateModes := .inTemplate :: b.templateModes }) :=
    adds_note fun _ => rfl
  have hOpen :
      Adds t reason (Outcome.Harmless reason) (do
        openElement tag
        return .done) :=
    (adds_openElement tag).andThen (Adds.pure trivial)
  refine adds_pushMarker.andThen ?_
  refine adds_forbidFrameset.andThen ?_
  refine hMode.andThen (Adds.get fun b => ?_)
  exact
    Adds.ite (fun _ => (adds_make _ _).andThen hOpen)
      (fun _ => hOpen)

theorem proceeds_closeTemplate :
    Proceeds t reason n closeTemplate := by
  refine (proceeds_popUntil _).andThen ?_
  refine proceeds_dropToMarker.andThen ?_
  exact Safe.note (fun _ => rfl) proceeds_resetMode

theorem settles_endTemplate :
    Settles t reason n endTemplate :=
  Safe.get fun _ =>
    Safe.ite
      (fun _ =>
        (proceeds_popWhile _).andThen
          (proceeds_closeTemplate.andThen settles_done))
      (fun _ => settles_done)

theorem settles_endPageInTemplate :
    Settles t reason n endPageInTemplate :=
  Safe.get fun _ =>
    Safe.ite
      (fun _ =>
        proceeds_closeTemplate.andThen (Safe.pure trivial))
      (fun _ => settles_done)

------------------------------------------------------------
-- In the head
------------------------------------------------------------

theorem adds_insertDeclaration
    {tag : Tag}
    (hTag : tag.CutsOff → reason) :
    Adds t reason (Outcome.Harmless reason)
      (insertDeclaration tag) := by
  refine (adds_insertVoid tag).andThen ?_
  have hDeclares :
      Ends reason (fun _ => True) tag.declaresEncoding :=
    (ends_declaresEncoding tag).imp hTag fun _ _ => trivial
  refine (Adds.lift hDeclares).bind fun declares _ => ?_
  cases declares <;> exact Adds.pure trivial

/- Tags that the head takes only add to it. -/
theorem adds_headStart?
    {tag : Tag}
    {action : Build Outcome}
    (hTag : tag.CutsOff → reason)
    (hAction : headStart? tag = some action) :
    Adds t reason (Outcome.Harmless reason) action := by
  unfold headStart? at hAction
  split_ifs at hAction <;> cases hAction
  · exact adds_mergeRootAttrs tag
  · exact adds_insertDeclaration hTag
  · exact adds_insertSpecialText tag .rcdata
  · exact adds_insertSpecialText tag .rawtext
  · exact
      (adds_openElement tag).andThen
        ((adds_setMode _).andThen (Adds.pure trivial))
  · exact adds_insertSpecialText tag .script
  · exact adds_startTemplate tag
  · exact Adds.pure trivial

/- It takes those that have a place there wherever they are. -/
theorem isSome_headStart?
    {tag : Tag}
    (hAmong : tag.isAmong headTags = true) :
    ∃ action, headStart? tag = some action := by
  unfold headStart?
  split_ifs with h1 h2 h3 h4 h5 h6 h7 h8
  all_goals first
    | exact ⟨_, rfl⟩
    | simp_all [Tag.isAmong, headTags]

theorem adds_inHead
    {tag : Tag}
    (hAmong : tag.isAmong headTags = true)
    (hTag : tag.CutsOff → reason) :
    Adds t reason (Outcome.Harmless reason)
      (inHead (.startTag tag)) := by
  rcases isSome_headStart? hAmong with ⟨action, hAction⟩
  simp only [inHead, hAction]
  exact adds_headStart? hTag hAction

theorem settles_leaveHead
    {token : Token}
    (hToken : token.Harmless reason) :
    Settles t reason n (leaveHead token) :=
  proceeds_pop.andThen (settles_retryIn _ hToken)

theorem settles_inHead
    {token : Token}
    (hToken : token.Harmless reason) :
    Settles t reason n (inHead token) := by
  unfold inHead
  split
  · exact settles_keepBlank _
  · exact settles_keepComment
  · split
    · next hAction =>
        exact (adds_headStart? hToken hAction).safe
    · exact settles_leaveHead hToken
  · refine Safe.ite (fun _ => ?_) fun _ => ?_
    · exact proceeds_pop.andThen (settles_setMode _)
    · refine Safe.ite (fun _ => settles_endTemplate) fun _ => ?_
      exact
        Safe.ite (fun _ => settles_leaveHead hToken)
          (fun _ => settles_done)
  · exact settles_leaveHead hToken

theorem settles_leaveNoscript
    {token : Token}
    (hToken : token.Harmless reason) :
    Settles t reason n (leaveNoscript token) :=
  proceeds_pop.andThen (settles_retryIn _ hToken)

theorem settles_inHeadNoscript
    {token : Token}
    (hToken : token.Harmless reason) :
    Settles t reason n (inHeadNoscript token) := by
  unfold inHeadNoscript
  split
  · exact settles_inHead hToken
  · exact settles_inHead hToken
  · refine Safe.ite (fun _ => settles_mergeRootAttrs _) fun _ => ?_
    refine Safe.ite (fun _ => settles_inHead hToken) fun _ => ?_
    exact
      Safe.ite (fun _ => settles_done)
        (fun _ => settles_leaveNoscript hToken)
  · refine Safe.ite (fun _ => ?_) fun _ => ?_
    · exact proceeds_pop.andThen (settles_setMode _)
    · exact
        Safe.ite (fun _ => settles_leaveNoscript hToken)
          (fun _ => settles_done)
  · exact settles_leaveNoscript hToken

------------------------------------------------------------
-- Around the head
------------------------------------------------------------

theorem settles_initial
    {token : Token}
    (hToken : token.Harmless reason) :
    Settles t reason n (initial token) := by
  unfold initial
  split
  · exact settles_done
  · exact settles_commentOnDocument
  · exact Safe.note (fun _ => rfl) (settles_retryIn _ hToken)

/- The outermost element is put below the document. -/
theorem proceeds_openRoot
    (tag : Tag) :
    Proceeds t reason n (openRoot tag) := by
  intro b a _ hTracks
  have hPlace :
      (Place.endOf documentHandle).All (· ≤ b.made) :=
    Nat.zero_le _
  rcases
    hTracks.plant
      (show
        TreeCall.data?
            (.createElement (.html "html") (plainAttrs tag)) =
          _ from rfl) hPlace with
    ⟨a', hTracks'⟩
  have hOpen :=
    hTracks'.restack
      (⟨b.made + 1, .html "html"⟩ :: b.stack)
      ((List.sublist_append_left _ _).cons_cons _)
  exact Ends.ok ⟨trivial, Nat.le_succ _, a', hOpen⟩

theorem settles_beforeHtml
    {token : Token}
    (hToken : token.Harmless reason) :
    Settles t reason n (beforeHtml token) := by
  have hMissing :
      Settles t reason n (beforeHtml.openMissing token) :=
    (proceeds_openRoot _).andThen (settles_retryIn _ hToken)
  unfold beforeHtml
  split
  · exact settles_done
  · exact settles_commentOnDocument
  · refine Safe.ite (fun _ => ?_) (fun _ => hMissing)
    exact (proceeds_openRoot _).andThen (settles_setMode _)
  · exact
      Safe.ite (fun _ => hMissing) (fun _ => settles_done)
  · exact hMissing

/- The head is known as soon as it is noted. -/
theorem settles_insertHead
    {next : Build Outcome}
    (tag : Tag)
    (hNext : Settles t reason n next) :
    Settles t reason n (do
      setHead (← insertElement tag)
      next) := by
  intro b a hMade hTracks
  rcases exists_insertElement hTracks tag with
    ⟨e, b', a', hRun, hHandle, hMore, hStack, hTracks'⟩
  have hNest : b'.nest = e.handle :: b.nest := by
    rw [Builder.nest, hStack]
    rfl
  have hHead :
      Tracks t b'.nest { b' with head := some e.handle } a' := by
    rw [hNest]
    refine { hTracks' with head := fun h hSame => ?_ }
    rw [← Option.some.inj hSame]
    exact hTracks'.known e.handle List.mem_cons_self
  have hGrows : b.made ≤ b'.made :=
    Nat.le_of_lt (Nat.lt_of_succ_le hMore.ge)
  rw [bind_of_ok hRun]
  refine
    (hNext { b' with head := some e.handle } a'
      (Nat.le_trans hMade hGrows) hHead).imp id ?_
  rintro r ⟨hR, hLater, hRest⟩
  exact ⟨hR, Nat.le_trans hGrows hLater, hRest⟩

theorem settles_beforeHead
    {token : Token}
    (hToken : token.Harmless reason) :
    Settles t reason n (beforeHead token) := by
  have hMissing :
      Settles t reason n (beforeHead.openMissing token) :=
    settles_insertHead _ (settles_retryIn _ hToken)
  unfold beforeHead
  split
  · exact settles_done
  · exact settles_keepComment
  · refine Safe.ite (fun _ => settles_mergeRootAttrs _) fun _ => ?_
    refine Safe.ite (fun _ => ?_) (fun _ => hMissing)
    exact settles_insertHead _ (settles_setMode _)
  · exact
      Safe.ite (fun _ => hMissing) (fun _ => settles_done)
  · exact hMissing

/-
  What belongs into the head goes there while it is open once
  more.  It need not be nested with the other open elements:
  what is added is new, and only the head is closed then.
-/
theorem settles_addToHead
    {tag : Tag}
    (hAmong : tag.isAmong headTags = true)
    (hTag : tag.CutsOff → reason) :
    Settles t reason n (addToHead (.startTag tag)) := by
  intro b a hMade hTracks
  have hToken : (Token.startTag tag).Harmless reason := hTag
  rw [addToHead, get_bind]
  cases hHead : b.head with
  | none => exact settles_inHead hToken b a hMade hTracks
  | some handle =>
      have hKnown := hTracks.head handle hHead
      have hOpen :
          Tracks t b.nest
            { b with
              stack := ⟨handle, .html "head"⟩ :: b.stack } a := by
        refine { hTracks with stack := fun e hMember => ?_ }
        rcases List.mem_cons.mp hMember with rfl | hOld
        · exact hKnown
        · exact hTracks.stack e hOld
      refine
        (adds_inHead hAmong hTag b.nest _ a hOpen).bind ?_
      rintro ⟨outcome, b'⟩
        ⟨hOutcome, hMore, fresh, a', hStack, hFresh, hTracks'⟩
      have hErase :
          b'.stack.eraseP (fun e => e.handle == handle) =
            fresh ++ b.stack := by
        have hOther :
            ∀ e ∈ fresh, ¬ (e.handle == handle) = true := by
          intro e hMember hSame
          rw [beq_iff_eq] at hSame
          exact
            Nat.not_lt.mpr hKnown (hSame ▸ hFresh e hMember)
        rw [hStack, List.eraseP_append_right _ hOther,
          List.eraseP_cons_of_pos (by simp)]
      have hNest :
          fresh.map (·.handle) ++ b.nest =
            (fresh ++ b.stack).map (·.handle) ++
              [documentHandle] := by
        simp [Builder.nest]
      rw [hNest, ← hErase] at hTracks'
      exact
        Ends.ok
          ⟨hOutcome, hMore, a',
            hTracks'.restack _ (List.sublist_append_left _ _)⟩

theorem settles_afterHead
    {token : Token}
    (hToken : token.Harmless reason) :
    Settles t reason n (afterHead token) := by
  have hMissing :
      Settles t reason n (afterHead.openMissing token) :=
    (adds_insertElement _).safe.andThen
      (settles_retryIn _ hToken)
  unfold afterHead
  split
  · exact settles_keepBlank _
  · exact settles_keepComment
  · refine Safe.ite (fun _ => settles_mergeRootAttrs _) fun _ => ?_
    refine Safe.ite (fun _ => ?_) fun _ => ?_
    · exact
        (adds_openElement _).safe.andThen
          (adds_forbidFrameset.safe.andThen (settles_setMode _))
    · refine Safe.ite (fun _ => ?_) fun _ => ?_
      · exact
          (adds_openElement _).safe.andThen (settles_setMode _)
      · refine
          Safe.ite (fun hAmong => settles_addToHead hAmong hToken)
            fun _ => ?_
        exact
          Safe.ite (fun _ => settles_done) (fun _ => hMissing)
  · refine Safe.ite (fun _ => settles_inHead hToken) fun _ => ?_
    exact
      Safe.ite (fun _ => hMissing) (fun _ => settles_done)
  · exact hMissing

end Rules

end Html

end MarkupMetrics
