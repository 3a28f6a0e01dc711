import MarkupMetrics.Html.BodyRules
import MarkupMetrics.Proofs.Html.Heads
import MarkupMetrics.Proofs.Html.Splitting

/-
  This file proves that the rules for ordinary content can
  always be applied.

  Key theorems include:
    * `Rules.settles_bodyStart`
    * `Rules.settles_bodyEnd`
    * `Rules.settles_inBody`
-/

namespace MarkupMetrics

namespace Html

open Dom

variable {t : Tree}
variable {reason : Prop}
variable {n : Nat}

namespace Rules

------------------------------------------------------------
-- Blocks
------------------------------------------------------------

/- An element is opened, and the token is settled. -/
theorem settles_openElement
    (tag : Tag) :
    Settles t reason n (do
      openElement tag
      return .done) :=
  (adds_openElement tag).safe.andThen settles_done

theorem settles_startBlock
    (tag : Tag) :
    Settles t reason n (startBlock tag) :=
  proceeds_closeParagraphInScope.andThen (settles_openElement tag)

theorem settles_startPlain
    (tag : Tag) :
    Settles t reason n (startPlain tag) :=
  proceeds_reopenFormatting.andThen (settles_openElement tag)

theorem settles_startFormatting
    {tag : Tag}
    (hTag : PassedBy (.html tag.name)) :
    Settles t reason n (startFormatting tag) :=
  proceeds_reopenFormatting.andThen
    ((proceeds_insertFormatting hTag).andThen settles_done)

/- The body is one of the open elements. -/
theorem mem_of_body?
    {b : Builder}
    {body : OpenElement}
    (hBody : b.body? = some body) :
    body ∈ b.stack := by
  have hFound := (Option.filter_eq_some_iff.mp hBody).1
  exact List.mem_reverse.mp (List.mem_of_getElem? hFound)

theorem settles_startBody
    (tag : Tag) :
    Settles t reason n (startBody tag) := by
  refine Safe.read fun b a _ hTracks => ?_
  dsimp only
  cases hBody : b.body? with
  | none => exact settles_done
  | some body =>
      have hKnown := hTracks.stack body (mem_of_body? hBody)
      exact
        Safe.ite
          (fun _ =>
            adds_forbidFrameset.safe.andThen
              ((proceeds_addAttributes hKnown _).andThen
                settles_done))
          (fun _ => settles_done)

theorem settles_startFrameset
    (tag : Tag) :
    Settles t reason n (startFrameset tag) := by
  refine Safe.read fun b a _ hTracks => ?_
  dsimp only
  split
  · next body _ hBody =>
      have hKnown := hTracks.stack body (mem_of_body? hBody)
      refine (proceeds_unlink hKnown).andThen ?_
      refine Safe.andThen (P := fun _ => True) ?_ ?_
      · exact
          proceeds_modify fun b =>
            Builder.sheds_stack (List.drop_sublist _ b.stack)
      · exact
          (adds_openElement tag).safe.andThen (settles_setMode _)
  · exact settles_done

theorem settles_startHeading
    (tag : Tag) :
    Settles t reason n (startHeading tag) :=
  proceeds_closeParagraphInScope.andThen
    (Safe.get fun _ =>
      Safe.detour proceeds_pop (settles_openElement tag))

theorem settles_startPreformatted
    (tag : Tag) :
    Settles t reason n (startPreformatted tag) := by
  refine proceeds_closeParagraphInScope.andThen ?_
  refine (adds_openElement tag).safe.andThen ?_
  exact Safe.note (fun _ => rfl) settles_done

theorem settles_startForm
    (tag : Tag) :
    Settles t reason n (startForm tag) := by
  refine Safe.get fun _ => Safe.get fun _ => ?_
  refine Safe.ite (fun _ => ?_) (fun _ => settles_done)
  refine proceeds_closeParagraphInScope.andThen ?_
  refine (adds_insertElement tag).safe.bind fun e _ => ?_
  refine Safe.get fun _ => Safe.detour ?_ settles_done
  exact proceeds_note fun _ => rfl

theorem settles_startItem
    (tag : Tag) :
    Settles t reason n (startItem tag) := by
  refine adds_forbidFrameset.safe.andThen ?_
  refine Safe.get fun b => ?_
  have hOpen : Settles t reason n (startBlock tag) :=
    settles_startBlock tag
  dsimp only
  cases openItem? _ b.stack with
  | none => exact hOpen
  | some name => exact settles_closeUntil hOpen _ _

------------------------------------------------------------
-- Running text
------------------------------------------------------------

theorem settles_insertSpecialText
    (tag : Tag)
    (kind : TextKind) :
    Settles t reason n (insertSpecialText tag kind) :=
  (adds_insertSpecialText tag kind).safe

theorem settles_startPlaintext
    (tag : Tag) :
    Settles t reason n (startPlaintext tag) :=
  proceeds_closeParagraphInScope.andThen
    ((adds_openElement tag).safe.andThen (Safe.pure trivial))

theorem settles_startButton
    (tag : Tag) :
    Settles t reason n (startButton tag) := by
  have hOpen :
      Settles t reason n (do
        reopenFormatting
        openElement tag
        forbidFrameset
        return .done) :=
    proceeds_reopenFormatting.andThen
      ((adds_openElement tag).safe.andThen
        (adds_forbidFrameset.safe.andThen settles_done))
  exact
    Safe.get fun _ =>
      Safe.ite (fun _ => settles_closeUntil hOpen _ _)
        (fun _ => hOpen)

theorem settles_startLink
    {tag : Tag}
    (hTag : PassedBy (.html tag.name)) :
    Settles t reason n (startLink tag) :=
  proceeds_closeOpenLink.andThen (settles_startFormatting hTag)

theorem settles_startNoBreak
    {tag : Tag}
    (hTag : PassedBy (.html tag.name)) :
    Settles t reason n (startNoBreak tag) := by
  have hOpen :
      Settles t reason n (do
        insertFormatting tag
        return .done) :=
    (proceeds_insertFormatting hTag).andThen settles_done
  refine proceeds_reopenFormatting.andThen (Safe.get fun _ => ?_)
  exact
    Safe.ite
      (fun _ =>
        (proceeds_splitFormatting "nobr").andThen
          (proceeds_reopenFormatting.andThen hOpen))
      (fun _ => hOpen)

theorem settles_startEmbedded
    (tag : Tag) :
    Settles t reason n (startEmbedded tag) :=
  proceeds_reopenFormatting.andThen
    ((adds_openElement tag).safe.andThen
      (adds_pushMarker.safe.andThen
        (adds_forbidFrameset.safe.andThen settles_done)))

theorem settles_startTable
    (tag : Tag) :
    Settles t reason n (startTable tag) := by
  refine
    Safe.get fun _ =>
      Safe.detour proceeds_closeParagraphInScope ?_
  exact
    (adds_openElement tag).safe.andThen
      (adds_forbidFrameset.safe.andThen (settles_setMode _))

/- Content without end, after which no frames may come. -/
theorem settles_insertVoid
    (tag : Tag) :
    Settles t reason n (do
      insertVoid tag
      forbidFrameset
      return .done) :=
  (adds_insertVoid tag).safe.andThen
    (adds_forbidFrameset.safe.andThen settles_done)

theorem settles_startVoid
    (tag : Tag) :
    Settles t reason n (startVoid tag) :=
  proceeds_reopenFormatting.andThen (settles_insertVoid tag)

theorem settles_startInput
    (tag : Tag) :
    Settles t reason n (startInput tag) := by
  refine
    Safe.get fun _ => Safe.detour (proceeds_popUntil _) ?_
  refine proceeds_reopenFormatting.andThen ?_
  refine (adds_insertVoid tag).safe.andThen ?_
  exact Safe.detour adds_forbidFrameset.safe settles_done

theorem settles_startRule
    (tag : Tag) :
    Settles t reason n (startRule tag) :=
  proceeds_closeParagraphInScope.andThen
    (Safe.get fun _ =>
      Safe.detour (proceeds_popWhile _) (settles_insertVoid tag))

theorem settles_startTextField
    (tag : Tag) :
    Settles t reason n (startTextField tag) :=
  Safe.note (fun _ => rfl) (settles_insertSpecialText tag _)

theorem settles_startExample
    (tag : Tag) :
    Settles t reason n (startExample tag) :=
  proceeds_closeParagraphInScope.andThen
    (proceeds_reopenFormatting.andThen
      (adds_forbidFrameset.safe.andThen
        (settles_insertSpecialText tag _)))

theorem settles_startSelect
    (tag : Tag) :
    Settles t reason n (startSelect tag) :=
  Safe.get fun _ =>
    Safe.ite
      (fun _ => (proceeds_popUntil _).andThen settles_done)
      (fun _ =>
        proceeds_reopenFormatting.andThen
          ((adds_openElement tag).safe.andThen
            (adds_forbidFrameset.safe.andThen settles_done)))

/- What may be chosen closes what was there to choose. -/
theorem settles_startChoice
    {c d : Prop}
    [Decidable c]
    [Decidable d]
    (p : QualName → Bool)
    (tag : Tag) :
    Settles t reason n
      (if c then do
          popWhile p
          startPlain tag
        else if d then do
          pop
          startPlain tag
        else startPlain tag) :=
  Safe.ite
    (fun _ =>
      (proceeds_popWhile p).andThen (settles_startPlain tag))
    (fun _ => Safe.detour proceeds_pop (settles_startPlain tag))

theorem settles_startOption
    (tag : Tag) :
    Settles t reason n (startOption tag) :=
  Safe.get fun _ => settles_startChoice _ tag

theorem settles_startOptionGroup
    (tag : Tag) :
    Settles t reason n (startOptionGroup tag) :=
  Safe.get fun _ => settles_startChoice _ tag

theorem settles_startRubyPart
    (tag : Tag) :
    Settles t reason n (startRubyPart tag) := by
  have hClose :
      ∀ p, Settles t reason n (do
        popWhile p
        openElement tag
        return .done) := fun p =>
    (proceeds_popWhile p).andThen (settles_openElement tag)
  exact
    Safe.get fun _ =>
      Safe.ite
        (fun _ =>
          Safe.ite (fun _ => hClose _) (fun _ => hClose _))
        (fun _ => settles_openElement tag)

/- An element of any namespace may be opened, too. -/
theorem settles_insertForeign
    (space : Namespace)
    (name : String)
    (tag : Tag) :
    Settles t reason n (insertForeign space name tag) := by
  intro b a _ hTracks
  rcases
    exists_placeElement hTracks ⟨none, space, name⟩
      (foreignAttrs space tag) with
    ⟨b', a', hRun, hMade, hStack, hTracks'⟩
  have hMore : b.made ≤ b'.made :=
    Nat.le_of_lt (Nat.lt_of_succ_le hMade.ge)
  have hNest : b.nest = b'.nest := by
    rw [Builder.nest, Builder.nest, hStack]
  rw [hNest] at hTracks'
  rw [insertForeign, bind_of_ok hRun]
  by_cases hClosed : (!tag.selfClosing) = true
  · rw [if_pos hClosed]
    exact Ends.ok ⟨trivial, hMore, a', hTracks'.push⟩
  · rw [if_neg hClosed]
    exact
      Ends.ok
        ⟨trivial, hMore, a',
          hTracks'.fewer (List.sublist_cons_self _ _)⟩

/- No formatting element is passed by a search for tables. -/
theorem passedBy_formatting :
    ∀ name ∈ "a" :: "nobr" :: formattingNames,
      PassedBy (.html name) := by
  decide

theorem settles_bodyStart
    {tag : Tag}
    (hTag : tag.CutsOff → reason) :
    Settles t reason n (bodyStart tag) := by
  have hToken : (Token.startTag tag).Harmless reason := hTag
  have hPassed :
      ∀ name ∈ "a" :: "nobr" :: formattingNames,
        tag.name = name → PassedBy (.html tag.name) := by
    rintro name hMember rfl
    exact passedBy_formatting tag.name hMember
  unfold bodyStart
  refine Safe.ite (fun _ => settles_mergeRootAttrs tag) fun _ => ?_
  refine Safe.ite (fun _ => settles_inHead hToken) fun _ => ?_
  refine Safe.ite (fun _ => settles_startBody tag) fun _ => ?_
  refine Safe.ite (fun _ => settles_startFrameset tag) fun _ => ?_
  refine Safe.ite (fun _ => settles_startBlock tag) fun _ => ?_
  refine Safe.ite (fun _ => settles_startHeading tag) fun _ => ?_
  refine
    Safe.ite (fun _ => settles_startPreformatted tag) fun _ => ?_
  refine Safe.ite (fun _ => settles_startForm tag) fun _ => ?_
  refine Safe.ite (fun _ => settles_startItem tag) fun _ => ?_
  refine Safe.ite (fun _ => settles_startPlaintext tag) fun _ => ?_
  refine Safe.ite (fun _ => settles_startButton tag) fun _ => ?_
  refine
    Safe.ite
      (fun hName =>
        settles_startLink (hPassed "a" (by simp) hName))
      fun _ => ?_
  refine
    Safe.ite
      (fun hAmong =>
        settles_startFormatting
          (hPassed tag.name
            (by
              have hMember := List.contains_iff_mem.mp hAmong
              simp [hMember])
            rfl))
      fun _ => ?_
  refine
    Safe.ite
      (fun hName =>
        settles_startNoBreak (hPassed "nobr" (by simp) hName))
      fun _ => ?_
  refine Safe.ite (fun _ => settles_startEmbedded tag) fun _ => ?_
  refine Safe.ite (fun _ => settles_startTable tag) fun _ => ?_
  refine Safe.ite (fun _ => settles_startVoid tag) fun _ => ?_
  refine Safe.ite (fun _ => settles_startVoid _) fun _ => ?_
  refine Safe.ite (fun _ => settles_startInput tag) fun _ => ?_
  refine
    Safe.ite
      (fun _ => (adds_insertVoid tag).safe.andThen settles_done)
      fun _ => ?_
  refine Safe.ite (fun _ => settles_startRule tag) fun _ => ?_
  refine Safe.ite (fun _ => settles_startTextField tag) fun _ => ?_
  refine Safe.ite (fun _ => settles_startExample tag) fun _ => ?_
  refine
    Safe.ite
      (fun _ =>
        adds_forbidFrameset.safe.andThen
          (settles_insertSpecialText tag _))
      fun _ => ?_
  refine
    Safe.ite (fun _ => settles_insertSpecialText tag _) fun _ => ?_
  refine Safe.ite (fun _ => settles_startSelect tag) fun _ => ?_
  refine Safe.ite (fun _ => settles_startOption tag) fun _ => ?_
  refine
    Safe.ite (fun _ => settles_startOptionGroup tag) fun _ => ?_
  refine Safe.ite (fun _ => settles_startRubyPart tag) fun _ => ?_
  refine
    Safe.ite (fun _ => settles_insertForeign _ _ tag) fun _ => ?_
  refine
    Safe.ite (fun _ => settles_insertForeign _ _ tag) fun _ => ?_
  exact
    Safe.ite (fun _ => settles_done)
      (fun _ => settles_startPlain tag)

------------------------------------------------------------
-- End tags
------------------------------------------------------------

/- An element ends if it has begun. -/
theorem settles_closeIf
    {c : Prop}
    [Decidable c]
    (p q : QualName → Bool) :
    Settles t reason n
      (if c then do
          popWhile p
          popUntil q
          return .done
        else return .done) :=
  Safe.ite (fun _ => settles_closeUntil settles_done p q)
    (fun _ => settles_done)

theorem settles_endBlock
    (tag : Tag) :
    Settles t reason n (endBlock tag) :=
  Safe.get fun _ => settles_closeIf _ _

theorem settles_endForm :
    Settles t reason n endForm := by
  refine Safe.get fun b => ?_
  refine Safe.ite (fun _ => settles_closeIf _ _) fun _ => ?_
  refine Safe.note (fun _ => rfl) ?_
  cases b.form with
  | none => exact settles_done
  | some form =>
      exact
        Safe.ite
          (fun _ =>
            (proceeds_popWhile _).andThen
              ((proceeds_close form).andThen settles_done))
          (fun _ => settles_done)

theorem settles_endParagraph :
    Settles t reason n endParagraph := by
  have hClose :
      Settles t reason n (do
        closeParagraph
        return .done) :=
    proceeds_closeParagraph.andThen settles_done
  exact
    Safe.get fun _ =>
      Safe.ite
        (fun _ => (adds_insertElement _).safe.andThen hClose)
        (fun _ => hClose)

theorem settles_endItem
    (tag : Tag) :
    Settles t reason n (endItem tag) :=
  Safe.get fun _ => settles_closeIf _ _

theorem settles_endHeading :
    Settles t reason n endHeading :=
  Safe.get fun _ => settles_closeIf _ _

theorem settles_endEmbedded
    (tag : Tag) :
    Settles t reason n (endEmbedded tag) :=
  Safe.get fun _ =>
    Safe.ite
      (fun _ =>
        settles_closeUntil
          (proceeds_dropToMarker.andThen settles_done) _ _)
      (fun _ => settles_done)

theorem settles_bodyEnd
    (tag : Tag) :
    Settles t reason n (bodyEnd tag) := by
  unfold bodyEnd
  refine Safe.ite (fun _ => settles_endTemplate) fun _ => ?_
  refine
    Safe.ite
      (fun _ =>
        Safe.get fun _ =>
          Safe.detour (adds_setMode _).safe settles_done)
      fun _ => ?_
  refine
    Safe.ite
      (fun _ =>
        Safe.get fun _ =>
          Safe.ite (fun _ => settles_retryIn _ trivial)
            (fun _ => settles_done))
      fun _ => ?_
  refine Safe.ite (fun _ => settles_endBlock tag) fun _ => ?_
  refine Safe.ite (fun _ => settles_endForm) fun _ => ?_
  refine Safe.ite (fun _ => settles_endParagraph) fun _ => ?_
  refine Safe.ite (fun _ => settles_endItem tag) fun _ => ?_
  refine Safe.ite (fun _ => settles_endHeading) fun _ => ?_
  refine
    Safe.ite
      (fun _ =>
        (proceeds_splitFormatting tag.name).andThen settles_done)
      fun _ => ?_
  refine Safe.ite (fun _ => settles_endEmbedded tag) fun _ => ?_
  exact
    Safe.ite (fun _ => settles_startVoid _)
      (fun _ => (proceeds_closeNamed _).andThen settles_done)

------------------------------------------------------------
-- Tokens
------------------------------------------------------------

theorem settles_bodyText
    (blank : Bool)
    (text : List Char) :
    Settles t reason n (bodyText blank text) := by
  refine proceeds_reopenFormatting.andThen ?_
  exact
    Safe.detour adds_forbidFrameset.safe (settles_keepBlank text)

theorem settles_inBody
    {token : Token}
    (hToken : token.Harmless reason) :
    Settles t reason n (inBody token) := by
  unfold inBody
  split
  · exact settles_bodyText _ _
  · exact settles_keepComment
  · exact settles_bodyStart hToken
  · exact settles_bodyEnd _
  · exact
      Safe.get fun _ =>
        Safe.ite (fun _ => settles_done)
          (fun _ => settles_endPageInTemplate)
  · exact settles_done

end Rules

end Html

end MarkupMetrics
