import MarkupMetrics.Html.Rules
import MarkupMetrics.Proofs.Html.Tables

/-
  This file proves that every token can be taken in every
  mode, in drawings and formulas too.

  Key theorems include:
    * `Rules.settles_apply`
    * `Rules.settles_inForeign`
    * `Rules.settles_settle`
    * `Rules.settles_takeToken`
-/

namespace MarkupMetrics

namespace Html

open Dom

variable {t : Tree}
variable {reason : Prop}
variable {n : Nat}

namespace Rules

------------------------------------------------------------
-- Modes
------------------------------------------------------------

theorem settles_inText
    {token : Token}
    (hToken : token.Harmless reason) :
    Settles t reason n (inText token) := by
  unfold inText
  split
  · exact settles_keepBlank _
  · refine proceeds_pop.andThen (Safe.get fun _ => ?_)
    refine (adds_setMode _).safe.andThen (Safe.pure ?_)
    split <;> trivial
  · exact
      proceeds_pop.andThen
        (Safe.get fun _ => settles_retryIn _ hToken)
  · exact settles_done

theorem settles_switchTemplate
    {token : Token}
    (hToken : token.Harmless reason)
    (mode : Mode) :
    Settles t reason n (switchTemplate mode token) :=
  Safe.note (fun _ => rfl) (settles_retryIn _ hToken)

theorem settles_inTemplate
    {token : Token}
    (hToken : token.Harmless reason) :
    Settles t reason n (inTemplate token) := by
  have hSwitch :
      ∀ mode, Settles t reason n (switchTemplate mode token) :=
    settles_switchTemplate hToken
  unfold inTemplate
  split
  · exact settles_inBody hToken
  · exact settles_inBody hToken
  · refine Safe.ite (fun _ => settles_inHead hToken) fun _ => ?_
    refine Safe.ite (fun _ => hSwitch _) fun _ => ?_
    refine Safe.ite (fun _ => hSwitch _) fun _ => ?_
    refine Safe.ite (fun _ => hSwitch _) fun _ => ?_
    exact Safe.ite (fun _ => hSwitch _) (fun _ => hSwitch _)
  · exact
      Safe.ite (fun _ => settles_endTemplate)
        (fun _ => settles_done)
  · exact settles_endPageInTemplate
  · exact settles_done

theorem settles_afterBody
    {token : Token}
    (hToken : token.Harmless reason) :
    Settles t reason n (afterBody token) := by
  unfold afterBody
  split
  · exact settles_inBody hToken
  · exact settles_commentOnRoot
  · exact
      Safe.ite (fun _ => settles_mergeRootAttrs _)
        (fun _ => settles_retryIn _ hToken)
  · exact
      Safe.ite (fun _ => settles_setMode _)
        (fun _ => settles_retryIn _ hToken)
  · exact settles_done
  · exact settles_retryIn _ hToken

theorem settles_inFrameset
    {token : Token}
    (hToken : token.Harmless reason) :
    Settles t reason n (inFrameset token) := by
  unfold inFrameset
  split
  · exact settles_keepBlank _
  · exact settles_keepComment
  · refine Safe.ite (fun _ => settles_mergeRootAttrs _) fun _ => ?_
    refine Safe.ite (fun _ => settles_openElement _) fun _ => ?_
    refine
      Safe.ite
        (fun _ => (adds_insertVoid _).safe.andThen settles_done)
        fun _ => ?_
    exact
      Safe.ite (fun _ => settles_inHead hToken)
        (fun _ => settles_done)
  · refine Safe.ite (fun _ => Safe.get fun _ => ?_)
      (fun _ => settles_done)
    refine Safe.ite (fun _ => ?_) (fun _ => settles_done)
    refine proceeds_pop.andThen (Safe.get fun _ => ?_)
    exact Safe.detour (adds_setMode _).safe settles_done
  · exact settles_done

theorem settles_afterFrameset
    {token : Token}
    (hToken : token.Harmless reason) :
    Settles t reason n (afterFrameset token) := by
  unfold afterFrameset
  split
  · exact settles_keepBlank _
  · exact settles_keepComment
  · refine Safe.ite (fun _ => settles_mergeRootAttrs _) fun _ => ?_
    exact
      Safe.ite (fun _ => settles_inHead hToken)
        (fun _ => settles_done)
  · exact
      Safe.ite (fun _ => settles_setMode _) (fun _ => settles_done)
  · exact settles_done

theorem settles_afterAfterBody
    {token : Token}
    (hToken : token.Harmless reason) :
    Settles t reason n (afterAfterBody token) := by
  unfold afterAfterBody
  split
  · exact settles_inBody hToken
  · exact settles_commentOnDocument
  · exact
      Safe.ite (fun _ => settles_mergeRootAttrs _)
        (fun _ => settles_retryIn _ hToken)
  · exact settles_done
  · exact settles_retryIn _ hToken

theorem settles_afterAfterFrameset
    {token : Token}
    (hToken : token.Harmless reason) :
    Settles t reason n (afterAfterFrameset token) := by
  unfold afterAfterFrameset
  split
  · exact settles_inBody hToken
  · exact settles_commentOnDocument
  · refine Safe.ite (fun _ => settles_mergeRootAttrs _) fun _ => ?_
    exact
      Safe.ite (fun _ => settles_inHead hToken)
        (fun _ => settles_done)
  · exact settles_done

/- The rules of every mode can be applied. -/
theorem settles_apply
    {token : Token}
    (hToken : token.Harmless reason)
    (mode : Mode) :
    Settles t reason n (apply mode token) := by
  cases mode with
  | initial => exact settles_initial hToken
  | beforeHtml => exact settles_beforeHtml hToken
  | beforeHead => exact settles_beforeHead hToken
  | inHead => exact settles_inHead hToken
  | inHeadNoscript => exact settles_inHeadNoscript hToken
  | afterHead => exact settles_afterHead hToken
  | inBody => exact settles_inBody hToken
  | text => exact settles_inText hToken
  | inTable => exact settles_inTable hToken
  | inTableText => exact settles_inTableText hToken
  | inCaption => exact settles_inCaption hToken
  | inColumnGroup => exact settles_inColumnGroup hToken
  | inTableBody => exact settles_inTableBody hToken
  | inRow => exact settles_inRow hToken
  | inCell => exact settles_inCell hToken
  | inTemplate => exact settles_inTemplate hToken
  | afterBody => exact settles_afterBody hToken
  | inFrameset => exact settles_inFrameset hToken
  | afterFrameset => exact settles_afterFrameset hToken
  | afterAfterBody => exact settles_afterAfterBody hToken
  | afterAfterFrameset =>
      exact settles_afterAfterFrameset hToken

theorem settles_applyCurrent
    {token : Token}
    (hToken : token.Harmless reason) :
    Settles t reason n (applyCurrent token) :=
  Safe.get fun b => settles_apply hToken b.mode

------------------------------------------------------------
-- Drawings and formulas
------------------------------------------------------------

theorem settles_breakOut
    {token : Token}
    (hToken : token.Harmless reason) :
    Settles t reason n (breakOut token) :=
  (proceeds_popTo _).andThen (settles_applyCurrent hToken)

theorem settles_startInForeign
    (tag : Tag) :
    Settles t reason n (startInForeign tag) := by
  refine Safe.get fun b => ?_
  cases b.current? with
  | none => exact settles_done
  | some e => exact settles_insertForeign _ _ tag

/- What is closed are the innermost of the open elements. -/
theorem ends_endInForeign
    {b : Builder}
    {a : Assembly}
    {stack : List OpenElement}
    (hTracks : Tracks t b.nest b a)
    (tag : Tag)
    (first : Bool)
    (hInner : stack.Sublist b.stack) :
    Ends reason
      (fun r =>
        r.1.Harmless reason ∧ b.made ≤ r.2.made ∧
          ∃ a', Tracks t r.2.nest r.2 a')
      (endInForeign tag first stack b) := by
  have hDone : Settles t reason b.made (pure .done) :=
    settles_done
  have hApply :
      Settles t reason b.made (applyCurrent (.endTag tag)) :=
    settles_applyCurrent trivial
  fun_induction endInForeign tag first stack with
  | case1 first => exact hDone b a (Nat.le_refl _) hTracks
  | case2 first e => exact hDone b a (Nat.le_refl _) hTracks
  | case3 first e rest hRest hHtml =>
      exact hApply b a (Nat.le_refl _) hTracks
  | case4 first e rest hRest hHtml hName =>
      have hFewer : rest.Sublist b.stack :=
        (List.sublist_cons_self e rest).trans hInner
      exact
        Ends.ok
          ⟨trivial, Nat.le_refl _, a,
            hTracks.sheds (Builder.sheds_stack hFewer)
              ((hFewer.map _).append_right _)⟩
  | case5 first e rest hRest hHtml hName ih =>
      exact ih ((List.sublist_cons_self e rest).trans hInner)

theorem settles_inForeign
    {token : Token}
    (hToken : token.Harmless reason) :
    Settles t reason n (inForeign token) := by
  unfold inForeign
  split
  · exact settles_keepBlank _
  · exact
      Safe.detour adds_forbidFrameset.safe (settles_keepBlank _)
  · exact settles_keepComment
  · exact
      Safe.ite (fun _ => settles_breakOut hToken)
        (fun _ => settles_startInForeign _)
  · next tag =>
      refine Safe.ite (fun _ => settles_breakOut hToken) fun _ => ?_
      intro b a _ hTracks
      exact
        ends_endInForeign hTracks tag true (List.Sublist.refl _)
  · exact settles_done

------------------------------------------------------------
-- Tokens
------------------------------------------------------------

/- What is taken up again is as harmless as what was read. -/
theorem settles_settle
    {token : Token}
    (hToken : token.Harmless reason)
    (fuel : Nat) :
    Settles t reason n (settle fuel token) := by
  induction fuel generalizing token with
  | zero => exact settles_done
  | succ fuel ih =>
      refine Safe.get fun b => Safe.ite (fun _ => ?_) fun _ => ?_
      · refine (settles_inForeign hToken).bind fun outcome h => ?_
        cases outcome with
        | again token => exact ih h
        | _ => exact Safe.pure trivial
      · refine
          (settles_apply hToken b.mode).bind fun outcome h => ?_
        cases outcome with
        | again token => exact ih h
        | _ => exact Safe.pure trivial

theorem settles_settleToken
    {token : Token}
    (hToken : token.Harmless reason) :
    Settles t reason n (settleToken token) :=
  Safe.get fun _ => settles_settle hToken _

theorem settles_takeDoctype
    (declared : Doctype) :
    Settles t reason n (takeDoctype declared) := by
  refine Safe.get fun _ => Safe.detour ?_ settles_done
  exact proceeds_note fun _ => rfl

theorem settles_takeText
    (skip blank : Bool)
    (text : List Char) :
    Settles t reason n (takeText skip blank text) := by
  unfold takeText
  split
  · exact settles_done
  · exact settles_settleToken trivial
  · exact settles_settleToken trivial

/- Every token that cuts off no declaration can be taken. -/
theorem settles_takeToken
    {token : Token}
    (hToken : token.Harmless reason) :
    Settles t reason n (takeToken token) := by
  refine Safe.get fun b => ?_
  refine Safe.note (fun _ => rfl) ?_
  split
  · exact settles_done
  · exact settles_takeDoctype _
  · exact settles_takeText _ _ _
  · exact settles_settleToken hToken

end Rules

end Html

end MarkupMetrics
