import MarkupMetrics.Html.TableRules
import MarkupMetrics.Proofs.Html.Bodies

/-
  This file proves that the rules in tables can always be
  applied.

  Key theorems include:
    * `Rules.settles_outsideTable`
    * `Rules.proceeds_settleText`
    * `Rules.settles_inTable`
    * `Rules.settles_inTableBody`
    * `Rules.settles_inRow`
    * `Rules.settles_inCell`
-/

namespace MarkupMetrics

namespace Html

open Dom

variable {t : Tree}
variable {reason : Prop}
variable {n : Nat}

namespace Rules

------------------------------------------------------------
-- Tables
------------------------------------------------------------

theorem settles_outsideTable
    {token : Token}
    (hToken : token.Harmless reason) :
    Settles t reason n (outsideTable token) := by
  refine Safe.note (fun _ => rfl) ?_
  refine (settles_inBody hToken).bind fun outcome hOutcome => ?_
  exact Safe.note (fun _ => rfl) (Safe.pure hOutcome)

theorem settles_tableText
    {token : Token}
    (hToken : token.Harmless reason) :
    Settles t reason n (tableText token) :=
  Safe.get fun _ =>
    Safe.ite
      (fun _ =>
        Safe.note (fun _ => rfl) (settles_retryIn _ hToken))
      (fun _ => settles_outsideTable hToken)

theorem settles_startTableForm
    (tag : Tag) :
    Settles t reason n (startTableForm tag) := by
  refine Safe.get fun b => ?_
  refine Safe.ite (fun _ => ?_) (fun _ => settles_done)
  refine (adds_placeElement _ _).safe.bind fun e _ => ?_
  exact Safe.note (fun _ => rfl) settles_done

theorem proceeds_popTo
    (p : QualName → Bool) :
    Proceeds t reason n (popTo p) :=
  proceeds_popWhile _

theorem proceeds_popToTable :
    Proceeds t reason n popToTable :=
  proceeds_popTo _

theorem proceeds_popToTableBody :
    Proceeds t reason n popToTableBody :=
  proceeds_popTo _

theorem proceeds_popToRow :
    Proceeds t reason n popToRow :=
  proceeds_popTo _

/- A part of a table is opened, and another mode taken. -/
theorem settles_openPart
    {clear : Build Unit}
    (hClear : Proceeds t reason n clear)
    (tag : Tag)
    (mode : Mode) :
    Settles t reason n (do
      clear
      openElement tag
      setMode mode
      return .done) :=
  hClear.andThen
    ((adds_openElement tag).safe.andThen (settles_setMode mode))

/- A part that was left out is opened first. -/
theorem settles_openMissing
    {clear : Build Unit}
    {token : Token}
    (hClear : Proceeds t reason n clear)
    (hToken : token.Harmless reason)
    (name : String)
    (mode : Mode) :
    Settles t reason n (do
      clear
      let _ ← insertMissing name
      retryIn mode token) :=
  hClear.andThen
    ((adds_insertElement _).safe.andThen
      (settles_retryIn mode hToken))

theorem settles_tableStart
    {tag : Tag}
    (hTag : tag.CutsOff → reason) :
    Settles t reason n (tableStart tag) := by
  have hToken : (Token.startTag tag).Harmless reason := hTag
  unfold tableStart
  refine Safe.ite (fun _ => ?_) fun _ => ?_
  · exact
      proceeds_popToTable.andThen
        (adds_pushMarker.safe.andThen
          ((adds_openElement tag).safe.andThen
            (settles_setMode _)))
  refine
    Safe.ite
      (fun _ => settles_openPart proceeds_popToTable tag _)
      fun _ => ?_
  refine
    Safe.ite
      (fun _ =>
        settles_openMissing proceeds_popToTable hToken _ _)
      fun _ => ?_
  refine
    Safe.ite
      (fun _ => settles_openPart proceeds_popToTable tag _)
      fun _ => ?_
  refine
    Safe.ite
      (fun _ =>
        settles_openMissing proceeds_popToTable hToken _ _)
      fun _ => ?_
  refine Safe.ite (fun _ => Safe.get fun _ => ?_) fun _ => ?_
  · exact
      Safe.ite
        (fun _ =>
          (proceeds_popUntil _).andThen
            (proceeds_resetMode.andThen (Safe.pure hToken)))
        (fun _ => settles_done)
  refine Safe.ite (fun _ => settles_inHead hToken) fun _ => ?_
  refine
    Safe.ite
      (fun _ => (adds_insertVoid tag).safe.andThen settles_done)
      fun _ => ?_
  exact
    Safe.ite (fun _ => settles_startTableForm tag)
      (fun _ => settles_outsideTable hToken)

theorem settles_tableEnd
    (tag : Tag) :
    Settles t reason n (tableEnd tag) := by
  unfold tableEnd
  refine Safe.ite (fun _ => Safe.get fun _ => ?_) fun _ => ?_
  · exact
      Safe.ite
        (fun _ =>
          (proceeds_popUntil _).andThen
            (proceeds_resetMode.andThen settles_done))
        (fun _ => settles_done)
  refine Safe.ite (fun _ => settles_done) fun _ => ?_
  exact
    Safe.ite (fun _ => settles_endTemplate)
      (fun _ => settles_outsideTable trivial)

theorem settles_inTable
    {token : Token}
    (hToken : token.Harmless reason) :
    Settles t reason n (inTable token) := by
  unfold inTable
  split
  · exact settles_tableText hToken
  · exact settles_tableText hToken
  · exact settles_keepComment
  · exact settles_tableStart hToken
  · exact settles_tableEnd _
  · exact settles_inBody hToken
  · exact settles_done

/- The text that waits is put somewhere, run by run. -/
theorem proceeds_settleText :
    Proceeds t reason n settleText := by
  refine Safe.get fun b => ?_
  refine Safe.note (fun _ => rfl) ?_
  refine Safe.ite (fun _ => ?_) (fun _ => ?_)
  · exact Safe.forM fun run _ => proceeds_appendText run.2
  · refine Safe.forM fun run _ => ?_
    have hText :
        Settles t reason n
          (outsideTable (.chars run.1 run.2)) :=
      settles_outsideTable trivial
    exact hText.andThen (Safe.done ())

theorem settles_inTableText
    {token : Token}
    (hToken : token.Harmless reason) :
    Settles t reason n (inTableText token) := by
  unfold inTableText
  split
  · exact Safe.note (fun _ => rfl) settles_done
  · exact settles_done
  · exact
      proceeds_settleText.andThen
        (Safe.get fun _ => settles_retryIn _ hToken)

------------------------------------------------------------
-- Captions and columns
------------------------------------------------------------

theorem settles_closeCaption
    {next : Build Outcome}
    (hNext : Settles t reason n next) :
    Settles t reason n (closeCaption next) :=
  Safe.get fun _ =>
    Safe.ite
      (fun _ =>
        settles_closeUntil
          (proceeds_dropToMarker.andThen hNext) _ _)
      (fun _ => settles_done)

theorem settles_inCaption
    {token : Token}
    (hToken : token.Harmless reason) :
    Settles t reason n (inCaption token) := by
  unfold inCaption
  split
  · exact
      Safe.ite
        (fun _ =>
          settles_closeCaption (settles_retryIn _ hToken))
        (fun _ => settles_inBody hToken)
  · refine
      Safe.ite
        (fun _ => settles_closeCaption (settles_setMode _))
        fun _ => ?_
    refine
      Safe.ite
        (fun _ =>
          settles_closeCaption (settles_retryIn _ hToken))
        fun _ => ?_
    exact
      Safe.ite (fun _ => settles_done)
        (fun _ => settles_inBody hToken)
  · exact settles_inBody hToken

theorem settles_closeColumnGroup
    {next : Build Outcome}
    (hNext : Settles t reason n next) :
    Settles t reason n (closeColumnGroup next) :=
  Safe.get fun _ =>
    Safe.ite (fun _ => proceeds_pop.andThen hNext)
      (fun _ => settles_done)

theorem settles_inColumnGroup
    {token : Token}
    (hToken : token.Harmless reason) :
    Settles t reason n (inColumnGroup token) := by
  have hClose :
      Settles t reason n
        (closeColumnGroup (retryIn .inTable token)) :=
    settles_closeColumnGroup (settles_retryIn _ hToken)
  unfold inColumnGroup
  split
  · exact settles_keepBlank _
  · exact settles_keepComment
  · refine Safe.ite (fun _ => settles_mergeRootAttrs _) fun _ => ?_
    refine
      Safe.ite
        (fun _ => (adds_insertVoid _).safe.andThen settles_done)
        fun _ => ?_
    exact
      Safe.ite (fun _ => settles_inHead hToken) (fun _ => hClose)
  · refine
      Safe.ite
        (fun _ => settles_closeColumnGroup (settles_setMode _))
        fun _ => ?_
    refine Safe.ite (fun _ => settles_done) fun _ => ?_
    exact
      Safe.ite (fun _ => settles_endTemplate) (fun _ => hClose)
  · exact settles_inBody hToken
  · exact hClose

------------------------------------------------------------
-- Parts and rows
------------------------------------------------------------

theorem settles_closeTableBody
    {inside : Bool}
    {next : Build Outcome}
    (hNext : Settles t reason n next) :
    Settles t reason n (closeTableBody inside next) :=
  Safe.ite
    (fun _ =>
      proceeds_popToTableBody.andThen (proceeds_pop.andThen hNext))
    (fun _ => settles_done)

theorem settles_inTableBody
    {token : Token}
    (hToken : token.Harmless reason) :
    Settles t reason n (inTableBody token) := by
  have hClose :
      ∀ inside,
        Settles t reason n
          (closeTableBody inside (retryIn .inTable token)) :=
    fun _ => settles_closeTableBody (settles_retryIn _ hToken)
  refine Safe.get fun b => ?_
  dsimp only
  split
  · refine
      Safe.ite
        (fun _ => settles_openPart proceeds_popToTableBody _ _)
        fun _ => ?_
    refine
      Safe.ite
        (fun _ =>
          settles_openMissing proceeds_popToTableBody hToken _ _)
        fun _ => ?_
    exact
      Safe.ite (fun _ => hClose _)
        (fun _ => settles_inTable hToken)
  · refine
      Safe.ite
        (fun _ => settles_closeTableBody (settles_setMode _))
        fun _ => ?_
    refine Safe.ite (fun _ => hClose _) fun _ => ?_
    exact
      Safe.ite (fun _ => settles_done)
        (fun _ => settles_inTable hToken)
  · exact settles_inTable hToken

theorem settles_closeRow
    {next : Build Outcome}
    (hNext : Settles t reason n next) :
    Settles t reason n (closeRow next) :=
  Safe.get fun _ =>
    Safe.ite
      (fun _ =>
        proceeds_popToRow.andThen (proceeds_pop.andThen hNext))
      (fun _ => settles_done)

theorem settles_inRow
    {token : Token}
    (hToken : token.Harmless reason) :
    Settles t reason n (inRow token) := by
  have hClose :
      Settles t reason n
        (closeRow (retryIn .inTableBody token)) :=
    settles_closeRow (settles_retryIn _ hToken)
  unfold inRow
  split
  · refine Safe.ite (fun _ => ?_) fun _ => ?_
    · exact
        proceeds_popToRow.andThen
          ((adds_openElement _).safe.andThen
            ((adds_setMode _).safe.andThen
              (adds_pushMarker.safe.andThen settles_done)))
    · exact
        Safe.ite (fun _ => hClose)
          (fun _ => settles_inTable hToken)
  · refine
      Safe.ite (fun _ => settles_closeRow (settles_setMode _))
        fun _ => ?_
    refine Safe.ite (fun _ => hClose) fun _ => ?_
    refine Safe.ite (fun _ => Safe.get fun _ => ?_) fun _ => ?_
    · exact
        Safe.ite (fun _ => hClose) (fun _ => settles_done)
    · exact
        Safe.ite (fun _ => settles_done)
          (fun _ => settles_inTable hToken)
  · exact settles_inTable hToken

------------------------------------------------------------
-- Cells
------------------------------------------------------------

theorem settles_closeCell
    {token : Token}
    (hToken : token.Harmless reason) :
    Settles t reason n (closeCell token) :=
  settles_closeUntil
    (proceeds_dropToMarker.andThen (settles_retryIn _ hToken)) _ _

theorem settles_inCell
    {token : Token}
    (hToken : token.Harmless reason) :
    Settles t reason n (inCell token) := by
  have hClose :
      ∀ {c : Prop} [Decidable c],
        Settles t reason n
          (if c then closeCell token else return .done) :=
    Safe.ite (fun _ => settles_closeCell hToken)
      (fun _ => settles_done)
  unfold inCell
  split
  · exact
      Safe.ite (fun _ => Safe.get fun _ => hClose)
        (fun _ => settles_inBody hToken)
  · refine Safe.ite (fun _ => Safe.get fun _ => ?_) fun _ => ?_
    · exact
        Safe.ite
          (fun _ =>
            settles_closeUntil
              (proceeds_dropToMarker.andThen (settles_setMode _))
              _ _)
          (fun _ => settles_done)
    · refine Safe.ite (fun _ => settles_done) fun _ => ?_
      exact
        Safe.ite (fun _ => Safe.get fun _ => hClose)
          (fun _ => settles_inBody hToken)
  · exact settles_inBody hToken

end Rules

end Html

end MarkupMetrics
