import MarkupMetrics.Html.BodyRules

/-
  This file defines the rules in tables.  Content that a
  table does not take is put before it.

  Key definitions include:
    * `Rules.outsideTable`
    * `Rules.inTable`
    * `Rules.inTableText`
    * `Rules.inCaption`
    * `Rules.inColumnGroup`
    * `Rules.inTableBody`
    * `Rules.inRow`
    * `Rules.inCell`
-/

namespace MarkupMetrics

namespace Html

open Dom

namespace Rules

------------------------------------------------------------
-- Tables
------------------------------------------------------------

/- Read a token as ordinary content outside the table. -/
def outsideTable
    (token : Token) : Build Outcome := do
  modify fun b => { b with fostering := true }
  let outcome ← inBody token
  modify fun b => { b with fostering := false }
  return outcome

/- Close elements until a table is innermost. -/
def popToTable : Build Unit :=
  popTo (isHtmlAmong ["table", "template", "html"])

/- Close elements until a part of a table is innermost. -/
def popToTableBody : Build Unit :=
  popTo
    (isHtmlAmong
      ["tbody", "tfoot", "thead", "template", "html"])

/- Close elements until a row is innermost. -/
def popToRow : Build Unit :=
  popTo (isHtmlAmong ["tr", "template", "html"])

/- Text in a table waits until its end. -/
def tableText
    (token : Token) : Build Outcome := do
  if (← get).currentIs (isHtmlAmong tableParts) then
    modify fun b => { b with returnMode := b.mode }
    retryIn .inTableText token
  else
    outsideTable token

/- A form in a table holds nothing. -/
def startTableForm
    (t : Tag) : Build Outcome := do
  let b ← get
  if !b.inTemplate && b.form.isNone then
    let e ← placeElement (.html t.name) (plainAttrs t)
    modify fun b => { b with form := some e.handle }
  return .done

/- The start tags in a table. -/
def tableStart
    (t : Tag) : Build Outcome :=
  if t.name = "caption" then do
    popToTable
    pushMarker
    openElement t
    setMode .inCaption
    return .done
  else if t.name = "colgroup" then do
    popToTable
    openElement t
    setMode .inColumnGroup
    return .done
  else if t.name = "col" then do
    popToTable
    let _ ← insertMissing "colgroup"
    retryIn .inColumnGroup (.startTag t)
  else if t.isAmong ["tbody", "tfoot", "thead"] then do
    popToTable
    openElement t
    setMode .inTableBody
    return .done
  else if t.isAmong ["td", "th", "tr"] then do
    popToTable
    let _ ← insertMissing "tbody"
    retryIn .inTableBody (.startTag t)
  else if t.name = "table" then do
    if (← get).hasInTable "table" then
      popUntilNamed "table"
      resetMode
      return .again (.startTag t)
    else
      return .done
  else if t.isAmong ["style", "script", "template"] then
    inHead (.startTag t)
  else if t.name = "input" && isHiddenInput t then do
    insertVoid t
    return .done
  else if t.name = "form" then startTableForm t
  else outsideTable (.startTag t)

/- The end tags in a table. -/
def tableEnd
    (t : Tag) : Build Outcome :=
  if t.name = "table" then do
    if (← get).hasInTable "table" then
      popUntilNamed "table"
      resetMode
    return .done
  else if t.isAmong
      ["body", "caption", "col", "colgroup", "html", "tbody",
        "td", "tfoot", "th", "thead", "tr"] then
    ignore
  else if t.name = "template" then endTemplate
  else outsideTable (.endTag t)

/- The rules in a table. -/
def inTable
    (token : Token) : Build Outcome :=
  match token with
  | .chars _ _ => tableText token
  | .nul => tableText token
  | .comment => keepComment
  | .startTag t => tableStart t
  | .endTag t => tableEnd t
  | .eof => inBody token
  | _ => ignore

/-
  Put the text that waits into the table if it is blank, and
  before the table if not.
-/
def settleText : Build Unit := do
  let pending := (← get).pending.reverse
  modify fun b => { b with pending := [] }
  if pending.all fun run => run.1 then
    pending.forM fun run => appendText run.2
  else
    pending.forM fun run => do
      let _ ← outsideTable (.chars run.1 run.2)

/- The rules in the text of a table. -/
def inTableText
    (token : Token) : Build Outcome :=
  match token with
  | .chars blank text => do
      modify fun b =>
        { b with pending := (blank, text) :: b.pending }
      return .done
  | .nul => ignore
  | _ => do
      settleText
      retryIn (← get).returnMode token

------------------------------------------------------------
-- Captions and columns
------------------------------------------------------------

/- Close the caption, and read on in the table. -/
def closeCaption
    (next : Build Outcome) : Build Outcome := do
  if (← get).hasInTable "caption" then
    closeImplied
    popUntilNamed "caption"
    dropToMarker
    next
  else
    return .done

/- The rules in the caption of a table. -/
def inCaption
    (token : Token) : Build Outcome :=
  match token with
  | .startTag t =>
      if t.isAmong
          ["caption", "col", "colgroup", "tbody", "td", "tfoot",
            "th", "thead", "tr"] then
        closeCaption (retryIn .inTable token)
      else inBody token
  | .endTag t =>
      if t.name = "caption" then
        closeCaption do
          setMode .inTable
          return .done
      else if t.name = "table" then
        closeCaption (retryIn .inTable token)
      else if t.isAmong
          ["body", "col", "colgroup", "html", "tbody", "td",
            "tfoot", "th", "thead", "tr"] then
        ignore
      else inBody token
  | _ => inBody token

/- Close the group of columns, and read on in the table. -/
def closeColumnGroup
    (next : Build Outcome) : Build Outcome := do
  if (← get).currentIs (isHtml "colgroup") then
    pop
    next
  else
    return .done

/- The rules in a group of columns. -/
def inColumnGroup
    (token : Token) : Build Outcome :=
  match token with
  | .chars true text => keepBlank text
  | .comment => keepComment
  | .startTag t =>
      if t.name = "html" then mergeRootAttrs t
      else if t.name = "col" then do
        insertVoid t
        return .done
      else if t.name = "template" then inHead token
      else closeColumnGroup (retryIn .inTable token)
  | .endTag t =>
      if t.name = "colgroup" then
        closeColumnGroup do
          setMode .inTable
          return .done
      else if t.name = "col" then ignore
      else if t.name = "template" then endTemplate
      else closeColumnGroup (retryIn .inTable token)
  | .eof => inBody token
  | _ => closeColumnGroup (retryIn .inTable token)

------------------------------------------------------------
-- Parts and rows
------------------------------------------------------------

/- Close the part of the table, and go on in the table. -/
def closeTableBody
    (inside : Bool)
    (next : Build Outcome) : Build Outcome := do
  if inside then
    popToTableBody
    pop
    next
  else
    return .done

/- The rules in a part of a table. -/
def inTableBody
    (token : Token) : Build Outcome := do
  let b ← get
  let inPart :=
    b.inScope endsTableScope
      (isHtmlAmong ["table", "tbody", "tfoot"])
  match token with
  | .startTag t =>
      if t.name = "tr" then
        popToTableBody
        openElement t
        setMode .inRow
        return .done
      else if t.isAmong ["th", "td"] then
        popToTableBody
        let _ ← insertMissing "tr"
        retryIn .inRow token
      else if t.isAmong
          ["caption", "col", "colgroup", "tbody", "tfoot",
            "thead"] then
        closeTableBody inPart (retryIn .inTable token)
      else
        inTable token
  | .endTag t =>
      if t.isAmong ["tbody", "tfoot", "thead"] then
        closeTableBody (b.hasInTable t.name) do
          setMode .inTable
          return .done
      else if t.name = "table" then
        closeTableBody inPart (retryIn .inTable token)
      else if t.isAmong
          ["body", "caption", "col", "colgroup", "html", "td",
            "th", "tr"] then
        ignore
      else
        inTable token
  | _ => inTable token

/- Close the row, and go on in its part of the table. -/
def closeRow
    (next : Build Outcome) : Build Outcome := do
  if (← get).hasInTable "tr" then
    popToRow
    pop
    next
  else
    return .done

/- The rules in a row. -/
def inRow
    (token : Token) : Build Outcome :=
  match token with
  | .startTag t =>
      if t.isAmong ["th", "td"] then do
        popToRow
        openElement t
        setMode .inCell
        pushMarker
        return .done
      else if t.isAmong
          ["caption", "col", "colgroup", "tbody", "tfoot",
            "thead", "tr"] then
        closeRow (retryIn .inTableBody token)
      else inTable token
  | .endTag t =>
      if t.name = "tr" then
        closeRow do
          setMode .inTableBody
          return .done
      else if t.name = "table" then
        closeRow (retryIn .inTableBody token)
      else if t.isAmong ["tbody", "tfoot", "thead"] then do
        if (← get).hasInTable t.name then
          closeRow (retryIn .inTableBody token)
        else
          return .done
      else if t.isAmong
          ["body", "caption", "col", "colgroup", "html", "td",
            "th"] then
        ignore
      else inTable token
  | _ => inTable token

------------------------------------------------------------
-- Cells
------------------------------------------------------------

/- Close the cell, and go on in its row. -/
def closeCell
    (token : Token) : Build Outcome := do
  closeImplied
  popUntil (isHtmlAmong ["td", "th"])
  dropToMarker
  retryIn .inRow token

/- The rules in a cell. -/
def inCell
    (token : Token) : Build Outcome :=
  match token with
  | .startTag t =>
      if t.isAmong
          ["caption", "col", "colgroup", "tbody", "td", "tfoot",
            "th", "thead", "tr"] then do
        if (← get).inScope endsTableScope
            (isHtmlAmong ["td", "th"]) then
          closeCell token
        else
          return .done
      else inBody token
  | .endTag t =>
      if t.isAmong ["td", "th"] then do
        if (← get).hasInTable t.name then
          closeImplied
          popUntilNamed t.name
          dropToMarker
          setMode .inRow
        return .done
      else if t.isAmong
          ["body", "caption", "col", "colgroup", "html"] then
        ignore
      else if t.isAmong
          ["table", "tbody", "tfoot", "thead", "tr"] then do
        if (← get).hasInTable t.name then
          closeCell token
        else
          return .done
      else inBody token
  | _ => inBody token

end Rules

end Html

end MarkupMetrics
