import MarkupMetrics.Html.Foreign
import MarkupMetrics.Html.HeadRules

/-
  This file defines the rules for ordinary content.

  Key definitions include:
    * `Rules.insertForeign`
    * `Rules.bodyStart`
    * `Rules.bodyEnd`
    * `Rules.inBody`
-/

namespace MarkupMetrics

namespace Html

open Dom

namespace Rules

------------------------------------------------------------
-- Kinds of tags
------------------------------------------------------------

/- Elements that end an open paragraph. -/
def blockNames : List String :=
  ["address", "article", "aside", "blockquote", "center",
    "details", "dialog", "dir", "div", "dl", "fieldset",
    "figcaption", "figure", "footer", "header", "hgroup", "main",
    "menu", "nav", "ol", "p", "search", "section", "summary",
    "ul"]

/- Elements whose end tag closes what is open inside them. -/
def blockEndNames : List String :=
  ["address", "article", "aside", "blockquote", "button",
    "center", "details", "dialog", "dir", "div", "dl",
    "fieldset", "figcaption", "figure", "footer", "header",
    "hgroup", "listing", "main", "menu", "nav", "ol", "pre",
    "search", "section", "select", "summary", "ul"]

/- Formatting elements without rules of their own. -/
def formattingNames : List String :=
  ["b", "big", "code", "em", "font", "i", "s", "small", "strike",
    "strong", "tt", "u"]

/- Elements whose content is formatted on its own. -/
def embeddedNames : List String :=
  ["applet", "marquee", "object"]

/- Elements that have a place in tables or frame sets only. -/
def misplacedNames : List String :=
  ["caption", "col", "colgroup", "frame", "head", "tbody", "td",
    "tfoot", "th", "thead", "tr"]

/- Whether an input field is hidden. -/
def isHiddenInput
    (t : Tag) : Bool :=
  match t.attr? "type" with
  | some value =>
      value.toList.map Char.toLower == "hidden".toList
  | none => false

------------------------------------------------------------
-- Start tags
------------------------------------------------------------

/- An element that ends an open paragraph. -/
def startBlock
    (t : Tag) : Build Outcome := do
  closeParagraphInScope
  openElement t
  return .done

/- An element of running text. -/
def startPlain
    (t : Tag) : Build Outcome := do
  reopenFormatting
  openElement t
  return .done

/- A formatting element. -/
def startFormatting
    (t : Tag) : Build Outcome := do
  reopenFormatting
  insertFormatting t
  return .done

/- A further `body` tag adds its attributes to the body. -/
def startBody
    (t : Tag) : Build Outcome := do
  let b ← get
  match b.body? with
  | some body =>
      if !b.inTemplate then
        forbidFrameset
        emit (.addAttributes body.handle (plainAttrs t))
  | none => pure ()
  return .done

/- A frame set replaces a body without content. -/
def startFrameset
    (t : Tag) : Build Outcome := do
  let b ← get
  match b.framesetOk, b.body? with
  | true, some body =>
      emit (.unlink body.handle)
      modify fun b =>
        { b with stack := b.stack.drop (b.stack.length - 1) }
      openElement t
      setMode .inFrameset
  | _, _ => pure ()
  return .done

/- A heading closes one that is open. -/
def startHeading
    (t : Tag) : Build Outcome := do
  closeParagraphInScope
  if (← get).currentIs (isHtmlAmong headings) then
    pop
  openElement t
  return .done

/- Preformatted text, whose first line end is left out. -/
def startPreformatted
    (t : Tag) : Build Outcome := do
  closeParagraphInScope
  openElement t
  modify fun b =>
    { b with skipLineFeed := true, framesetOk := false }
  return .done

/- A form, unless one is open. -/
def startForm
    (t : Tag) : Build Outcome := do
  if (← get).form.isNone || (← get).inTemplate then
    closeParagraphInScope
    let e ← insertElement t
    if !(← get).inTemplate then
      modify fun b => { b with form := some e.handle }
  return .done

/- Whether an element keeps an item open around it. -/
def holdsItem
    (n : QualName) : Bool :=
  isSpecial n && !isHtmlAmong ["address", "div", "p"] n

/- The name of the innermost open item of some names. -/
def openItem?
    (names : List String) : List OpenElement → Option String
  | [] => none
  | e :: rest =>
      if isHtmlAmong names e.name then some e.name.local_
      else if holdsItem e.name then none
      else openItem? names rest

/- An item of a list closes the one before it. -/
def startItem
    (t : Tag) : Build Outcome := do
  forbidFrameset
  let names := if t.name = "li" then ["li"] else ["dd", "dt"]
  match openItem? names (← get).stack with
  | some name =>
      closeImpliedExcept name
      popUntilNamed name
  | none => pure ()
  closeParagraphInScope
  openElement t
  return .done

/- Text that never ends. -/
def startPlaintext
    (t : Tag) : Build Outcome := do
  closeParagraphInScope
  openElement t
  return .readAs .plaintext

/- A button closes one that is open. -/
def startButton
    (t : Tag) : Build Outcome := do
  if (← get).hasInScope "button" then
    closeImplied
    popUntilNamed "button"
  reopenFormatting
  openElement t
  forbidFrameset
  return .done

/- A link closes one that is open. -/
def startLink
    (t : Tag) : Build Outcome := do
  closeOpenLink
  startFormatting t

/- Text that is not broken ends one that is open. -/
def startNoBreak
    (t : Tag) : Build Outcome := do
  reopenFormatting
  if (← get).hasInScope "nobr" then
    splitFormatting "nobr"
    reopenFormatting
  insertFormatting t
  return .done

/- An element whose content is formatted on its own. -/
def startEmbedded
    (t : Tag) : Build Outcome := do
  reopenFormatting
  openElement t
  pushMarker
  forbidFrameset
  return .done

/- A table ends a paragraph, except in loose rendering. -/
def startTable
    (t : Tag) : Build Outcome := do
  if (← get).rendering != .loose then
    closeParagraphInScope
  openElement t
  forbidFrameset
  setMode .inTable
  return .done

/- An element of running text without content. -/
def startVoid
    (t : Tag) : Build Outcome := do
  reopenFormatting
  insertVoid t
  forbidFrameset
  return .done

/- An input field closes an open choice. -/
def startInput
    (t : Tag) : Build Outcome := do
  if (← get).hasInScope "select" then
    popUntilNamed "select"
  reopenFormatting
  insertVoid t
  if !isHiddenInput t then
    forbidFrameset
  return .done

/- A rule ends a paragraph, and an option in a choice. -/
def startRule
    (t : Tag) : Build Outcome := do
  closeParagraphInScope
  if (← get).hasInScope "select" then
    closeImplied
  insertVoid t
  forbidFrameset
  return .done

/- A text field, whose first line end is left out. -/
def startTextField
    (t : Tag) : Build Outcome := do
  modify fun b =>
    { b with skipLineFeed := true, framesetOk := false }
  insertSpecialText t .rcdata

/- An example, whose text has no tags. -/
def startExample
    (t : Tag) : Build Outcome := do
  closeParagraphInScope
  reopenFormatting
  forbidFrameset
  insertSpecialText t .rawtext

/- A choice, unless one is open, which is closed instead. -/
def startSelect
    (t : Tag) : Build Outcome := do
  if (← get).hasInScope "select" then
    popUntilNamed "select"
  else
    reopenFormatting
    openElement t
    forbidFrameset
  return .done

/- An option closes the one before it. -/
def startOption
    (t : Tag) : Build Outcome := do
  let b ← get
  if b.hasInScope "select" then
    closeImpliedExcept "optgroup"
  else if b.currentIs (isHtml "option") then
    pop
  startPlain t

/- A group of options closes the one before it. -/
def startOptionGroup
    (t : Tag) : Build Outcome := do
  let b ← get
  if b.hasInScope "select" then
    closeImplied
  else if b.currentIs (isHtml "option") then
    pop
  startPlain t

/- A part of a text with readings. -/
def startRubyPart
    (t : Tag) : Build Outcome := do
  if (← get).hasInScope "ruby" then
    if t.isAmong ["rb", "rtc"] then
      closeImplied
    else
      closeImpliedExcept "rtc"
  openElement t
  return .done

/- An element of a drawing or a formula. -/
def insertForeign
    (space : Namespace)
    (name : String)
    (t : Tag) : Build Outcome := do
  let e ← placeElement ⟨none, space, name⟩ (foreignAttrs space t)
  if !t.selfClosing then
    push e
  return .done

/- The start tags of ordinary content. -/
def bodyStart
    (t : Tag) : Build Outcome :=
  if t.name = "html" then mergeRootAttrs t
  else if t.isAmong headTags then inHead (.startTag t)
  else if t.name = "body" then startBody t
  else if t.name = "frameset" then startFrameset t
  else if t.isAmong blockNames then startBlock t
  else if t.isAmong headings then startHeading t
  else if t.isAmong ["pre", "listing"] then startPreformatted t
  else if t.name = "form" then startForm t
  else if t.isAmong ["li", "dd", "dt"] then startItem t
  else if t.name = "plaintext" then startPlaintext t
  else if t.name = "button" then startButton t
  else if t.name = "a" then startLink t
  else if t.isAmong formattingNames then startFormatting t
  else if t.name = "nobr" then startNoBreak t
  else if t.isAmong embeddedNames then startEmbedded t
  else if t.name = "table" then startTable t
  else if t.isAmong
      ["area", "br", "embed", "img", "keygen", "wbr"] then
    startVoid t
  else if t.name = "image" then startVoid { t with name := "img" }
  else if t.name = "input" then startInput t
  else if t.isAmong ["param", "source", "track"] then do
    insertVoid t
    return .done
  else if t.name = "hr" then startRule t
  else if t.name = "textarea" then startTextField t
  else if t.name = "xmp" then startExample t
  else if t.name = "iframe" then do
    forbidFrameset
    insertSpecialText t .rawtext
  else if t.name = "noembed" then insertSpecialText t .rawtext
  else if t.name = "select" then startSelect t
  else if t.name = "option" then startOption t
  else if t.name = "optgroup" then startOptionGroup t
  else if t.isAmong ["rb", "rtc", "rp", "rt"] then startRubyPart t
  else if t.name = "math" then insertForeign .mathml t.name t
  else if t.name = "svg" then insertForeign .svg t.name t
  else if t.isAmong misplacedNames then ignore
  else startPlain t

------------------------------------------------------------
-- End tags
------------------------------------------------------------

/- The end of an element that closes what is inside it. -/
def endBlock
    (t : Tag) : Build Outcome := do
  if (← get).hasInScope t.name then
    closeImplied
    popUntilNamed t.name
  return .done

/- The end of the form that was opened last. -/
def endForm : Build Outcome := do
  let b ← get
  if b.inTemplate then
    if b.hasInScope "form" then
      closeImplied
      popUntilNamed "form"
  else
    modify fun b => { b with form := none }
    match b.form with
    | none => pure ()
    | some form =>
        if Builder.reaches endsScope (·.handle == form) b.stack then
          closeImplied
          close form
  return .done

/- The end of a paragraph, which is made if there is none. -/
def endParagraph : Build Outcome := do
  if !(← get).inScope endsButtonScope (isHtml "p") then
    let _ ← insertMissing "p"
  closeParagraph
  return .done

/- The end of an item of a list. -/
def endItem
    (t : Tag) : Build Outcome := do
  let stop := if t.name = "li" then endsListScope else endsScope
  if (← get).inScope stop (isHtml t.name) then
    closeImpliedExcept t.name
    popUntilNamed t.name
  return .done

/- The end of a heading of any level. -/
def endHeading : Build Outcome := do
  if (← get).inScope endsScope (isHtmlAmong headings) then
    closeImplied
    popUntil (isHtmlAmong headings)
  return .done

/- The end of an element with formatting of its own. -/
def endEmbedded
    (t : Tag) : Build Outcome := do
  if (← get).hasInScope t.name then
    closeImplied
    popUntilNamed t.name
    dropToMarker
  return .done

/- The end tags of ordinary content. -/
def bodyEnd
    (t : Tag) : Build Outcome :=
  if t.name = "template" then endTemplate
  else if t.name = "body" then do
    if (← get).hasInScope "body" then
      setMode .afterBody
    return .done
  else if t.name = "html" then do
    if (← get).hasInScope "body" then
      retryIn .afterBody (.endTag t)
    else
      return .done
  else if t.isAmong blockEndNames then endBlock t
  else if t.name = "form" then endForm
  else if t.name = "p" then endParagraph
  else if t.isAmong ["li", "dd", "dt"] then endItem t
  else if t.isAmong headings then endHeading
  else if t.isAmong ("a" :: "nobr" :: formattingNames) then do
    splitFormatting t.name
    return .done
  else if t.isAmong embeddedNames then endEmbedded t
  else if t.name = "br" then startVoid { name := "br" }
  else do
    closeNamed t.name
    return .done

------------------------------------------------------------
-- Tokens
------------------------------------------------------------

/- Ordinary text. -/
def bodyText
    (blank : Bool)
    (text : List Char) : Build Outcome := do
  reopenFormatting
  if !blank then
    forbidFrameset
  appendText text
  return .done

/- The rules for ordinary content. -/
def inBody
    (token : Token) : Build Outcome :=
  match token with
  | .chars blank text => bodyText blank text
  | .comment => keepComment
  | .startTag t => bodyStart t
  | .endTag t => bodyEnd t
  | .eof => do
      if (← get).templateModes.isEmpty then
        return .done
      else
        endPageInTemplate
  | _ => ignore

end Rules

end Html

end MarkupMetrics
