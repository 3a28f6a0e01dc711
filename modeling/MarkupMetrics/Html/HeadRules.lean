import MarkupMetrics.Html.Encoding
import MarkupMetrics.Html.Formatting

/-
  This file defines the rules before and in the head of a
  page, and those for templates.

  Key definitions include:
    * `Rules.mergeRootAttrs`
    * `Rules.startTemplate`
    * `Rules.endTemplate`
    * `Rules.endPageInTemplate`
    * `Rules.inHead`
    * `Rules.afterHead`
-/

namespace MarkupMetrics

namespace Html

open Dom

/- Whether a tag has one of several names. -/
def Tag.isAmong
    (t : Tag)
    (names : List String) : Bool :=
  names.contains t.name

namespace Rules

------------------------------------------------------------
-- Shared rules
------------------------------------------------------------

/- Leave a token out. -/
def ignore : Build Outcome :=
  return .done

/- A further `html` tag adds its attributes to the root. -/
def mergeRootAttrs
    (t : Tag) : Build Outcome := do
  let b ← get
  if !b.inTemplate then
    match b.root? with
    | some root => emit (.addAttributes root.handle (plainAttrs t))
    | none => pure ()
  return .done

/- Text that has a place where only blanks are allowed. -/
def keepBlank
    (text : List Char) : Build Outcome := do
  appendText text
  return .done

/- A comment at the innermost open element. -/
def keepComment : Build Outcome := do
  appendComment
  return .done

/- A comment at the end of the document. -/
def commentOnDocument : Build Outcome := do
  appendCommentTo documentHandle
  return .done

/- A comment at the end of the outermost element. -/
def commentOnRoot : Build Outcome := do
  match (← get).root? with
  | some root => appendCommentTo root.handle
  | none => pure ()
  return .done

/- End tags that make up for a start tag that was left out. -/
def isEarlyEnd
    (t : Tag) : Bool :=
  t.isAmong ["head", "body", "html", "br"]

------------------------------------------------------------
-- Templates
------------------------------------------------------------

/-
  Whether a template asks to become the inner tree of the
  element around it.
-/
def asksForShadow
    (b : Builder)
    (t : Tag) : Bool :=
  (t.attr? "shadowrootmode" == some "open" ||
    t.attr? "shadowrootmode" == some "closed") &&
    b.stack.length > 1

/-
  The start of a template.  One that asks to become an inner
  tree is made once in vain, as no element takes it.
-/
def startTemplate
    (t : Tag) : Build Outcome := do
  pushMarker
  forbidFrameset
  modify fun b =>
    { b with
      mode := .inTemplate
      templateModes := .inTemplate :: b.templateModes }
  if asksForShadow (← get) t then
    let _ ← make (.createElement (.html t.name) (plainAttrs t))
  openElement t
  return .done

/- Close the innermost template. -/
def closeTemplate : Build Unit := do
  popUntilNamed "template"
  dropToMarker
  modify fun b =>
    { b with templateModes := b.templateModes.drop 1 }
  resetMode

/- The end tag of a template. -/
def endTemplate : Build Outcome := do
  if (← get).inTemplate then
    popWhile (isHtmlAmong thoroughImpliedEnds)
    closeTemplate
  return .done

/- The end of the page closes every open template. -/
def endPageInTemplate : Build Outcome := do
  if (← get).inTemplate then
    closeTemplate
    return .again .eof
  else
    return .done

------------------------------------------------------------
-- In the head
------------------------------------------------------------

/- Tags that have a place in the head wherever they stand. -/
def headTags : List String :=
  ["base", "basefont", "bgsound", "link", "meta", "noframes",
    "script", "style", "template", "title"]

/-
  An element of the head that has no content.  If it declares
  the encoding of the page, reading starts anew.
-/
def insertDeclaration
    (t : Tag) : Build Outcome := do
  insertVoid t
  return if ← t.declaresEncoding then .readAnew else .done

/- A start tag in the head, if the head takes it. -/
def headStart?
    (t : Tag) : Option (Build Outcome) :=
  if t.name = "html" then some (mergeRootAttrs t)
  else if t.isAmong
      ["base", "basefont", "bgsound", "link", "meta"] then
    some (insertDeclaration t)
  else if t.name = "title" then
    some (insertSpecialText t .rcdata)
  else if t.isAmong ["noframes", "style"] then
    some (insertSpecialText t .rawtext)
  else if t.name = "noscript" then
    some do
      openElement t
      setMode .inHeadNoscript
      return .done
  else if t.name = "script" then
    some (insertSpecialText t .script)
  else if t.name = "template" then some (startTemplate t)
  else if t.name = "head" then some ignore
  else none

/- Leave the head, and take the token up again. -/
def leaveHead
    (token : Token) : Build Outcome := do
  pop
  retryIn .afterHead token

/- The rules in the head. -/
def inHead
    (token : Token) : Build Outcome :=
  match token with
  | .chars true text => keepBlank text
  | .comment => keepComment
  | .startTag t =>
      match headStart? t with
      | some action => action
      | none => leaveHead token
  | .endTag t =>
      if t.name = "head" then do
        pop
        setMode .afterHead
        return .done
      else if t.name = "template" then endTemplate
      else if isEarlyEnd t then leaveHead token
      else ignore
  | _ => leaveHead token

/- Leave the replacement for scripts, and try again. -/
def leaveNoscript
    (token : Token) : Build Outcome := do
  pop
  retryIn .inHead token

/- The rules in the head's replacement for scripts. -/
def inHeadNoscript
    (token : Token) : Build Outcome :=
  match token with
  | .chars true _ => inHead token
  | .comment => inHead token
  | .startTag t =>
      if t.name = "html" then mergeRootAttrs t
      else if t.isAmong
          ["basefont", "bgsound", "link", "meta", "noframes",
            "style"] then
        inHead token
      else if t.isAmong ["head", "noscript"] then ignore
      else leaveNoscript token
  | .endTag t =>
      if t.name = "noscript" then leaveNoscriptAtEnd
      else if t.name = "br" then leaveNoscript token
      else ignore
  | _ => leaveNoscript token
where
  leaveNoscriptAtEnd : Build Outcome := do
    pop
    setMode .inHead
    return .done

------------------------------------------------------------
-- Around the head
------------------------------------------------------------

/- The rules at the start of a page. -/
def initial
    (token : Token) : Build Outcome :=
  match token with
  | .chars true _ => ignore
  | .comment => commentOnDocument
  | _ => do
      modify fun b => { b with rendering := .loose }
      retryIn .beforeHtml token

/- Make the outermost element. -/
def openRoot
    (t : Tag) : Build Unit := do
  let name := QualName.html "html"
  let handle ← make (.createElement name (plainAttrs t))
  push ⟨handle, name⟩
  emit (.append documentHandle (.node handle))

/- The rules before the outermost element. -/
def beforeHtml
    (token : Token) : Build Outcome :=
  match token with
  | .chars true _ => ignore
  | .comment => commentOnDocument
  | .startTag t =>
      if t.name = "html" then do
        openRoot t
        setMode .beforeHead
        return .done
      else openMissing
  | .endTag t => if isEarlyEnd t then openMissing else ignore
  | _ => openMissing
where
  openMissing : Build Outcome := do
    openRoot { name := "html" }
    retryIn .beforeHead token

/- Note the head. -/
def setHead
    (e : OpenElement) : Build Unit :=
  modify fun b => { b with head := some e.handle }

/- The rules before the head. -/
def beforeHead
    (token : Token) : Build Outcome :=
  match token with
  | .chars true _ => ignore
  | .comment => keepComment
  | .startTag t =>
      if t.name = "html" then mergeRootAttrs t
      else if t.name = "head" then do
        setHead (← insertElement t)
        setMode .inHead
        return .done
      else openMissing
  | .endTag t => if isEarlyEnd t then openMissing else ignore
  | _ => openMissing
where
  openMissing : Build Outcome := do
    setHead (← insertMissing "head")
    retryIn .inHead token

/- Put what belongs into the head there after its end. -/
def addToHead
    (token : Token) : Build Outcome := do
  match (← get).head with
  | none => inHead token
  | some handle =>
      push ⟨handle, .html "head"⟩
      let outcome ← inHead token
      close handle
      return outcome

/- The rules between the head and the body. -/
def afterHead
    (token : Token) : Build Outcome :=
  match token with
  | .chars true text => keepBlank text
  | .comment => keepComment
  | .startTag t =>
      if t.name = "html" then mergeRootAttrs t
      else if t.name = "body" then do
        openElement t
        forbidFrameset
        setMode .inBody
        return .done
      else if t.name = "frameset" then do
        openElement t
        setMode .inFrameset
        return .done
      else if t.isAmong headTags then addToHead token
      else if t.name = "head" then ignore
      else openMissing
  | .endTag t =>
      if t.name = "template" then inHead token
      else if t.isAmong ["body", "html", "br"] then openMissing
      else ignore
  | _ => openMissing
where
  openMissing : Build Outcome := do
    let _ ← insertMissing "body"
    retryIn .inBody token

end Rules

end Html

end MarkupMetrics
