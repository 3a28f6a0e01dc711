import MarkupMetrics.Html.TableRules

/-
  This file defines the rules in templates, after the body,
  in frame sets, in special text and in drawings and
  formulas, and applies the rules that fit a token.

  Key definitions include:
    * `Rules.inTemplate`
    * `Rules.apply`
    * `Rules.isForeign`
    * `Rules.inForeign`
    * `Rules.settle`
    * `Rules.takeToken`
-/

namespace MarkupMetrics

namespace Html

open Dom

namespace Rules

------------------------------------------------------------
-- Special text and templates
------------------------------------------------------------

/-
  The rules in an element with special text.  After a script
  reading starts anew.
-/
def inText
    (token : Token) : Build Outcome :=
  match token with
  | .chars _ text => keepBlank text
  | .endTag t => do
      pop
      setMode (← get).returnMode
      return if t.name = "script" then .readAnew else .done
  | .eof => do
      pop
      retryIn (← get).returnMode token
  | _ => ignore

/- Let a template go on in another mode. -/
def switchTemplate
    (mode : Mode)
    (token : Token) : Build Outcome := do
  modify fun b =>
    { b with templateModes := mode :: b.templateModes.drop 1 }
  retryIn mode token

/- The rules at the start of a template's content. -/
def inTemplate
    (token : Token) : Build Outcome :=
  match token with
  | .chars _ _ => inBody token
  | .comment => inBody token
  | .startTag t =>
      if t.isAmong headTags then inHead token
      else if t.isAmong
          ["caption", "colgroup", "tbody", "tfoot", "thead"] then
        switchTemplate .inTable token
      else if t.name = "col" then
        switchTemplate .inColumnGroup token
      else if t.name = "tr" then switchTemplate .inTableBody token
      else if t.isAmong ["td", "th"] then
        switchTemplate .inRow token
      else switchTemplate .inBody token
  | .endTag t =>
      if t.name = "template" then endTemplate else ignore
  | .eof => endPageInTemplate
  | _ => ignore

------------------------------------------------------------
-- After the body and in frame sets
------------------------------------------------------------

/- The rules after the body. -/
def afterBody
    (token : Token) : Build Outcome :=
  match token with
  | .chars true _ => inBody token
  | .comment => commentOnRoot
  | .startTag t =>
      if t.name = "html" then mergeRootAttrs t
      else retryIn .inBody token
  | .endTag t =>
      if t.name = "html" then do
        setMode .afterAfterBody
        return .done
      else retryIn .inBody token
  | .eof => ignore
  | _ => retryIn .inBody token

/- The rules in a frame set. -/
def inFrameset
    (token : Token) : Build Outcome :=
  match token with
  | .chars true text => keepBlank text
  | .comment => keepComment
  | .startTag t =>
      if t.name = "html" then mergeRootAttrs t
      else if t.name = "frameset" then do
        openElement t
        return .done
      else if t.name = "frame" then do
        insertVoid t
        return .done
      else if t.name = "noframes" then inHead token
      else ignore
  | .endTag t =>
      if t.name = "frameset" then do
        if (← get).stack.length != 1 then
          pop
          if !(← get).currentIs (isHtml "frameset") then
            setMode .afterFrameset
        return .done
      else ignore
  | _ => ignore

/- The rules after a frame set. -/
def afterFrameset
    (token : Token) : Build Outcome :=
  match token with
  | .chars true text => keepBlank text
  | .comment => keepComment
  | .startTag t =>
      if t.name = "html" then mergeRootAttrs t
      else if t.name = "noframes" then inHead token
      else ignore
  | .endTag t =>
      if t.name = "html" then do
        setMode .afterAfterFrameset
        return .done
      else ignore
  | _ => ignore

/- The rules after the end of the page. -/
def afterAfterBody
    (token : Token) : Build Outcome :=
  match token with
  | .chars true _ => inBody token
  | .comment => commentOnDocument
  | .startTag t =>
      if t.name = "html" then mergeRootAttrs t
      else retryIn .inBody token
  | .eof => ignore
  | _ => retryIn .inBody token

/- The rules after the end of a page with frames. -/
def afterAfterFrameset
    (token : Token) : Build Outcome :=
  match token with
  | .chars true _ => inBody token
  | .comment => commentOnDocument
  | .startTag t =>
      if t.name = "html" then mergeRootAttrs t
      else if t.name = "noframes" then inHead token
      else ignore
  | _ => ignore

------------------------------------------------------------
-- Modes
------------------------------------------------------------

/- Apply the rules of a mode. -/
def apply
    (mode : Mode)
    (token : Token) : Build Outcome :=
  match mode with
  | .initial => initial token
  | .beforeHtml => beforeHtml token
  | .beforeHead => beforeHead token
  | .inHead => inHead token
  | .inHeadNoscript => inHeadNoscript token
  | .afterHead => afterHead token
  | .inBody => inBody token
  | .text => inText token
  | .inTable => inTable token
  | .inTableText => inTableText token
  | .inCaption => inCaption token
  | .inColumnGroup => inColumnGroup token
  | .inTableBody => inTableBody token
  | .inRow => inRow token
  | .inCell => inCell token
  | .inTemplate => inTemplate token
  | .afterBody => afterBody token
  | .inFrameset => inFrameset token
  | .afterFrameset => afterFrameset token
  | .afterAfterBody => afterAfterBody token
  | .afterAfterFrameset => afterAfterFrameset token

/- Apply the rules of the present mode. -/
def applyCurrent
    (token : Token) : Build Outcome := do
  apply (← get).mode token

------------------------------------------------------------
-- Drawings and formulas
------------------------------------------------------------

/- Whether a token is read as part of a drawing or formula. -/
def isForeign
    (b : Builder)
    (token : Token) : Bool :=
  match b.current? with
  | none => false
  | some e =>
      if e.name.space == .html then false
      else
        match token with
        | .eof => false
        | .chars _ _ | .nul =>
            !isMathTextPoint e.name && !isSvgHtmlPoint e.name
        | .startTag t =>
            !(isMathTextPoint e.name &&
                !t.isAmong ["mglyph", "malignmark"]) &&
              !isSvgHtmlPoint e.name &&
              !(e.name.space == .mathml &&
                e.name.local_ == "annotation-xml" &&
                t.name == "svg")
        | _ => true

/- Start tags that end every open drawing and formula. -/
def breakoutNames : List String :=
  ["b", "big", "blockquote", "body", "br", "center", "code",
    "dd", "div", "dl", "dt", "em", "embed", "h1", "h2", "h3",
    "h4", "h5", "h6", "head", "hr", "i", "img", "li", "listing",
    "menu", "meta", "nobr", "ol", "p", "pre", "ruby", "s",
    "small", "span", "strong", "strike", "sub", "sup", "table",
    "tt", "u", "ul", "var"]

/- Whether a start tag ends every open drawing and formula. -/
def breaksOut
    (t : Tag) : Bool :=
  t.isAmong breakoutNames ||
    (t.name == "font" &&
      ["color", "face", "size"].any fun name =>
        (t.attr? name).isSome)

/- Close drawings and formulas, and apply the usual rules. -/
def breakOut
    (token : Token) : Build Outcome := do
  popTo fun n =>
    n.space == .html || isMathTextPoint n || isSvgHtmlPoint n
  applyCurrent token

/- A start tag in a drawing or formula. -/
def startInForeign
    (t : Tag) : Build Outcome := do
  match (← get).current? with
  | none => return .done
  | some e =>
      let name :=
        if e.name.space == .svg then svgTagName t.name
        else t.name
      insertForeign e.name.space name t

/-
  An end tag in a drawing or formula closes the innermost
  element of its name, in any letter case, as long as no
  HTML element comes in between.
-/
def endInForeign
    (t : Tag)
    (first : Bool) : List OpenElement → Build Outcome
  | [] => return .done
  | [_] => return .done
  | e :: rest =>
      if !first && e.name.space == .html then
        applyCurrent (.endTag t)
      else if e.name.local_.toList.map Char.toLower =
          t.name.toList.map Char.toLower then do
        modify fun b => { b with stack := rest }
        return .done
      else endInForeign t false rest

/- The rules in drawings and formulas. -/
def inForeign
    (token : Token) : Build Outcome :=
  match token with
  | .nul => keepBlank [Char.ofNat 0xfffd]
  | .chars blank text => do
      if !blank then
        forbidFrameset
      keepBlank text
  | .comment => keepComment
  | .startTag t =>
      if breaksOut t then breakOut token else startInForeign t
  | .endTag t =>
      if t.isAmong ["br", "p"] then breakOut token
      else do
        endInForeign t true (← get).stack
  | _ => ignore

------------------------------------------------------------
-- Tokens
------------------------------------------------------------

/-
  Apply the rules that fit, until the token is settled.  The
  fuel bounds the number of rules.
-/
def settle : Nat → Token → Build Outcome
  | 0, _ => return .done
  | fuel + 1, token => do
      let b ← get
      let outcome ←
        if isForeign b token then inForeign token
        else apply b.mode token
      match outcome with
      | .again token => settle fuel token
      | outcome => return outcome

/- Settle a token. -/
def settleToken
    (token : Token) : Build Outcome := do
  settle (20 + 4 * (← get).stack.length) token

/- A document type counts only at the start. -/
def takeDoctype
    (declared : Doctype) : Build Outcome := do
  if (← get).mode = .initial then
    modify fun b =>
      { b with rendering := declared.mode, mode := .beforeHtml }
  return .done

/- Text, less a line end that is left out. -/
def takeText
    (skip : Bool)
    (blank : Bool)
    (text : List Char) : Build Outcome :=
  match skip, text with
  | true, ['\n'] => return .done
  | true, '\n' :: rest => settleToken (.chars blank rest)
  | _, text => settleToken (.chars blank text)

/- Take the next token of a page. -/
def takeToken
    (token : Token) : Build Outcome := do
  let skip := (← get).skipLineFeed
  modify fun b => { b with skipLineFeed := false }
  match token with
  | .flaw => return .done
  | .doctype declared => takeDoctype declared
  | .chars blank text => takeText skip blank text
  | token => settleToken token

end Rules

end Html

end MarkupMetrics
