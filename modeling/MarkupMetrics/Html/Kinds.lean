import MarkupMetrics.Dom.Element

/-
  This file sorts elements into the kinds that the rules of
  tree construction speak of.

  Key definitions include:
    * `isHtml`
    * `isHtmlAmong`
    * `isSpecial`
    * `endsScope`
    * `endsListScope`
    * `endsButtonScope`
    * `endsTableScope`
    * `isMathTextPoint`
    * `isSvgHtmlPoint`
-/

namespace MarkupMetrics

namespace Html

open Dom

------------------------------------------------------------
-- Names
------------------------------------------------------------

/- Whether an element is the HTML element with a name. -/
def isHtml
    (name : String)
    (n : QualName) : Bool :=
  n.space == .html && n.local_ == name

/- Whether an element is an HTML element with one of the names. -/
def isHtmlAmong
    (names : List String)
    (n : QualName) : Bool :=
  n.space == .html && names.contains n.local_

/- The six levels of headings. -/
def headings : List String :=
  ["h1", "h2", "h3", "h4", "h5", "h6"]

/- Elements in whose place misplaced content is moved out. -/
def tableParts : List String :=
  ["table", "tbody", "tfoot", "thead", "tr"]

/- Elements whose end tag may be left out in ordinary content. -/
def impliedEnds : List String :=
  ["dd", "dt", "li", "option", "optgroup", "p", "rb", "rp", "rt",
    "rtc"]

/- Elements whose end tag may be left out at a template's end. -/
def thoroughImpliedEnds : List String :=
  impliedEnds ++
    ["caption", "colgroup", "tbody", "td", "tfoot", "th", "thead",
      "tr"]

/- Elements that interrupt the search for an open element. -/
def specialNames : List String :=
  ["address", "applet", "area", "article", "aside", "base",
    "basefont", "bgsound", "blockquote", "body", "br", "button",
    "caption", "center", "col", "colgroup", "dd", "details", "dir",
    "div", "dl", "dt", "embed", "fieldset", "figcaption", "figure",
    "footer", "form", "frame", "frameset", "h1", "h2", "h3", "h4",
    "h5", "h6", "head", "header", "hgroup", "hr", "html", "iframe",
    "img", "input", "isindex", "keygen", "li", "link", "listing",
    "main", "marquee", "menu", "meta", "nav", "noembed", "noframes",
    "noscript", "object", "ol", "p", "param", "plaintext", "pre",
    "script", "section", "select", "source", "style",
    "summary", "table", "tbody", "td", "template", "textarea",
    "tfoot", "th", "thead", "title", "tr", "track", "ul", "wbr",
    "xmp"]

/- Whether an element interrupts the search for an open one. -/
def isSpecial
    (n : QualName) : Bool :=
  isHtmlAmong specialNames n

------------------------------------------------------------
-- Integration points
------------------------------------------------------------

/- Elements of formulas that hold ordinary text. -/
def isMathTextPoint
    (n : QualName) : Bool :=
  n.space == .mathml &&
    ["mi", "mo", "mn", "ms", "mtext"].contains n.local_

/- Elements of drawings that hold ordinary content. -/
def isSvgHtmlPoint
    (n : QualName) : Bool :=
  n.space == .svg &&
    ["foreignObject", "desc", "title"].contains n.local_

------------------------------------------------------------
-- Scopes
------------------------------------------------------------

/- Elements that end the ordinary scope. -/
def scopeNames : List String :=
  ["applet", "caption", "html", "table", "td", "th", "marquee",
    "object", "select", "template"]

/- Whether an element ends the ordinary scope. -/
def endsScope
    (n : QualName) : Bool :=
  isHtmlAmong scopeNames n || isMathTextPoint n ||
    isSvgHtmlPoint n

/- Whether an element ends the scope of list items. -/
def endsListScope
    (n : QualName) : Bool :=
  endsScope n || isHtmlAmong ["ol", "ul"] n

/- Whether an element ends the scope of buttons. -/
def endsButtonScope
    (n : QualName) : Bool :=
  endsScope n || isHtml "button" n

/- Whether an element ends the scope of tables. -/
def endsTableScope
    (n : QualName) : Bool :=
  isHtmlAmong ["html", "table", "template"] n

end Html

end MarkupMetrics
