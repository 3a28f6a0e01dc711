import MarkupMetrics.Html.Doctype
import MarkupMetrics.Html.Kinds
import MarkupMetrics.Html.TreeCall

/-
  This file defines the state in which a page's tokens are
  turned into calls that build its tree.

  The builder never reads the tree: it names nodes by
  handles, which count the nodes it made, and it remembers
  the names of the elements that are open.  Handle 0 is the
  document.

  Key definitions include:
    * `Handle`
    * `Mode`
    * `OpenElement`
    * `FormatEntry`
    * `Builder`
    * `Build`
    * `Builder.inScope`
    * `Place`
    * `Builder.place`
    * `insertElement`
    * `appendText`
    * `popUntil`
    * `resetMode`
-/

namespace MarkupMetrics

namespace Html

open Dom

------------------------------------------------------------
-- State
------------------------------------------------------------

/- The number of a node among the nodes made so far. -/
abbrev Handle := Nat

/- The handle of the document. -/
def documentHandle : Handle :=
  0

/- Which rules apply to the next token. -/
inductive Mode where
  | initial
  | beforeHtml
  | beforeHead
  | inHead
  | inHeadNoscript
  | afterHead
  | inBody
  | text
  | inTable
  | inTableText
  | inCaption
  | inColumnGroup
  | inTableBody
  | inRow
  | inCell
  | inTemplate
  | afterBody
  | inFrameset
  | afterFrameset
  | afterAfterBody
  | afterAfterFrameset
deriving DecidableEq, Repr

/- An element whose end has not come yet. -/
structure OpenElement where
  handle : Handle
  name : QualName
deriving DecidableEq, Repr

/-
  A formatting element that is opened again where it was cut
  off, or a mark up to which that goes.
-/
inductive FormatEntry where
  | marker
  | element (handle : Handle) (tag : Tag)
deriving DecidableEq, Repr

/-
  The state of construction.  The lists of open elements, of
  formatting elements, of template modes and of calls have
  the latest entry at the front.
-/
structure Builder where
  mode : Mode := .initial
  returnMode : Mode := .inBody
  templateModes : List Mode := []
  pending : List (Bool × List Char) := []
  rendering : RenderingMode := .standard
  stack : List OpenElement := []
  formatting : List FormatEntry := []
  head : Option Handle := none
  form : Option Handle := none
  framesetOk : Bool := true
  skipLineFeed : Bool := false
  fostering : Bool := false
  made : Nat := 0
  calls : List (TreeCall Handle) := []
deriving DecidableEq, Repr

/- A computation that builds, or comes to a fault. -/
abbrev Build := StateT Builder (Except Fault)

/-
  What becomes of a token: nothing more, it is taken up again,
  or the text after it is read in another way or anew.
-/
inductive Outcome where
  | done
  | again (token : Token)
  | readAs (kind : TextKind)
  | readAnew
deriving DecidableEq, Repr

------------------------------------------------------------
-- Open elements
------------------------------------------------------------

namespace Builder

/- The innermost open element. -/
def current?
    (b : Builder) : Option OpenElement :=
  b.stack.head?

/- Whether the innermost open element is of some kind. -/
def currentIs
    (b : Builder)
    (p : QualName → Bool) : Bool :=
  b.current?.any fun e => p e.name

/- Whether an open element is of some kind. -/
def hasOpen
    (b : Builder)
    (p : QualName → Bool) : Bool :=
  b.stack.any fun e => p e.name

/- Whether an element is open. -/
def isOpen
    (b : Builder)
    (handle : Handle) : Bool :=
  b.stack.any fun e => e.handle == handle

/- Whether a template is open. -/
def inTemplate
    (b : Builder) : Bool :=
  b.hasOpen (isHtml "template")

/-
  Whether an element is found before the search leaves the
  scope.
-/
def reaches
    (stop : QualName → Bool)
    (goal : OpenElement → Bool) : List OpenElement → Bool
  | [] => false
  | e :: rest =>
      goal e || (!stop e.name && reaches stop goal rest)

/- Whether an element of some kind is in a scope. -/
def inScope
    (b : Builder)
    (stop : QualName → Bool)
    (p : QualName → Bool) : Bool :=
  reaches stop (fun e => p e.name) b.stack

/- Whether an HTML element with a name is in the scope. -/
def hasInScope
    (b : Builder)
    (name : String) : Bool :=
  b.inScope endsScope (isHtml name)

/- Whether an HTML element is in the scope of its table. -/
def hasInTable
    (b : Builder)
    (name : String) : Bool :=
  b.inScope endsTableScope (isHtml name)

/- The outermost open element. -/
def root?
    (b : Builder) : Option OpenElement :=
  b.stack.getLast?

/- The body, if it is open right inside the outermost element. -/
def body?
    (b : Builder) : Option OpenElement :=
  (b.stack.reverse[1]?).filter fun e => isHtml "body" e.name

end Builder

/- Close the innermost open element. -/
def pop : Build Unit :=
  modify fun b => { b with stack := b.stack.drop 1 }

/- Open an element that was made before. -/
def push
    (e : OpenElement) : Build Unit :=
  modify fun b => { b with stack := e :: b.stack }

/- Close elements as long as they are of some kind. -/
def popWhile
    (p : QualName → Bool) : Build Unit :=
  modify fun b =>
    { b with stack := b.stack.dropWhile fun e => p e.name }

/- Close elements up to and with the first of some kind. -/
def popUntil
    (p : QualName → Bool) : Build Unit :=
  modify fun b =>
    { b with
      stack := (b.stack.dropWhile fun e => !p e.name).drop 1 }

/- Close elements up to and with the first of a name. -/
def popUntilNamed
    (name : String) : Build Unit :=
  popUntil (isHtml name)

/- Close elements until one of some kind is innermost. -/
def popTo
    (p : QualName → Bool) : Build Unit :=
  popWhile fun n => !p n

/- Take an element out of the open elements. -/
def close
    (handle : Handle) : Build Unit :=
  modify fun b =>
    { b with stack := b.stack.eraseP fun e => e.handle == handle }

/- Close the elements whose end tag may be left out. -/
def closeImplied : Build Unit :=
  popWhile (isHtmlAmong impliedEnds)

/- The same, but for elements with one name. -/
def closeImpliedExcept
    (name : String) : Build Unit :=
  popWhile fun n =>
    isHtmlAmong impliedEnds n && !isHtml name n

/- Close the innermost paragraph. -/
def closeParagraph : Build Unit := do
  closeImpliedExcept "p"
  popUntilNamed "p"

/- Close a paragraph that is in the scope of buttons. -/
def closeParagraphInScope : Build Unit := do
  if (← get).inScope endsButtonScope (isHtml "p") then
    closeParagraph

------------------------------------------------------------
-- Calls
------------------------------------------------------------

/- Add a call. -/
def emit
    (call : TreeCall Handle) : Build Unit :=
  modify fun b => { b with calls := call :: b.calls }

/- Add a call that makes a node, and give its handle. -/
def make
    (call : TreeCall Handle) : Build Handle := do
  emit call
  modify fun b => { b with made := b.made + 1 }
  return (← get).made

------------------------------------------------------------
-- Places
------------------------------------------------------------

/-
  Where new content goes: to the end of a node, or before a
  table, and if that has no parent to the end of the element
  around it.
-/
inductive Place where
  | endOf (parent : Handle)
  | beforeTable (table around : Handle)
deriving DecidableEq, Repr

/- The place for content that a table does not take. -/
def fosterPlace : List OpenElement → Place
  | [] => .endOf documentHandle
  | [e] => .endOf e.handle
  | e :: around :: rest =>
      if isHtml "template" e.name then .endOf e.handle
      else if isHtml "table" e.name then
        .beforeTable e.handle around.handle
      else fosterPlace (around :: rest)

namespace Builder

/- The place for content whose parent would be an element. -/
def placeIn
    (b : Builder)
    (target : OpenElement) : Place :=
  if b.fostering && isHtmlAmong tableParts target.name then
    fosterPlace b.stack
  else .endOf target.handle

/- The place for content at the innermost open element. -/
def place
    (b : Builder) : Place :=
  match b.current? with
  | some e => b.placeIn e
  | none => .endOf documentHandle

end Builder

/- Put content into a place. -/
def insertAt
    (content : Content Handle) : Place → Build Unit
  | .endOf parent => emit (.append parent content)
  | .beforeTable table around =>
      emit (.appendBased table around content)

/- Put a text at the innermost open element. -/
def appendText
    (text : List Char) : Build Unit := do
  insertAt (.text (String.ofList text)) (← get).place

/- Put a comment at the innermost open element. -/
def appendComment : Build Unit := do
  let handle ← make .createComment
  insertAt (.node handle) (← get).place

/- Put a comment at the end of a given node. -/
def appendCommentTo
    (parent : Handle) : Build Unit := do
  let handle ← make .createComment
  emit (.append parent (.node handle))

/- Make an element, and put it at the innermost open one. -/
def placeElement
    (name : QualName)
    (attrs : List Attribute) : Build OpenElement := do
  let handle ← make (.createElement name attrs)
  insertAt (.node handle) (← get).place
  return ⟨handle, name⟩

/- The attributes of a tag as they stand. -/
def plainAttrs
    (t : Tag) : List Attribute :=
  t.attrs.map fun a => .plain a.1 a.2

/- Make the HTML element of a tag, put it there and open it. -/
def insertElement
    (t : Tag) : Build OpenElement := do
  let e ← placeElement (.html t.name) (plainAttrs t)
  push e
  return e

/- The same, where the element is not needed. -/
def openElement
    (t : Tag) : Build Unit := do
  let _ ← insertElement t

/- Make an element that has no content. -/
def insertVoid
    (t : Tag) : Build Unit := do
  let _ ← placeElement (.html t.name) (plainAttrs t)

/- Make an element whose tag was left out, and open it. -/
def insertMissing
    (name : String) : Build OpenElement :=
  insertElement { name }

/- Make an element and read its text in a special way. -/
def insertSpecialText
    (t : Tag)
    (kind : TextKind) : Build Outcome := do
  openElement t
  modify fun b => { b with returnMode := b.mode, mode := .text }
  return .readAs kind

------------------------------------------------------------
-- Modes
------------------------------------------------------------

/- Change the mode. -/
def setMode
    (mode : Mode) : Build Unit :=
  modify fun b => { b with mode }

/- Take a token up again in another mode. -/
def retryIn
    (mode : Mode)
    (token : Token) : Build Outcome := do
  setMode mode
  return .again token

/- Note that the page has content, so it gets no frames. -/
def forbidFrameset : Build Unit :=
  modify fun b => { b with framesetOk := false }

/- The mode that fits the open elements. -/
def Builder.modeFor
    (b : Builder) : List OpenElement → Mode
  | [] => .inBody
  | e :: rest =>
      let last := rest.isEmpty
      if e.name.space != .html then b.modeFor rest
      else
        match e.name.local_ with
        | "td" => if last then .inBody else .inCell
        | "th" => if last then .inBody else .inCell
        | "tr" => .inRow
        | "tbody" => .inTableBody
        | "thead" => .inTableBody
        | "tfoot" => .inTableBody
        | "caption" => .inCaption
        | "colgroup" => .inColumnGroup
        | "table" => .inTable
        | "template" => b.templateModes.headD .inBody
        | "head" => if last then .inBody else .inHead
        | "body" => .inBody
        | "frameset" => .inFrameset
        | "html" =>
            if b.head.isSome then .afterHead else .beforeHead
        | _ => b.modeFor rest

/- Change to the mode that fits the open elements. -/
def resetMode : Build Unit :=
  modify fun b => { b with mode := b.modeFor b.stack }

end Html

end MarkupMetrics
