import MarkupMetrics.Html.Builder

/-
  This file defines the rules for formatting elements, which
  may overlap other elements in a page but not in its tree.

  A formatting element that was cut off is opened again
  before the content it should cover.  An end tag that comes
  inside other elements splits them.

  Key definitions include:
    * `reopenFormatting`
    * `insertFormatting`
    * `closeNamed`
    * `splitFormatting`
-/

namespace MarkupMetrics

namespace Html

open Dom

------------------------------------------------------------
-- Entries
------------------------------------------------------------

namespace FormatEntry

/- Whether an entry is a mark. -/
def isMarker : FormatEntry → Bool
  | .marker => true
  | .element _ _ => false

/- Whether an entry is that of an element. -/
def isOf
    (handle : Handle) : FormatEntry → Bool
  | .marker => false
  | .element h _ => h == handle

/- The tag of an entry. -/
def tag? : FormatEntry → Option Tag
  | .marker => none
  | .element _ tag => some tag

end FormatEntry

namespace Builder

/- The entries after the last mark, latest first. -/
def recentFormatting
    (b : Builder) : List FormatEntry :=
  b.formatting.takeWhile fun e => !e.isMarker

/- The tag of the entry of an element. -/
def formatTag?
    (b : Builder)
    (handle : Handle) : Option Tag :=
  (b.formatting.find? (·.isOf handle)).bind (·.tag?)

/- Whether an entry's element is cut off. -/
def isCutOff
    (b : Builder) : FormatEntry → Bool
  | .marker => false
  | .element handle _ => !b.isOpen handle

/- The latest recent entry with a name, with its tag. -/
def recentNamed?
    (b : Builder)
    (name : String) : Option (Handle × Tag) :=
  b.recentFormatting.findSome? fun e =>
    match e with
    | .marker => none
    | .element handle tag =>
        if tag.name = name then some (handle, tag) else none

end Builder

/- Add a mark. -/
def pushMarker : Build Unit :=
  modify fun b =>
    { b with formatting := .marker :: b.formatting }

/- Drop the entries up to and with the last mark. -/
def dropToMarker : Build Unit :=
  modify fun b =>
    { b with
      formatting :=
        (b.formatting.dropWhile fun e => !e.isMarker).drop 1 }

/- Drop the entry of an element. -/
def dropFormat
    (handle : Handle) : Build Unit :=
  modify fun b =>
    { b with formatting := b.formatting.eraseP (·.isOf handle) }

/- Put another entry in place of an element's entry. -/
def replaceFormat
    (handle : Handle)
    (entry : FormatEntry) : Build Unit :=
  modify fun b =>
    { b with
      formatting :=
        b.formatting.map fun e =>
          if e.isOf handle then entry else e }

/- Put an entry right after an element's entry. -/
def addFormatAfter
    (handle : Handle)
    (entry : FormatEntry) : Build Unit :=
  modify fun b =>
    { b with
      formatting :=
        b.formatting.flatMap fun e =>
          if e.isOf handle then [entry, e] else [e] }

------------------------------------------------------------
-- Opening
------------------------------------------------------------

/- Open the element of an entry again. -/
def reopen : FormatEntry → Build FormatEntry
  | .marker => return .marker
  | .element _ tag => do
      let e ← insertElement tag
      return .element e.handle tag

/- Open the elements again that were cut off. -/
def reopenFormatting : Build Unit := do
  let b ← get
  let lost := b.formatting.takeWhile b.isCutOff
  let fresh ← lost.reverse.mapM reopen
  modify fun b =>
    { b with
      formatting :=
        fresh.reverse ++ b.formatting.drop lost.length }

/- At most three entries that are alike are kept. -/
def limitAlike
    (tag : Tag) : Build Unit := do
  let alike := (← get).recentFormatting.filterMap fun e =>
    match e with
    | .marker => none
    | .element handle t =>
        if t.isLike tag then some handle else none
  match alike.getLast? with
  | some first => if alike.length ≥ 3 then dropFormat first
  | none => return

/- Make a formatting element, open it and note it. -/
def insertFormatting
    (tag : Tag) : Build Unit := do
  limitAlike tag
  let e ← insertElement tag
  modify fun b =>
    { b with
      formatting := .element e.handle tag :: b.formatting }

------------------------------------------------------------
-- Closing
------------------------------------------------------------

/-
  The innermost open element with a name, unless another one
  interrupts the search.
-/
def findNamed?
    (name : String) : List OpenElement → Option OpenElement
  | [] => none
  | e :: rest =>
      if isHtml name e.name then some e
      else if isSpecial e.name then none
      else findNamed? name rest

/- Close an element by its end tag, and those inside it. -/
def closeNamed
    (name : String) : Build Unit := do
  match findNamed? name (← get).stack with
  | none => return
  | some e =>
      modify fun b =>
        { b with
          stack :=
            (b.stack.dropWhile (·.handle != e.handle)).drop 1 }

------------------------------------------------------------
-- Splitting
------------------------------------------------------------

/-
  A split under way: the copies made so far with the latest
  first, the node to go into the next copy, and the entry
  after which the new one belongs.
-/
structure Split where
  copies : List OpenElement := []
  inner : Handle
  bookmark : Option Handle := none

/-
  Go outward through the elements between the furthest block
  and the formatting element.  The first three are copied if
  they are formatting elements themselves; the others are
  closed.
-/
def copyBetween
    (furthest : Handle) :
    Nat → List OpenElement → Split → Build Split
  | _, [], s => return s
  | seen, e :: rest, s => do
      match (← get).formatTag? e.handle with
      | none => copyBetween furthest (seen + 1) rest s
      | some tag =>
          if seen ≥ 3 then
            dropFormat e.handle
            copyBetween furthest (seen + 1) rest s
          else
            let name := QualName.html tag.name
            let handle ←
              make (.createElement name (plainAttrs tag))
            replaceFormat e.handle (.element handle tag)
            emit (.unlink s.inner)
            emit (.append handle (.node s.inner))
            copyBetween furthest (seen + 1) rest
              { copies := ⟨handle, name⟩ :: s.copies
                inner := handle
                bookmark :=
                  if s.inner = furthest then some handle
                  else s.bookmark }

/- Put a new entry for a formatting element in its place. -/
def moveFormat
    (old : Handle)
    (bookmark : Option Handle)
    (entry : FormatEntry) : Build Unit :=
  match bookmark with
  | none => replaceFormat old entry
  | some handle => do
      addFormatAfter handle entry
      dropFormat old

/-
  Split around the furthest block, given the open elements
  inside it, itself, between it and the formatting element,
  and around that.
-/
def splitAround
    (above : List OpenElement)
    (furthest : OpenElement)
    (between : List OpenElement)
    (format : OpenElement)
    (tag : Tag)
    (below : List OpenElement) : Build Unit := do
  let s ← copyBetween furthest.handle 0 between
    { inner := furthest.handle }
  let kept := s.copies.reverse
  modify fun b =>
    { b with
      stack := above ++ furthest :: kept ++ format :: below }
  emit (.unlink s.inner)
  let b ← get
  let place :=
    match below with
    | around :: _ => b.placeIn around
    | [] => .endOf documentHandle
  insertAt (.node s.inner) place
  let name := QualName.html tag.name
  let handle ← make (.createElement name (plainAttrs tag))
  emit (.moveChildren furthest.handle handle)
  emit (.append furthest.handle (.node handle))
  moveFormat format.handle s.bookmark (.element handle tag)
  modify fun b =>
    { b with
      stack :=
        above ++ ⟨handle, name⟩ :: furthest :: kept ++ below }

/-
  Close a formatting element by its end tag, and split the
  elements that overlap it.  The fuel bounds the number of
  splits.
-/
def splitWith
    (name : String) : Nat → Build Unit
  | 0 => return
  | fuel + 1 => do
      let b ← get
      match b.recentNamed? name with
      | none => closeNamed name
      | some (handle, tag) =>
          let isIt := fun (e : OpenElement) => e.handle == handle
          let inside := b.stack.takeWhile fun e => !isIt e
          match b.stack.drop inside.length with
          | [] => dropFormat handle
          | format :: below =>
              if !Builder.reaches endsScope isIt b.stack then
                return
              let blocks := inside.reverse
              let between :=
                blocks.takeWhile fun e => !isSpecial e.name
              match blocks.drop between.length with
              | [] =>
                  modify fun b => { b with stack := below }
                  dropFormat handle
              | furthest :: above =>
                  splitAround above.reverse furthest
                    between.reverse format tag below
                  splitWith name fuel

/- Close a formatting element by its end tag. -/
def splitFormatting
    (name : String) : Build Unit := do
  let b ← get
  match b.current? with
  | some e =>
      if isHtml name e.name && (b.formatTag? e.handle).isNone then
        pop
      else splitWith name 8
  | none => splitWith name 8

/- Close a link that is still open before another one. -/
def closeOpenLink : Build Unit := do
  match (← get).recentNamed? "a" with
  | none => return
  | some (handle, _) =>
      splitFormatting "a"
      dropFormat handle
      close handle

end Html

end MarkupMetrics
