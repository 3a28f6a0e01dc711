import MarkupMetrics.Html.Doctype
import MarkupMetrics.Html.Reference

/-
  This file splits the text of a page into tokens.

  How text is read depends on the element it stands in, so a
  step takes the kind of text and gives some tokens together
  with the text after them.  A tag is always the last token
  of its step, so that the kind can change after it.  In the
  special kinds of text only the end tag of the element
  itself counts as a tag.

  Key definitions include:
    * `readAttrs?`
    * `readTag?`
    * `skipComment`
    * `readScript`
    * `Surroundings`
    * `readToken`
-/

namespace MarkupMetrics

namespace Html

open Text

------------------------------------------------------------
-- Blank text
------------------------------------------------------------

/- Whether all of a text is blank. -/
def isBlankText
    (s : List Char) : Bool :=
  s.all isAsciiBlank

------------------------------------------------------------
-- Attributes
------------------------------------------------------------

/-
  An attribute value up to a character that ends it.  The
  fuel bounds the number of steps; the length of the text is
  enough.
-/
def readValue
    (stop : Char → Bool) :
    Nat → List Char → List Char × List Char
  | 0, s => ([], s)
  | _ + 1, [] => ([], [])
  | fuel + 1, c :: rest =>
      if stop c then ([], c :: rest)
      else if c = '&' then
        match readReference? true rest with
        | some r =>
            let (value, after) := readValue stop fuel r.rest
            (r.chars ++ value, after)
        | none =>
            let (value, after) := readValue stop fuel rest
            ('&' :: value, after)
      else
        let (value, after) := readValue stop fuel rest
        (withoutNul c :: value, after)

/- Add an attribute unless its name is there already. -/
def addAttr
    (attrs : List (String × String))
    (name value : String) : List (String × String) :=
  if attrs.any fun a => a.1 == name then attrs
  else attrs ++ [(name, value)]

/- Whether a character ends an attribute name. -/
def endsAttrName
    (c : Char) : Bool :=
  isTagSpace c || c == '/' || c == '>' || c == '='

/- What a tag ends with. -/
structure TagEnd where
  attrs : List (String × String)
  selfClosing : Bool
  rest : List Char

/-
  The attributes of a tag up to its closing bracket.  There
  is no result if the text ends before it.  The fuel bounds
  the number of steps; the length of the text is enough.
-/
def readAttrs? :
    Nat → List (String × String) → List Char → Option TagEnd
  | 0, _, _ => none
  | _ + 1, _, [] => none
  | fuel + 1, attrs, c :: rest =>
      if isTagSpace c then readAttrs? fuel attrs rest
      else if c = '>' then some ⟨attrs, false, rest⟩
      else if c = '/' then
        match rest with
        | '>' :: rest => some ⟨attrs, true, rest⟩
        | rest => readAttrs? fuel attrs rest
      else
        let tail := rest.takeWhile fun c => !endsAttrName c
        let name := lowerText (c :: tail)
        let after := (rest.drop tail.length).dropWhile isTagSpace
        match after with
        | '=' :: after =>
            match after.dropWhile isTagSpace with
            | [] => none
            | '>' :: rest =>
                some ⟨addAttr attrs name "", false, rest⟩
            | d :: rest =>
                let quoted := d == '"' || d == '\''
                let body := if quoted then rest else d :: rest
                let stop := fun c =>
                  if quoted then c == d
                  else isTagSpace c || c == '>'
                let (value, after) :=
                  readValue stop (body.length + 1) body
                if quoted && after.isEmpty then none
                else
                  readAttrs? fuel
                    (addAttr attrs name (String.ofList value))
                    (if quoted then after.drop 1 else after)
        | after => readAttrs? fuel (addAttr attrs name "") after

/-
  A tag whose name starts here: the tag and the text after
  it.  There is no tag if the text ends inside it.
-/
def readTag?
    (s : List Char) : Option (Tag × List Char) :=
  let name :=
    s.takeWhile fun c => !isTagSpace c && c != '/' && c != '>'
  (readAttrs? (s.length + 1) [] (s.drop name.length)).map
    fun e => (⟨lowerText name, e.attrs, e.selfClosing⟩, e.rest)

------------------------------------------------------------
-- Comments
------------------------------------------------------------

/- The text after the end of a comment's body. -/
def skipCommentBody : List Char → List Char
  | [] => []
  | '-' :: '-' :: '>' :: rest => rest
  | '-' :: '-' :: '!' :: '>' :: rest => rest
  | _ :: rest => skipCommentBody rest

/- The text after a comment whose opening is gone. -/
def skipComment : List Char → List Char
  | '>' :: rest => rest
  | '-' :: '>' :: rest => rest
  | s => skipCommentBody s

/- The text after the next closing bracket. -/
def skipBracket
    (s : List Char) : List Char :=
  (s.dropWhile (· != '>')).drop 1

------------------------------------------------------------
-- End tags of special text
------------------------------------------------------------

/-
  Whether a given element name stands here, in any letter
  case, with a character after it that ends it.
-/
def startsTagName
    (name : String)
    (s : List Char) : Bool :=
  match dropWord? name s with
  | some (c :: _) => isTagSpace c || c == '/' || c == '>'
  | _ => false

/- The end tag after `</`, or nothing if the text ends in it. -/
def readEndTag
    (s : List Char) : List Token × List Char :=
  match readTag? s with
  | some (tag, rest) => ([.endTag tag], rest)
  | none => ([], [])

/- A run of text that is blank throughout or nowhere. -/
def readRun
    (stop : Char → Bool) : List Char → List Token × List Char
  | [] => ([], [])
  | c :: rest =>
      let blank := isAsciiBlank c
      let more :=
        rest.takeWhile fun d =>
          !stop d && isAsciiBlank d == blank
      ([.chars blank (c :: more)], rest.drop more.length)

/- A text as a token that is not blank. -/
def solid
    (s : List Char) : List Token :=
  [.chars false s]

------------------------------------------------------------
-- Scripts
------------------------------------------------------------

/-
  Where a script stands with respect to comments in it: in
  none, in one, or in one inside another script element.
-/
inductive ScriptLevel where
  | plain
  | escaped
  | nested
deriving DecidableEq, Repr

/- Whether two dashes and a bracket come next. -/
def startsCommentEnd : List Char → Bool
  | '-' :: '-' :: '>' :: _ => true
  | _ => false

/-
  The text of a script up to its end tag, and that tag.  A
  comment hides the tags in it, and in a comment a script
  element hides its own end tag.
-/
def scriptText
    (level : ScriptLevel) : List Char → List Char
  | [] => []
  | c :: rest =>
      match level with
      | .plain =>
          if c = '<' ∧ ['!', '-', '-'].isPrefixOf rest then
            c :: scriptText .escaped rest
          else if c = '<' ∧ rest.head? = some '/' ∧
              startsTagName "script" (rest.drop 1) then []
          else c :: scriptText .plain rest
      | .escaped =>
          if startsCommentEnd (c :: rest) then
            c :: scriptText .plain rest
          else if c = '<' ∧ rest.head? = some '/' ∧
              startsTagName "script" (rest.drop 1) then []
          else if c = '<' ∧ startsTagName "script" rest then
            c :: scriptText .nested rest
          else c :: scriptText .escaped rest
      | .nested =>
          if startsCommentEnd (c :: rest) then
            c :: scriptText .plain rest
          else if c = '<' ∧ rest.head? = some '/' ∧
              startsTagName "script" (rest.drop 1) then
            c :: scriptText .escaped rest
          else c :: scriptText .nested rest

------------------------------------------------------------
-- Tokens
------------------------------------------------------------

/-
  What a step needs to know: the kind of text, the element
  whose end tag ends it, and whether marked sections are
  allowed.
-/
structure Surroundings where
  kind : TextKind := .data
  element : String := ""
  sections : Bool := false
deriving DecidableEq, Repr

/- A character reference whose ampersand is gone. -/
def referenceToken
    (rest : List Char) : List Token × List Char :=
  match readReference? false rest with
  | some r =>
      let token := Token.chars (isBlankText r.chars) r.chars
      (if r.closed then [token] else [.flaw, token], r.rest)
  | none => (solid ['&'], rest)

/- The marks that open a section, after `<!`. -/
def sectionOpening : List Char :=
  ['[', 'C', 'D', 'A', 'T', 'A', '[']

/- The text before the end of a marked section. -/
def sectionText : List Char → List Char
  | [] => []
  | ']' :: ']' :: '>' :: _ => []
  | c :: rest => c :: sectionText rest

/- A character of a marked section. -/
def sectionToken
    (c : Char) : Token :=
  if c = '\x00' then .nul else .chars (isAsciiBlank c) [c]

/- A marked section after its opening. -/
def readSection
    (s : List Char) : List Token × List Char :=
  let text := sectionText s
  (text.map sectionToken, s.drop (text.length + 3))

/- What follows `<!` in ordinary text. -/
def readDeclaration
    (sections : Bool)
    (s : List Char) : List Token × List Char :=
  match s with
  | '-' :: '-' :: rest => ([.comment], skipComment rest)
  | s =>
      match dropWord? "doctype" s with
      | some rest =>
          let (d, rest) := readDoctype rest
          ([.doctype d], rest)
      | none =>
          if sections then
            match dropLead? sectionOpening s with
            | some rest => readSection rest
            | none => ([.comment], skipBracket s)
          else ([.comment], skipBracket s)

/- What follows `<` in ordinary text. -/
def readMarkup
    (s : List Char) : List Token × List Char :=
  match s with
  | '/' :: rest =>
      match rest with
      | [] => (solid ['<', '/'], [])
      | '>' :: rest => ([.flaw], rest)
      | c :: _ =>
          if isLetter c then readEndTag rest
          else ([.comment], skipBracket rest)
  | '?' :: rest => ([.comment], skipBracket rest)
  | c :: _ =>
      if isLetter c then
        match readTag? s with
        | some (tag, rest) => ([.startTag tag], rest)
        | none => ([], [])
      else (solid ['<'], s)
  | [] => (solid ['<'], [])

/- One step through ordinary text. -/
def readData
    (sections : Bool) : List Char → List Token × List Char
  | [] => ([], [])
  | '\x00' :: rest => ([.nul], rest)
  | '&' :: rest => referenceToken rest
  | '<' :: '!' :: rest => readDeclaration sections rest
  | '<' :: rest => readMarkup rest
  | s => readRun (fun c => c == '<' || c == '&' || c == '\x00') s

/- One step through text with references but without tags. -/
def readRcdata
    (element : String) : List Char → List Token × List Char
  | [] => ([], [])
  | '\x00' :: rest => (solid [replacement], rest)
  | '&' :: rest => referenceToken rest
  | '<' :: '/' :: rest =>
      if startsTagName element rest then readEndTag rest
      else (solid ['<', '/'], rest)
  | '<' :: rest => (solid ['<'], rest)
  | s => readRun (fun c => c == '<' || c == '&' || c == '\x00') s

/- One step through text without references and tags. -/
def readRawtext
    (element : String) : List Char → List Token × List Char
  | [] => ([], [])
  | '\x00' :: rest => (solid [replacement], rest)
  | '<' :: '/' :: rest =>
      if startsTagName element rest then readEndTag rest
      else (solid ['<', '/'], rest)
  | '<' :: rest => (solid ['<'], rest)
  | s => readRun (fun c => c == '<' || c == '\x00') s

/- One step through a script. -/
def readScript
    (s : List Char) : List Token × List Char :=
  let text := scriptText .plain s
  if text.isEmpty then readEndTag (s.drop 2)
  else (solid (text.map withoutNul), s.drop text.length)

/- One step through text that never ends. -/
def readPlaintext
    (s : List Char) : List Token × List Char :=
  (solid (s.map withoutNul), [])

/- One step: some tokens, if any, and the text after them. -/
def readToken
    (around : Surroundings)
    (s : List Char) : List Token × List Char :=
  match around.kind with
  | .data => readData around.sections s
  | .rcdata => readRcdata around.element s
  | .rawtext => readRawtext around.element s
  | .script => readScript s
  | .plaintext => readPlaintext s

end Html

end MarkupMetrics
