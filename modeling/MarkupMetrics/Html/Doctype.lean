import MarkupMetrics.Html.Token

/-
  This file reads document type declarations and decides
  which rendering mode they ask for.

  Key definitions include:
    * `RenderingMode`
    * `readDoctype`
    * `Doctype.mode`
-/

namespace MarkupMetrics

namespace Html

/- How strictly a page asks to be rendered. -/
inductive RenderingMode where
  | standard
  | limited
  | loose
deriving DecidableEq, Repr

------------------------------------------------------------
-- Reading
------------------------------------------------------------

/- Space, tab, line feed and form feed. -/
def isTagSpace
    (c : Char) : Bool :=
  c == ' ' || c == '\t' || c == '\n' || c == '\x0c'

/- A character with nulls replaced. -/
def withoutNul
    (c : Char) : Char :=
  if c = '\x00' then Char.ofNat 0xfffd else c

/- Characters as a text, with nulls replaced. -/
def cleanText
    (s : List Char) : String :=
  String.ofList (s.map withoutNul)

/- ASCII lower case, with nulls replaced. -/
def lowerText
    (s : List Char) : String :=
  String.ofList (s.map fun c => (withoutNul c).toLower)

/- Drop the rest of a declaration. -/
def skipDeclaration
    (s : List Char) : List Char :=
  (s.dropWhile (· != '>')).drop 1

/- Mark a declaration as broken. -/
def Doctype.broken
    (d : Doctype) : Doctype :=
  { d with isBroken := true }

/-
  A quoted identifier after its opening mark: its text and
  the input after the closing mark, if there is one.
-/
def readIdentifier
    (mark : Char)
    (s : List Char) : String × Option (List Char) :=
  let body := s.takeWhile fun c => c != mark && c != '>'
  let rest := s.drop body.length
  match rest with
  | c :: after =>
      (cleanText body, if c = mark then some after else none)
  | [] => (cleanText body, none)

/- What follows the system identifier. -/
def readAfterSystem
    (d : Doctype)
    (s : List Char) : Doctype × List Char :=
  match s.dropWhile isTagSpace with
  | [] => (d.broken, [])
  | rest => (d, skipDeclaration rest)

/- The system identifier, if a mark opens it. -/
def readSystem
    (d : Doctype)
    (s : List Char) : Doctype × List Char :=
  match s.dropWhile isTagSpace with
  | c :: rest =>
      if c = '"' ∨ c = '\'' then
        let (id, after) := readIdentifier c rest
        let d := { d with systemId := some id }
        match after with
        | some after => readAfterSystem d after
        | none => (d.broken, skipDeclaration rest)
      else (d.broken, skipDeclaration (c :: rest))
  | [] => (d.broken, [])

/- What follows the public identifier. -/
def readAfterPublic
    (d : Doctype)
    (s : List Char) : Doctype × List Char :=
  match s.dropWhile isTagSpace with
  | '>' :: rest => (d, rest)
  | rest => readSystem d rest

/- The public identifier, if a mark opens it. -/
def readPublic
    (d : Doctype)
    (s : List Char) : Doctype × List Char :=
  match s.dropWhile isTagSpace with
  | c :: rest =>
      if c = '"' ∨ c = '\'' then
        let (id, after) := readIdentifier c rest
        let d := { d with publicId := some id }
        match after with
        | some after => readAfterPublic d after
        | none => (d.broken, skipDeclaration rest)
      else (d.broken, skipDeclaration (c :: rest))
  | [] => (d.broken, [])

/- Drop a word in any letter case from the front of a text. -/
def dropWord?
    (word : String)
    (s : List Char) : Option (List Char) :=
  let front := s.take word.length
  if front.map Char.toLower = word.toList then
    some (s.drop word.length)
  else none

/- What follows the name. -/
def readAfterName
    (d : Doctype)
    (s : List Char) : Doctype × List Char :=
  match s.dropWhile isTagSpace with
  | [] => (d.broken, [])
  | '>' :: rest => (d, rest)
  | rest =>
      match dropWord? "public" rest with
      | some after => readPublic d after
      | none =>
          match dropWord? "system" rest with
          | some after => readSystem d after
          | none => (d.broken, skipDeclaration rest)

/- A declaration after its keyword. -/
def readDoctype
    (s : List Char) : Doctype × List Char :=
  match s.dropWhile isTagSpace with
  | [] => (Doctype.broken {}, [])
  | '>' :: rest => (Doctype.broken {}, rest)
  | rest =>
      let name :=
        rest.takeWhile fun c => !isTagSpace c && c != '>'
      readAfterName { name := some (lowerText name) }
        (rest.drop name.length)

------------------------------------------------------------
-- Rendering mode
------------------------------------------------------------

/- Starts of public identifiers that ask for loose rendering. -/
def loosePublicStarts : List String :=
  ["-//advasoft ltd//dtd html 3.0 aswedit + extensions//",
    "-//as//dtd html 3.0 aswedit + extensions//",
    "-//ietf//dtd html 2.0 level 1//",
    "-//ietf//dtd html 2.0 level 2//",
    "-//ietf//dtd html 2.0 strict level 1//",
    "-//ietf//dtd html 2.0 strict level 2//",
    "-//ietf//dtd html 2.0 strict//",
    "-//ietf//dtd html 2.0//",
    "-//ietf//dtd html 2.1e//",
    "-//ietf//dtd html 3.0//",
    "-//ietf//dtd html 3.2 final//",
    "-//ietf//dtd html 3.2//",
    "-//ietf//dtd html 3//",
    "-//ietf//dtd html level 0//",
    "-//ietf//dtd html level 1//",
    "-//ietf//dtd html level 2//",
    "-//ietf//dtd html level 3//",
    "-//ietf//dtd html strict level 0//",
    "-//ietf//dtd html strict level 1//",
    "-//ietf//dtd html strict level 2//",
    "-//ietf//dtd html strict level 3//",
    "-//ietf//dtd html strict//",
    "-//ietf//dtd html//",
    "-//metrius//dtd metrius presentational//",
    "-//microsoft//dtd internet explorer 2.0 html strict//",
    "-//microsoft//dtd internet explorer 2.0 html//",
    "-//microsoft//dtd internet explorer 2.0 tables//",
    "-//microsoft//dtd internet explorer 3.0 html strict//",
    "-//microsoft//dtd internet explorer 3.0 html//",
    "-//microsoft//dtd internet explorer 3.0 tables//",
    "-//netscape comm. corp.//dtd html//",
    "-//netscape comm. corp.//dtd strict html//",
    "-//o'reilly and associates//dtd html 2.0//",
    "-//o'reilly and associates//dtd html extended 1.0//",
    "-//o'reilly and associates//dtd html extended relaxed 1.0//",
    "-//softquad software//dtd hotmetal pro 6.0::19990601::" ++
      "extensions to html 4.0//",
    "-//softquad//dtd hotmetal pro 4.0::19971010::" ++
      "extensions to html 4.0//",
    "-//spyglass//dtd html 2.0 extended//",
    "-//sq//dtd html 2.0 hotmetal + extensions//",
    "-//sun microsystems corp.//dtd hotjava html//",
    "-//sun microsystems corp.//dtd hotjava strict html//",
    "-//w3c//dtd html 3 1995-03-24//",
    "-//w3c//dtd html 3.2 draft//",
    "-//w3c//dtd html 3.2 final//",
    "-//w3c//dtd html 3.2//",
    "-//w3c//dtd html 3.2s draft//",
    "-//w3c//dtd html 4.0 frameset//",
    "-//w3c//dtd html 4.0 transitional//",
    "-//w3c//dtd html experimental 19960712//",
    "-//w3c//dtd html experimental 970421//",
    "-//w3c//dtd w3 html//",
    "-//w3o//dtd w3 html 3.0//",
    "-//webtechs//dtd mozilla html 2.0//",
    "-//webtechs//dtd mozilla html//"]

/- Public identifiers that ask for loose rendering. -/
def loosePublicIds : List String :=
  ["-//w3o//dtd w3 html strict 3.0//en//",
    "-/w3c/dtd html 4.0 transitional/en",
    "html"]

/-
  The system identifier that asks for loose rendering, given
  by its segments.
-/
def looseSystemId : String :=
  "/".intercalate
    ["http:", "", "www.ibm.com", "data", "dtd", "v11",
      "ibmxhtml1-transitional.dtd"]

/- Starts that ask for limited loose rendering. -/
def limitedPublicStarts : List String :=
  ["-//w3c//dtd xhtml 1.0 frameset//",
    "-//w3c//dtd xhtml 1.0 transitional//"]

/-
  Starts that ask for loose rendering, limited if there is a
  system identifier.
-/
def dependentPublicStarts : List String :=
  ["-//w3c//dtd html 4.01 frameset//",
    "-//w3c//dtd html 4.01 transitional//"]

/- Whether a text starts with one of several. -/
def startsWithAny
    (starts : List String)
    (text : List Char) : Bool :=
  starts.any fun start => start.toList.isPrefixOf text

/- The rendering mode a declaration asks for. -/
def Doctype.mode
    (d : Doctype) : RenderingMode :=
  let lower := fun (s : String) => s.toList.map Char.toLower
  let publicId := d.publicId.map lower
  let systemId := d.systemId.map lower
  if d.isBroken || d.name != some "html" then .loose
  else if systemId = some looseSystemId.toList then .loose
  else
    match publicId with
    | none => .standard
    | some id =>
        if (loosePublicIds.map String.toList).contains id then
          .loose
        else if startsWithAny loosePublicStarts id then .loose
        else if startsWithAny limitedPublicStarts id then .limited
        else if startsWithAny dependentPublicStarts id then
          if systemId.isSome then .limited else .loose
        else .standard

end Html

end MarkupMetrics
