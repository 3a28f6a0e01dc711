/-
  This file defines blank characters and the text operations
  that depend on them: trimming, splitting into words, and
  cutting at the last character of a kind.

  Blank characters are those with the White_Space property.
  Class lists and attribute words use the five ASCII blanks
  only.

  Key definitions include:
    * `isBlank`
    * `isAsciiBlank`
    * `trimStart`
    * `trim`
    * `wordsBy`
    * `words`
    * `cutLast?`
-/

namespace MarkupMetrics.Text

------------------------------------------------------------
-- Blank characters
------------------------------------------------------------

/- Ranges of code points with the White_Space property. -/
def blankRanges : List (Nat × Nat) :=
  [(0x9, 0xd), (0x20, 0x20), (0x85, 0x85), (0xa0, 0xa0),
    (0x1680, 0x1680), (0x2000, 0x200a), (0x2028, 0x2029),
    (0x202f, 0x202f), (0x205f, 0x205f), (0x3000, 0x3000)]

/- A blank character separates words. -/
def isBlank
    (c : Char) : Bool :=
  blankRanges.any fun r =>
    r.1 ≤ c.toNat && c.toNat ≤ r.2

/- Space, tab, line feed, form feed and carriage return. -/
def isAsciiBlank
    (c : Char) : Bool :=
  c == ' ' || c == '\t' || c == '\n' || c == '\x0c' ||
    c == '\r'

------------------------------------------------------------
-- Trimming
------------------------------------------------------------

/- Drop the blanks at the front. -/
def trimStart
    (s : List Char) : List Char :=
  s.dropWhile isBlank

/- Drop the blanks at the end. -/
def trimEnd
    (s : List Char) : List Char :=
  (s.reverse.dropWhile isBlank).reverse

/- Drop the blanks at both ends. -/
def trim
    (s : List Char) : List Char :=
  trimEnd (trimStart s)

------------------------------------------------------------
-- Words
------------------------------------------------------------

/-
  The maximal stretches without a separator, in order.  No
  word is empty.
-/
def wordsBy
    (sep : Char → Bool) : List Char → List (List Char)
  | [] => []
  | c :: rest =>
      if sep c then
        wordsBy sep rest
      else
        match rest with
        | [] => [[c]]
        | d :: _ =>
            if sep d then
              [c] :: wordsBy sep rest
            else
              match wordsBy sep rest with
              | [] => [[c]]
              | w :: ws => (c :: w) :: ws

/- The words between blanks. -/
def words
    (s : List Char) : List (List Char) :=
  wordsBy isBlank s

------------------------------------------------------------
-- Cutting
------------------------------------------------------------

/-
  Cut at the last character with the property: the text
  before it and the text after it.
-/
def cutLast?
    (p : Char → Bool) : List Char →
      Option (List Char × List Char)
  | [] => none
  | c :: rest =>
      match cutLast? p rest with
      | some (before, after) => some (c :: before, after)
      | none => if p c then some ([], rest) else none

/- Drop a given text from the front, if it stands there. -/
def dropLead? : List Char → List Char → Option (List Char)
  | [], s => some s
  | _ :: _, [] => none
  | l :: ls, c :: cs =>
      if l = c then dropLead? ls cs else none

/-
  Cut at the first place where a given text stands: the text
  before it and the text after it.
-/
def cutText?
    (mark : List Char) : List Char →
      Option (List Char × List Char)
  | [] => (dropLead? mark []).map fun rest => ([], rest)
  | c :: rest =>
      match dropLead? mark (c :: rest) with
      | some after => some ([], after)
      | none =>
          (cutText? mark rest).map fun cut =>
            (c :: cut.1, cut.2)

/- Whether a text stands somewhere in another. -/
def occursIn
    (part : List Char)
    (s : List Char) : Bool :=
  (cutText? part s).isSome

/- The pieces between the separators, empty ones included. -/
def pieces
    (isSep : Char → Bool) : List Char → List (List Char)
  | [] => [[]]
  | c :: rest =>
      if isSep c then
        [] :: pieces isSep rest
      else
        match pieces isSep rest with
        | [] => [[c]]
        | p :: ps => (c :: p) :: ps

end MarkupMetrics.Text
