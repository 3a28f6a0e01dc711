import MarkupMetrics.Html.Entities

/-
  This file reads character references, which stand for a
  character by its name or by its code point.

  Key definitions include:
    * `numericChar`
    * `longestEntity?`
    * `Reference`
    * `readReference?`
-/

namespace MarkupMetrics

namespace Html

open Text

------------------------------------------------------------
-- Code points
------------------------------------------------------------

/- The replacement character. -/
def replacement : Char :=
  Char.ofNat 0xfffd

/-
  What the code points from 0x80 on stand for, up to 0x9f.
  Zero marks a code point that stands for itself.
-/
def controlCodes : List Nat :=
  [0x20ac, 0, 0x201a, 0x0192, 0x201e, 0x2026, 0x2020, 0x2021,
    0x02c6, 0x2030, 0x0160, 0x2039, 0x0152, 0, 0x017d, 0,
    0, 0x2018, 0x2019, 0x201c, 0x201d, 0x2022, 0x2013, 0x2014,
    0x02dc, 0x2122, 0x0161, 0x203a, 0x0153, 0, 0x017e, 0x0178]

/- The character that a number refers to. -/
def numericChar
    (n : Nat) : Char :=
  if n = 0 || !decide n.isValidChar then replacement
  else if 0x80 ≤ n && n ≤ 0x9f then
    match controlCodes[n - 0x80]? with
    | some 0 => Char.ofNat n
    | some m => Char.ofNat m
    | none => Char.ofNat n
  else Char.ofNat n

------------------------------------------------------------
-- References
------------------------------------------------------------

/- The characters of a reference and the text after it. -/
structure Reference where
  chars : List Char
  rest : List Char
  closed : Bool
deriving DecidableEq, Repr

/-
  The longest listed name at the front of a text, with its
  characters.
-/
def longestEntity?
    (s : List Char) : Option (List Char × List Char) :=
  entities.foldl
    (fun best e =>
      if e.1.isPrefixOf s then
        match best with
        | none => some e
        | some b => if b.1.length < e.1.length then some e else best
      else best)
    none

/-
  Whether a name without semicolon is left alone in an
  attribute value, for what follows it.
-/
def keepsText : List Char → Bool
  | c :: _ => c == '=' || isLetter c || isDigit c
  | [] => false

/- A reference by name. -/
def readNamed?
    (inAttribute : Bool)
    (s : List Char) : Option Reference :=
  match longestEntity? s with
  | none => none
  | some (name, chars) =>
      let rest := s.drop name.length
      let closed := name.getLast? == some ';'
      if inAttribute && !closed && keepsText rest then none
      else some ⟨chars, rest, closed⟩

/- Drop the semicolon that should end a number. -/
def endNumber
    (c : Char) : List Char → Reference
  | ';' :: rest => ⟨[c], rest, true⟩
  | rest => ⟨[c], rest, false⟩

/- A reference by decimal number. -/
def readDecimal?
    (s : List Char) : Option Reference :=
  let digits := s.takeWhile isDigit
  if digits.isEmpty then none
  else
    some
      (endNumber
        (numericChar
          (ofDigits 10 (digits.map fun c => c.toNat - 48)))
        (s.dropWhile isDigit))

/- A reference by hexadecimal number. -/
def readHexadecimal?
    (s : List Char) : Option Reference :=
  let isHex := fun c => (hexValue? c).isSome
  let digits := s.takeWhile isHex
  if digits.isEmpty then none
  else
    some
      (endNumber (numericChar (ofHexDigits digits))
        (s.dropWhile isHex))

/- A reference whose ampersand is gone. -/
def readReference?
    (inAttribute : Bool) : List Char → Option Reference
  | '#' :: 'x' :: rest => readHexadecimal? rest
  | '#' :: 'X' :: rest => readHexadecimal? rest
  | '#' :: rest => readDecimal? rest
  | s => readNamed? inAttribute s

end Html

end MarkupMetrics
