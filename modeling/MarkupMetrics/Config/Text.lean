import MarkupMetrics.Config.Basic
import MarkupMetrics.Text.Digits

/-
  This file reads a configuration from JSON text.

  Values of fields that a configuration does not use have to
  be well formed, but an escape in them need not name a
  character.  Field names and texts that are used have to be
  made of characters.

  Key definitions include:
    * `JsonText.skipBlanks`
    * `JsonText.readText?`
    * `JsonText.readNumber?`
    * `JsonText.readValue?`
    * `Config.ofText?`
-/

namespace MarkupMetrics

namespace JsonText

open Text

------------------------------------------------------------
-- Blanks and texts
------------------------------------------------------------

/- Drop the blanks that may stand between tokens. -/
def skipBlanks
    (s : List Char) : List Char :=
  s.dropWhile fun c =>
    c == ' ' || c == '\n' || c == '\t' || c == '\r'

/- The sixteen-bit unit written with four digits. -/
def unit?
    (a b c d : Char) : Option Nat := do
  let a ← hexValue? a
  let b ← hexValue? b
  let c ← hexValue? c
  let d ← hexValue? d
  return ((a * 16 + b) * 16 + c) * 16 + d

/- The character written by one letter after a backslash. -/
def shortEscape? : Char → Option Char
  | '"' => some '"'
  | '\\' => some '\\'
  | '/' => some '/'
  | 'b' => some '\x08'
  | 'f' => some '\x0c'
  | 'n' => some '\n'
  | 'r' => some '\r'
  | 't' => some '\t'
  | _ => none

/-
  The sixteen-bit units of a text up to its closing quote,
  and the input after it.  A character outside the first
  plane counts as itself.
-/
def readUnits? : List Char → Option (List Nat × List Char)
  | [] => none
  | '"' :: rest => some ([], rest)
  | '\\' :: 'u' :: a :: b :: c :: d :: rest => do
      let u ← unit? a b c d
      let (us, after) ← readUnits? rest
      return (u :: us, after)
  | '\\' :: e :: rest => do
      let c ← shortEscape? e
      let (us, after) ← readUnits? rest
      return (c.toNat :: us, after)
  | c :: rest =>
      if c.toNat < 0x20 ∨ c = '\\' then none
      else do
        let (us, after) ← readUnits? rest
        return (c.toNat :: us, after)

/- Whether a unit is the first half of a pair. -/
def isHigh
    (u : Nat) : Bool :=
  0xd800 ≤ u && u ≤ 0xdbff

/- Whether a unit is the second half of a pair. -/
def isLow
    (u : Nat) : Bool :=
  0xdc00 ≤ u && u ≤ 0xdfff

/- The characters of a list of units, if all halves pair up. -/
def decodeUnits? : List Nat → Option (List Char)
  | [] => some []
  | u :: rest =>
      if isLow u then none
      else if isHigh u then
        match rest with
        | [] => none
        | v :: rest =>
            if isLow v then
              (decodeUnits? rest).map
                (Char.ofNat
                  (0x10000 + (u - 0xd800) * 0x400 +
                    (v - 0xdc00)) :: ·)
            else none
      else
        (decodeUnits? rest).map (Char.ofNat u :: ·)

/-
  Read a text whose opening quote is gone.  The text itself
  is missing if its units are not characters.
-/
def readText?
    (s : List Char) : Option (Option String × List Char) := do
  let (units, rest) ← readUnits? s
  return ((decodeUnits? units).map String.ofList, rest)

------------------------------------------------------------
-- Numbers
------------------------------------------------------------

/- Drop one or more digits. -/
def skipDigits?
    (s : List Char) : Option (List Char) :=
  if (s.takeWhile isDigit).isEmpty then none
  else some (s.dropWhile isDigit)

/- Drop an optional fraction. -/
def skipFraction? : List Char → Option (List Char)
  | '.' :: rest => skipDigits? rest
  | s => some s

/- Drop an optional exponent. -/
def skipExponent? : List Char → Option (List Char)
  | c :: rest =>
      if c = 'e' ∨ c = 'E' then
        match rest with
        | '+' :: rest => skipDigits? rest
        | '-' :: rest => skipDigits? rest
        | rest => skipDigits? rest
      else some (c :: rest)
  | [] => some []

/- Drop a number, whose sign is gone. -/
def skipUnsigned? : List Char → Option (List Char)
  | '0' :: rest =>
      if (rest.takeWhile isDigit).isEmpty then do
        skipExponent? (← skipFraction? rest)
      else none
  | s => do
      skipExponent? (← skipFraction? (← skipDigits? s))

/- Drop a number. -/
def readNumber? : List Char → Option (List Char)
  | '-' :: rest => skipUnsigned? rest
  | s => skipUnsigned? s

------------------------------------------------------------
-- Values
------------------------------------------------------------

/- A value in the text of a configuration. -/
inductive Value where
  | simple (value : FieldValue)
  | list (items : List FieldValue)
  | object (fields : List (Option String × FieldValue))

/- What a value is to a field. -/
def Value.toField : Value → FieldValue
  | .simple v => v
  | _ => .other

/- Drop a given word. -/
def skipWord?
    (word : String)
    (s : List Char) : Option (List Char) :=
  if word.toList.isPrefixOf s then
    some (s.drop word.length)
  else none

mutual

/-
  Read a value.  The fuel bounds the depth of calls; a call
  that does not use up a character is followed by one that
  does, so twice the length of the input is enough.
-/
def readValue? :
    Nat → List Char → Option (Value × List Char)
  | 0, _ => none
  | fuel + 1, s =>
      match skipBlanks s with
      | '"' :: rest => do
          let (text, rest) ← readText? rest
          match text with
          | some t => return (.simple (.text t), rest)
          | none => return (.simple .other, rest)
      | '[' :: rest =>
          match skipBlanks rest with
          | ']' :: rest => some (.list [], rest)
          | rest => do
              let (items, rest) ← readItems? fuel rest
              return (.list items, rest)
      | '\x7b' :: rest =>
          match skipBlanks rest with
          | '\x7d' :: rest => some (.object [], rest)
          | rest => do
              let (fields, rest) ← readFields? fuel rest
              return (.object fields, rest)
      | 't' :: rest => do
          return (.simple (.flag true), ← skipWord? "rue" rest)
      | 'f' :: rest => do
          return (.simple (.flag false), ← skipWord? "alse" rest)
      | 'n' :: rest => do
          return (.simple .other, ← skipWord? "ull" rest)
      | rest => do
          return (.simple .other, ← readNumber? rest)

/- Read list items up to the closing bracket. -/
def readItems? :
    Nat → List Char → Option (List FieldValue × List Char)
  | 0, _ => none
  | fuel + 1, s => do
      let (v, rest) ← readValue? fuel s
      match skipBlanks rest with
      | ',' :: rest =>
          let (vs, rest) ← readItems? fuel rest
          return (v.toField :: vs, rest)
      | ']' :: rest => return ([v.toField], rest)
      | _ => none

/- Read fields up to the closing brace. -/
def readFields? :
    Nat → List Char →
      Option (List (Option String × FieldValue) × List Char)
  | 0, _ => none
  | fuel + 1, s =>
      match skipBlanks s with
      | '"' :: rest => do
          let (name, rest) ← readText? rest
          match skipBlanks rest with
          | ':' :: rest =>
              let (v, rest) ← readValue? fuel rest
              match skipBlanks rest with
              | ',' :: rest =>
                  let (fs, rest) ← readFields? fuel rest
                  return ((name, v.toField) :: fs, rest)
              | '\x7d' :: rest => return ([(name, v.toField)], rest)
              | _ => none
          | _ => none
      | _ => none

end

/- Read a whole text as one value. -/
def read?
    (text : String) : Option Value := do
  let s := text.toList
  let (v, rest) ← readValue? (2 * s.length + 2) s
  if (skipBlanks rest).isEmpty then
    return v
  else none

end JsonText

------------------------------------------------------------
-- Configuration
------------------------------------------------------------

/- Read a configuration from JSON text. -/
def Config.ofText?
    (text : String) : Option Config := do
  match ← JsonText.read? text with
  | .object fields =>
      let named ← fields.mapM fun f => do
        return (← f.1, f.2)
      ofFields? named
  | .list items => ofItems? items
  | .simple _ => none

end MarkupMetrics
