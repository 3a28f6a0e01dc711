/-
  This file defines payloads, the structured values that are
  pushed to an analytics transport, and their compact text.

  An object lists its fields in increasing order of name and
  holds each name once; `setField` keeps that order.

  Key definitions include:
    * `Decimal`
    * `Payload`
    * `setField`
    * `Payload.record`
    * `Payload.render`
-/

namespace MarkupMetrics

------------------------------------------------------------
-- Values
------------------------------------------------------------

/- The decimal number `mantissa / 10 ^ places`. -/
structure Decimal where
  mantissa : Int
  places : Nat
deriving DecidableEq, Repr

/- A payload is a structured value. -/
inductive Payload where
  | null
  | bool (value : Bool)
  | number (value : Decimal)
  | text (value : String)
  | list (items : List Payload)
  | object (fields : List (String × Payload))
deriving Inhabited

namespace Payload

/- A natural number as a payload. -/
def nat
    (n : Nat) : Payload :=
  .number ⟨n, 0⟩

/- An optional text as a payload. -/
def optText : Option String → Payload
  | some s => .text s
  | none => .null

/-
  Set a field in a list ordered by name.  The last value set
  under a name stays.
-/
def setField
    (name : String)
    (value : Payload) :
    List (String × Payload) → List (String × Payload)
  | [] => [(name, value)]
  | (n, v) :: rest =>
      if name < n then
        (name, value) :: (n, v) :: rest
      else if name = n then
        (name, value) :: rest
      else
        (n, v) :: setField name value rest

/- An object from fields in any order. -/
def record
    (fields : List (String × Payload)) : Payload :=
  .object (fields.foldl (fun acc f => setField f.1 f.2 acc) [])

end Payload

------------------------------------------------------------
-- Compact text
------------------------------------------------------------

/- Decimal digits, at least `width` of them. -/
def paddedDigits
    (width : Nat)
    (n : Nat) : List Char :=
  let digits := Nat.toDigits 10 n
  List.replicate (width - digits.length) '0' ++ digits

/- A number in positional notation. -/
def Decimal.render
    (d : Decimal) : String :=
  let sign := if d.mantissa < 0 then ['-'] else []
  let digits := paddedDigits (d.places + 1) d.mantissa.natAbs
  let whole := digits.take (digits.length - d.places)
  let part := digits.drop (digits.length - d.places)
  if d.places = 0 then
    String.ofList (sign ++ whole)
  else
    String.ofList (sign ++ whole ++ ['.'] ++ part)

namespace Payload

/- One character of a text in compact notation. -/
def renderChar
    (c : Char) : List Char :=
  if c = '"' then ['\\', '"']
  else if c = '\\' then ['\\', '\\']
  else if c = '\n' then ['\\', 'n']
  else if c = '\r' then ['\\', 'r']
  else if c = '\t' then ['\\', 't']
  else if c = '\x08' then ['\\', 'b']
  else if c = '\x0c' then ['\\', 'f']
  else if c.toNat < 0x20 then
    let digits := Nat.toDigits 16 c.toNat
    ['\\', 'u'] ++ List.replicate (4 - digits.length) '0' ++ digits
  else [c]

/- A text in compact notation. -/
def renderText
    (s : String) : String :=
  String.ofList (['"'] ++ s.toList.flatMap renderChar ++ ['"'])

mutual

/- The compact text of a payload, without blanks. -/
def render : Payload → String
  | .null => "null"
  | .bool true => "true"
  | .bool false => "false"
  | .number d => d.render
  | .text s => renderText s
  | .list items => "[" ++ renderItems items ++ "]"
  | .object fields => "\x7b" ++ renderFields fields ++ "\x7d"

/- List items, separated by commas. -/
def renderItems : List Payload → String
  | [] => ""
  | [p] => render p
  | p :: rest => render p ++ "," ++ renderItems rest

/- Object fields, separated by commas. -/
def renderFields : List (String × Payload) → String
  | [] => ""
  | [(n, p)] => renderText n ++ ":" ++ render p
  | (n, p) :: rest =>
      renderText n ++ ":" ++ render p ++ "," ++
        renderFields rest

end

end Payload

end MarkupMetrics
