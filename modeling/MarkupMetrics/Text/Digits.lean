/-
  This file defines ASCII digits and letters and the numbers
  that digits spell.

  Key definitions include:
    * `isDigit`
    * `isLetter`
    * `hexValue?`
    * `ofDigits`
    * `ofHexDigits`
    * `decimalText`
-/

namespace MarkupMetrics.Text

------------------------------------------------------------
-- Classes
------------------------------------------------------------

/- ASCII digits. -/
def isDigit
    (c : Char) : Bool :=
  '0' ≤ c && c ≤ '9'

/- ASCII letters. -/
def isLetter
    (c : Char) : Bool :=
  ('a' ≤ c && c ≤ 'z') || ('A' ≤ c && c ≤ 'Z')

/- The value of a hexadecimal digit. -/
def hexValue?
    (c : Char) : Option Nat :=
  if isDigit c then some (c.toNat - 48)
  else if 'a' ≤ c && c ≤ 'f' then some (c.toNat - 87)
  else if 'A' ≤ c && c ≤ 'F' then some (c.toNat - 55)
  else none

------------------------------------------------------------
-- Numbers
------------------------------------------------------------

/- The number that digits spell in a base. -/
def ofDigits
    (base : Nat)
    (digits : List Nat) : Nat :=
  digits.foldl (fun n d => n * base + d) 0

/- The values of the hexadecimal digits in a text. -/
def hexDigitsOf
    (s : List Char) : List Nat :=
  s.filterMap hexValue?

/- The number that the hexadecimal digits in a text spell. -/
def ofHexDigits
    (s : List Char) : Nat :=
  ofDigits 16 (hexDigitsOf s)

/- A natural number in decimal digits. -/
def decimalText
    (n : Nat) : String :=
  String.ofList (Nat.toDigits 10 n)

/- An integer in decimal digits. -/
def integerText
    (n : Int) : String :=
  let digits := Nat.toDigits 10 n.natAbs
  String.ofList (if n < 0 then '-' :: digits else digits)

end MarkupMetrics.Text
