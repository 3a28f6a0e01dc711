/-
  This file defines the shortest decimal text of a single
  precision number: the fewest digits that read back as the
  same number, and of those the nearest.

  A number is given by its binary form `mantissa * 2 ^ power`.
  It is written in positional notation from `10 ^ -4` to
  below `10 ^ 16` and with an exponent elsewhere.

  Key definitions include:
    * `Binary`
    * `Binary.ofSingle`
    * `Binary.shortest`
    * `singleText`
-/

namespace MarkupMetrics.Text

------------------------------------------------------------
-- Binary form
------------------------------------------------------------

/-
  A positive number `mantissa * 2 ^ power`.  `closeBelow`
  says that the next smaller number is half as far away as
  the next larger one.
-/
structure Binary where
  mantissa : Nat
  power : Int
  closeBelow : Bool
deriving DecidableEq, Repr

/-
  The number of fractions of a single precision pattern: its
  low twenty-three bits.
-/
def fractions : Nat :=
  8388608

/- The number of exponents: the next eight bits. -/
def exponents : Nat :=
  256

/- The binary form of a finite single precision pattern. -/
def Binary.ofSingle
    (bits : Nat) : Binary :=
  let fraction : Nat := bits % fractions
  let exponent : Nat := bits / fractions % exponents
  if exponent = 0 then
    ⟨fraction, -149, false⟩
  else
    ⟨fraction + fractions, (exponent : Int) - 150,
      fraction == 0 && 1 < exponent⟩

/- The numerator and denominator of `n * base ^ power`. -/
def scaled
    (base n : Nat)
    (power : Int) : Nat × Nat :=
  if 0 ≤ power then
    (n * Nat.pow base power.toNat, 1)
  else
    (n, Nat.pow base (-power).toNat)

/- Whether one quotient is below another. -/
def quotientLt
    (a b : Nat × Nat) : Bool :=
  a.1 * b.2 < b.1 * a.2

/- Whether one quotient is at most another. -/
def quotientLe
    (a b : Nat × Nat) : Bool :=
  a.1 * b.2 ≤ b.1 * a.2

------------------------------------------------------------
-- Shortest digits
------------------------------------------------------------

/-
  The power of ten of the leading digit, searched downwards
  from a bound.
-/
def leadingPower
    (v : Nat × Nat) : Nat → Int → Int
  | 0, e => e
  | fuel + 1, e =>
      if quotientLe (scaled 10 1 e) v then e
      else leadingPower v fuel (e - 1)

/- Whether a quotient reads back as the number. -/
def Binary.readsBack
    (b : Binary)
    (q : Nat × Nat) : Bool :=
  let low :=
    scaled 2 (4 * b.mantissa - if b.closeBelow then 1 else 2)
      (b.power - 2)
  let high := scaled 2 (4 * b.mantissa + 2) (b.power - 2)
  if b.mantissa % 2 = 0 then
    quotientLe low q && quotientLe q high
  else
    quotientLt low q && quotientLt q high

/-
  The neighbour on the decimal grid `10 ^ e` that reads back,
  the nearer one if both do.
-/
def Binary.onGrid?
    (b : Binary)
    (e : Int) : Option Nat :=
  let v := scaled 2 b.mantissa b.power
  let unit := scaled 10 1 e
  let k := v.1 * unit.2 / (v.2 * unit.1)
  let lowOk := b.readsBack (scaled 10 k e)
  let highOk := b.readsBack (scaled 10 (k + 1) e)
  if lowOk && highOk then
    let twice := scaled 10 (2 * k + 1) e
    if quotientLt (2 * v.1, v.2) twice then some k
    else some (k + 1)
  else if lowOk then some k
  else if highOk then some (k + 1)
  else none

/-
  The shortest digits `n` and the power `e` with value
  `n * 10 ^ e`, tried with more and more digits.
-/
def Binary.digitsFrom
    (b : Binary)
    (lead : Int) : Nat → Nat → Nat × Int
  | 0, _ => (0, 0)
  | fuel + 1, count =>
      match b.onGrid? (lead + 1 - count) with
      | some n => (n, lead + 1 - count)
      | none => b.digitsFrom lead fuel (count + 1)

/- The shortest digits of a number and their power of ten. -/
def Binary.shortest
    (b : Binary) : Nat × Int :=
  let v := scaled 2 b.mantissa b.power
  b.digitsFrom (leadingPower v 100 40) 20 1

------------------------------------------------------------
-- Text
------------------------------------------------------------

/- Drop zeros from the end of a list of digits. -/
def dropEndZeros
    (digits : List Char) : List Char :=
  (digits.reverse.dropWhile (· == '0')).reverse

/-
  Digits whose first stands for `10 ^ lead`, in positional
  notation with at least one digit after the point.
-/
def positionalText
    (digits : List Char)
    (lead : Int) : List Char :=
  if 0 ≤ lead then
    let whole := digits.take (lead.toNat + 1)
    let zeros := List.replicate (lead.toNat + 1 - whole.length) '0'
    let part := digits.drop (lead.toNat + 1)
    whole ++ zeros ++ ['.'] ++ if part = [] then ['0'] else part
  else
    ['0', '.'] ++ List.replicate ((-lead).toNat - 1) '0' ++ digits

/- The same digits with an exponent. -/
def exponentText
    (digits : List Char)
    (lead : Int) : List Char :=
  let part := digits.drop 1
  digits.take 1 ++ (if part = [] then [] else '.' :: part) ++
    ['e'] ++ (if lead < 0 then ['-'] else []) ++
    Nat.toDigits 10 lead.natAbs

/- The text of a positive number. -/
def Binary.text
    (b : Binary) : List Char :=
  let (n, e) := b.shortest
  let all := Nat.toDigits 10 n
  let digits := dropEndZeros all
  let lead := e + all.length - 1
  if -4 ≤ lead ∧ lead < 16 then positionalText digits lead
  else exponentText digits lead

/- The text of a single precision number. -/
def singleText
    (x : Float32) : String :=
  let bits := x.toBits.toNat
  let signless := fractions * exponents
  let sign := if bits / signless = 1 then ['-'] else []
  let rest := bits % signless
  if rest = 0 then
    String.ofList (sign ++ ['0', '.', '0'])
  else if rest / fractions = exponents - 1 then
    if rest % fractions = 0 then
      String.ofList (sign ++ ['i', 'n', 'f'])
    else "NaN"
  else
    String.ofList (sign ++ (Binary.ofSingle rest).text)

end MarkupMetrics.Text
