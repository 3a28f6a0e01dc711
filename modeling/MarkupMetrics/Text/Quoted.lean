import MarkupMetrics.Text.Printable

/-
  This file defines quoted text as diagnostics show it: the
  text between double quotes, with a short escape for quotes,
  backslashes and common controls, and the code point of
  every other character that is not printable.

  Key definitions include:
    * `codePointEscape`
    * `quote`
    * `quoteChar`
-/

namespace MarkupMetrics.Text

------------------------------------------------------------
-- Escapes
------------------------------------------------------------

/- The code point of a character in hexadecimal digits. -/
def hexDigits
    (n : Nat) : List Char :=
  Nat.toDigits 16 n

/- A character written by its code point. -/
def codePointEscape
    (c : Char) : List Char :=
  ['\\', 'u', '\x7b'] ++ hexDigits c.toNat ++ ['\x7d']

/-
  One character inside quotes.  Only the quote in use is
  escaped.
-/
def escapeChar
    (mark : Char)
    (c : Char) : List Char :=
  if c = '\x00' then ['\\', '0']
  else if c = '\t' then ['\\', 't']
  else if c = '\r' then ['\\', 'r']
  else if c = '\n' then ['\\', 'n']
  else if c = '\\' then ['\\', '\\']
  else if c = mark then ['\\', mark]
  else if isPrintable c then [c]
  else codePointEscape c

------------------------------------------------------------
-- Quoting
------------------------------------------------------------

/- A text between double quotes. -/
def quote
    (s : String) : String :=
  String.ofList
    (['"'] ++ s.toList.flatMap (escapeChar '"') ++ ['"'])

/- A character between single quotes. -/
def quoteChar
    (c : Char) : String :=
  String.ofList (['\''] ++ escapeChar '\'' c ++ ['\''])

end MarkupMetrics.Text
