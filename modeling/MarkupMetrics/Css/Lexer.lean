import MarkupMetrics.Css.Token

/-
  This file splits a text into tokens.

  A reader takes the text from some place on and gives what
  it has read together with the rest.  `lexemes` keeps, with
  each token, the column at which it starts: columns count
  sixteen-bit units from one, afresh on every line.

  Key definitions include:
    * `readEscape`
    * `readName`
    * `readString`
    * `readNumeral`
    * `readUrl?`
    * `readToken`
    * `advanceColumn`
    * `Lexeme`
    * `Stream`
    * `Stream.ofText`
-/

namespace MarkupMetrics

namespace Css

open Text

------------------------------------------------------------
-- Characters
------------------------------------------------------------

/- Line feed, form feed and carriage return. -/
def isNewline
    (c : Char) : Bool :=
  c == '\n' || c == '\x0c' || c == '\r'

/- Space, tab and newlines. -/
def isSpace
    (c : Char) : Bool :=
  c == ' ' || c == '\t' || isNewline c

/- Characters that may stand in a name as they are. -/
def isNameChar
    (c : Char) : Bool :=
  isLetter c || isDigit c || c == '_' || c == '-' ||
    0x80 ≤ c.toNat

/- Characters that may start a name as they are. -/
def isNameStart
    (c : Char) : Bool :=
  isLetter c || c == '_' || 0x80 ≤ c.toNat

/- The replacement character stands for what cannot be shown. -/
def replacement : Char :=
  Char.ofNat 0xfffd

/- The character with a code point, if there is one. -/
def charOfCode
    (n : Nat) : Char :=
  if n = 0 then replacement
  else if h : n.isValidChar then Char.ofNatAux n h
  else replacement

/- Whether a text goes on with a newline. -/
def startsNewline : List Char → Bool
  | c :: _ => isNewline c
  | [] => false

/- Drop one newline; a carriage return takes a line feed along. -/
def dropNewline : List Char → List Char
  | '\r' :: '\n' :: rest => rest
  | _ :: rest => rest
  | [] => []

------------------------------------------------------------
-- Escapes
------------------------------------------------------------

/- At most `count` hexadecimal digits and what they spell. -/
def readHex :
    Nat → Nat → List Char → Nat × List Char
  | 0, n, s => (n, s)
  | _ + 1, n, [] => (n, [])
  | count + 1, n, c :: rest =>
      match hexValue? c with
      | some d => readHex count (n * 16 + d) rest
      | none => (n, c :: rest)

/- Drop the one blank that may end a hexadecimal escape. -/
def dropEscapeEnd : List Char → List Char
  | c :: rest =>
      if c = ' ' ∨ c = '\t' then rest
      else if isNewline c then dropNewline (c :: rest)
      else c :: rest
  | [] => []

/- The character of an escape whose backslash is gone. -/
def readEscape : List Char → Char × List Char
  | [] => (replacement, [])
  | c :: rest =>
      if (hexValue? c).isSome then
        let (n, rest) := readHex 6 0 (c :: rest)
        (charOfCode n, dropEscapeEnd rest)
      else if c = '\x00' then (replacement, rest)
      else (c, rest)

theorem length_dropNewline_le
    (s : List Char) :
    (dropNewline s).length ≤ s.length := by
  unfold dropNewline
  split
  · simp only [List.length_cons]
    omega
  · simp
  · simp

theorem length_dropEscapeEnd_le
    (s : List Char) :
    (dropEscapeEnd s).length ≤ s.length := by
  cases s with
  | nil => simp [dropEscapeEnd]
  | cons c rest =>
      simp only [dropEscapeEnd]
      split
      · simp
      · split
        · exact length_dropNewline_le (c :: rest)
        · simp

theorem length_readHex_le
    (count n : Nat)
    (s : List Char) :
    (readHex count n s).2.length ≤ s.length := by
  induction count generalizing n s with
  | zero => simp [readHex]
  | succ count ih =>
      cases s with
      | nil => simp [readHex]
      | cons c rest =>
          unfold readHex
          cases hexValue? c with
          | some d =>
              have := ih (n * 16 + d) rest
              simp only [List.length_cons]
              omega
          | none => simp

theorem length_readEscape_le
    (s : List Char) :
    (readEscape s).2.length ≤ s.length := by
  cases s with
  | nil => simp [readEscape]
  | cons c rest =>
      simp only [readEscape]
      split
      · exact Nat.le_trans (length_dropEscapeEnd_le _)
          (length_readHex_le 6 0 (c :: rest))
      · split <;> simp

------------------------------------------------------------
-- Names
------------------------------------------------------------

/- The characters of a name and the text after it. -/
def readName : List Char → List Char × List Char
  | [] => ([], [])
  | c :: rest =>
      if isNameChar c then
        let (name, after) := readName rest
        (c :: name, after)
      else if c = '\x00' then
        let (name, after) := readName rest
        (replacement :: name, after)
      else if c = '\\' && !startsNewline rest then
        have := length_readEscape_le rest
        let (name, after) := readName (readEscape rest).2
        ((readEscape rest).1 :: name, after)
      else
        ([], c :: rest)
termination_by s => s.length

/-
  Whether a name starts here.  After a minus any backslash
  will do: if it escapes nothing, the name is the minus alone.
-/
def startsName : List Char → Bool
  | '-' :: c :: _ =>
      isNameStart c || c == '-' || c == '\\' || c == '\x00'
  | '\\' :: rest => !startsNewline rest
  | c :: _ => isNameStart c || c == '\x00'
  | [] => false

------------------------------------------------------------
-- Strings
------------------------------------------------------------

/- How a reader of a string ends. -/
structure StringRead where
  closed : Bool
  value : List Char
  rest : List Char

/- Put a character in front of what was read. -/
def StringRead.push
    (c : Char)
    (r : StringRead) : StringRead :=
  { r with value := c :: r.value }

/-
  A string up to its closing mark or the end of the text.
  A bare newline ends it unclosed and is left in place.
-/
def readString
    (mark : Char) : List Char → StringRead
  | [] => ⟨true, [], []⟩
  | c :: rest =>
      if c = mark then ⟨true, [], rest⟩
      else if isNewline c then ⟨false, [], c :: rest⟩
      else if c = '\\' then
        if rest = [] then ⟨true, [], []⟩
        else if startsNewline rest then
          have := length_dropNewline_le rest
          readString mark (dropNewline rest)
        else
          have := length_readEscape_le rest
          (readString mark (readEscape rest).2).push
            (readEscape rest).1
      else if c = '\x00' then
        (readString mark rest).push replacement
      else
        (readString mark rest).push c
termination_by s => s.length

------------------------------------------------------------
-- Numerals
------------------------------------------------------------

/- The values of the digits at the front of a text. -/
def leadingDigits
    (s : List Char) : List Nat :=
  (s.takeWhile isDigit).map fun c => c.toNat - 48

/- The text after the digits at its front. -/
def afterDigits
    (s : List Char) : List Char :=
  s.dropWhile isDigit

/- Whether a digit stands at the front. -/
def startsDigit : List Char → Bool
  | c :: _ => isDigit c
  | [] => false

/- Whether a number without sign starts here. -/
def startsUnsigned : List Char → Bool
  | '.' :: rest => startsDigit rest
  | s => startsDigit s

/- An optional sign: whether it is there and negative. -/
def readSign : List Char → Bool × Bool × List Char
  | '+' :: rest => (true, false, rest)
  | '-' :: rest => (true, true, rest)
  | s => (false, false, s)

/- An optional fraction. -/
def readFraction :
    List Char → Option (List Nat) × List Char
  | '.' :: rest =>
      if startsDigit rest then
        (some (leadingDigits rest), afterDigits rest)
      else (none, '.' :: rest)
  | s => (none, s)

/- An optional exponent. -/
def readExponent :
    List Char → Option (Bool × List Nat) × List Char
  | [] => (none, [])
  | c :: rest =>
      if c = 'e' ∨ c = 'E' then
        let (_, down, digits) := readSign rest
        if startsDigit digits then
          (some (down, leadingDigits digits), afterDigits digits)
        else (none, c :: rest)
      else (none, c :: rest)

/- A number. -/
def readNumeral
    (s : List Char) : Numeral × List Char :=
  let (signed, negative, s) := readSign s
  let (fraction, rest) := readFraction (afterDigits s)
  let (exponent, rest) := readExponent rest
  (⟨signed, negative, leadingDigits s, fraction, exponent⟩, rest)

/- A number with what may stand directly after it. -/
def readNumeric
    (s : List Char) : Token × List Char :=
  let (n, rest) := readNumeral s
  match rest with
  | '%' :: rest => (.percentage n, rest)
  | rest =>
      if startsName rest then
        let (unit, rest) := readName rest
        (.dimension n (String.ofList unit), rest)
      else (.number n, rest)

------------------------------------------------------------
-- Addresses
------------------------------------------------------------

/- Characters that make an unquoted address bad. -/
def isBadUrlChar
    (c : Char) : Bool :=
  c == '"' || c == '\'' || c == '(' || c == '\x7f' ||
    (c.toNat < 0x20 && !isSpace c && c != '\x00')

/- The text up to the closing parenthesis of a bad address. -/
def readBadUrl : List Char → List Char × List Char
  | [] => ([], [])
  | ')' :: rest => ([], rest)
  | '\\' :: ')' :: rest =>
      let (text, after) := readBadUrl rest
      ('\\' :: ')' :: text, after)
  | '\\' :: '\\' :: rest =>
      let (text, after) := readBadUrl rest
      ('\\' :: '\\' :: text, after)
  | c :: rest =>
      let (text, after) := readBadUrl rest
      (c :: text, after)

/-
  How an unquoted address ends.  A bad one says where the
  search for its closing parenthesis goes on.
-/
inductive UrlRead where
  | good (value rest : List Char)
  | bad (rest : List Char)

/- Put a character in front of what was read. -/
def UrlRead.push
    (c : Char) : UrlRead → UrlRead
  | .good value rest => .good (c :: value) rest
  | .bad rest => .bad rest

/- The blanks and the parenthesis that end an address. -/
def readUrlEnd : List Char → UrlRead
  | [] => .good [] []
  | c :: rest =>
      if c = ')' then .good [] rest
      else if isSpace c then readUrlEnd rest
      else .bad rest

/- An unquoted address after its leading blanks. -/
def readUrlBody : List Char → UrlRead
  | [] => .good [] []
  | c :: rest =>
      if c = ')' then .good [] rest
      else if isSpace c then readUrlEnd (c :: rest)
      else if isBadUrlChar c then .bad rest
      else if c = '\\' then
        if startsNewline rest then .bad rest
        else
          have := length_readEscape_le rest
          (readUrlBody (readEscape rest).2).push
            (readEscape rest).1
      else if c = '\x00' then (readUrlBody rest).push replacement
      else (readUrlBody rest).push c
termination_by s => s.length

/-
  An unquoted address after its opening parenthesis.  There
  is none if a quoted one follows.
-/
def readUrl?
    (s : List Char) : Option (Token × List Char) :=
  let body := s.dropWhile isSpace
  match body with
  | '"' :: _ => none
  | '\'' :: _ => none
  | _ =>
      match readUrlBody body with
      | .good value rest =>
          some (.unquotedUrl (String.ofList value), rest)
      | .bad rest =>
          let front := body.take (body.length - rest.length)
          let (text, rest) := readBadUrl rest
          some (.badUrl (String.ofList (front ++ text)), rest)

------------------------------------------------------------
-- Tokens
------------------------------------------------------------

/- A name, or a function if a parenthesis follows. -/
def readIdentLike
    (s : List Char) : Token × List Char :=
  let (name, rest) := readName s
  match rest with
  | '(' :: rest =>
      let f := Token.function (String.ofList name)
      if name.map Char.toLower = ['u', 'r', 'l'] then
        (readUrl? rest).getD (f, rest)
      else (f, rest)
  | rest => (.ident (String.ofList name), rest)

/- The text of a comment whose opening is gone. -/
def readComment : List Char → List Char × List Char
  | [] => ([], [])
  | '*' :: '/' :: rest => ([], rest)
  | c :: rest =>
      let (text, after) := readComment rest
      (c :: text, after)

/- A quoted string whose opening mark is gone. -/
def readQuoted
    (mark : Char)
    (s : List Char) : Token × List Char :=
  let r := readString mark s
  if r.closed then
    (.quotedString (String.ofList r.value), r.rest)
  else
    (.badString (String.ofList r.value), r.rest)

/- What follows a number sign. -/
def readHash
    (s : List Char) : Token × List Char :=
  if startsName s then
    let (name, rest) := readName s
    (.idHash (String.ofList name), rest)
  else
    match s with
    | c :: _ =>
        if isDigit c || c == '-' then
          let (name, rest) := readName s
          (.hash (String.ofList name), rest)
        else (.delim '#', s)
    | [] => (.delim '#', s)

/- What follows an at sign. -/
def readAt
    (s : List Char) : Token × List Char :=
  if startsName s then
    let (name, rest) := readName s
    (.atKeyword (String.ofList name), rest)
  else (.delim '@', s)

/- A token that starts with a minus. -/
def readMinus
    (rest : List Char) : Token × List Char :=
  if startsUnsigned rest then readNumeric ('-' :: rest)
  else
    match rest with
    | '-' :: '>' :: rest => (.cdc, rest)
    | rest =>
        if startsName ('-' :: rest) then readIdentLike ('-' :: rest)
        else (.delim '-', rest)

/- The token that starts with a character. -/
def readToken
    (c : Char)
    (rest : List Char) : Token × List Char :=
  if isSpace c then
    (.whiteSpace (String.ofList (c :: rest.takeWhile isSpace)),
      rest.dropWhile isSpace)
  else if isNameStart c || c == '\x00' then
    readIdentLike (c :: rest)
  else if isDigit c then readNumeric (c :: rest)
  else
    match c, rest with
    | '"', rest => readQuoted '"' rest
    | '\'', rest => readQuoted '\'' rest
    | '#', rest => readHash rest
    | '@', rest => readAt rest
    | '-', rest => readMinus rest
    | '+', rest =>
        if startsUnsigned rest then readNumeric ('+' :: rest)
        else (.delim '+', rest)
    | '.', rest =>
        if startsDigit rest then readNumeric ('.' :: rest)
        else (.delim '.', rest)
    | '\\', rest =>
        if startsNewline rest then (.delim '\\', rest)
        else readIdentLike ('\\' :: rest)
    | '/', '*' :: rest =>
        let (text, rest) := readComment rest
        (.comment (String.ofList text), rest)
    | '<', '!' :: '-' :: '-' :: rest => (.cdo, rest)
    | '$', '=' :: rest => (.suffixMatch, rest)
    | '*', '=' :: rest => (.substringMatch, rest)
    | '^', '=' :: rest => (.prefixMatch, rest)
    | '|', '=' :: rest => (.dashMatch, rest)
    | '~', '=' :: rest => (.includeMatch, rest)
    | '(', rest => (.parenthesisBlock, rest)
    | ')', rest => (.closeParenthesis, rest)
    | '[', rest => (.squareBracketBlock, rest)
    | ']', rest => (.closeSquareBracket, rest)
    | '\x7b', rest => (.curlyBracketBlock, rest)
    | '\x7d', rest => (.closeCurlyBracket, rest)
    | ',', rest => (.comma, rest)
    | ':', rest => (.colon, rest)
    | ';', rest => (.semicolon, rest)
    | c, rest => (.delim c, rest)

------------------------------------------------------------
-- Streams
------------------------------------------------------------

/- The column after a text that starts at a column. -/
def advanceColumn
    (column : Nat)
    (text : List Char) : Nat :=
  text.foldl
    (fun column c =>
      if isNewline c then 1
      else if c.toNat < 0x10000 then column + 1
      else column + 2)
    column

/- A token with the column at which it starts. -/
structure Lexeme where
  token : Token
  column : Nat
deriving DecidableEq, Repr

/- Tokens still to be read, and the column at their end. -/
structure Stream where
  lexemes : List Lexeme
  endColumn : Nat
deriving DecidableEq, Repr

/-
  Split a text from a column on.  A token takes at least one
  character, so the length of the text is enough fuel.
-/
def lexFrom :
    Nat → Nat → List Char → Stream
  | _, column, [] => ⟨[], column⟩
  | 0, column, _ :: _ => ⟨[], column⟩
  | fuel + 1, column, c :: rest =>
      let (token, after) := readToken c rest
      let used := (c :: rest).take (rest.length + 1 - after.length)
      let tail := lexFrom fuel (advanceColumn column used) after
      { tail with lexemes := ⟨token, column⟩ :: tail.lexemes }

namespace Stream

/- The tokens of a text. -/
def ofText
    (text : String) : Stream :=
  lexFrom text.toList.length 1 text.toList

/- The column of the next token. -/
def column
    (s : Stream) : Nat :=
  match s.lexemes with
  | l :: _ => l.column
  | [] => s.endColumn

/- Drop leading tokens with a property. -/
def dropWhile
    (s : Stream)
    (p : Token → Bool) : Stream :=
  { s with lexemes := s.lexemes.dropWhile fun l => p l.token }

/- Drop leading blanks and comments. -/
def skipTrivia
    (s : Stream) : Stream :=
  s.dropWhile Token.isTrivia

/- Drop leading comments. -/
def skipComments
    (s : Stream) : Stream :=
  s.dropWhile fun t => match t with
    | .comment _ => true
    | _ => false

/- The next token as it stands, with the stream after it. -/
def uncons?
    (s : Stream) : Option (Token × Stream) :=
  match s.lexemes with
  | [] => none
  | l :: rest => some (l.token, { s with lexemes := rest })

/- The next token that is not a comment. -/
def nextAny?
    (s : Stream) : Option (Token × Stream) :=
  s.skipComments.uncons?

/- The next token that is neither blank nor comment. -/
def next?
    (s : Stream) : Option (Token × Stream) :=
  s.skipTrivia.uncons?

/- The stream after its last token. -/
def atEnd
    (s : Stream) : Stream :=
  ⟨[], s.endColumn⟩

------------------------------------------------------------
-- Regions
------------------------------------------------------------

/-
  Cut a list of tokens at the first one with a property that
  is not inside a nested block.  `pending` lists the closers
  of the blocks that are open, innermost first.
-/
def cutAt
    (stop : Token → Bool) :
    List Token → List Lexeme → List Lexeme × List Lexeme
  | _, [] => ([], [])
  | pending, l :: rest =>
      if pending.isEmpty && stop l.token then
        ([], l :: rest)
      else
        let pending :=
          match l.token.closer? with
          | some c => c :: pending
          | none =>
              if pending.head? = some l.token then pending.tail
              else pending
        let (front, back) := cutAt stop pending rest
        (l :: front, back)

/-
  The part of a stream before the first token with a
  property, and the stream from that token on.
-/
def splitAt
    (s : Stream)
    (stop : Token → Bool) : Stream × Stream :=
  let (front, back) := cutAt stop [] s.lexemes
  let after : Stream := { s with lexemes := back }
  (⟨front, after.column⟩, after)

/- The inside of a block and the stream after its end. -/
def splitBlock
    (s : Stream)
    (closer : Token) : Stream × Stream :=
  let (body, after) := s.splitAt (· == closer)
  (body, { after with lexemes := after.lexemes.drop 1 })

end Stream

end Css

end MarkupMetrics
