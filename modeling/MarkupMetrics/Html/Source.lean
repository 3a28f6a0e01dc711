/-
  This file defines the text of a page as it is read: in
  blocks, without byte order marks at their starts, and with
  every line end as a line feed.

  A block holds 4096 bytes.  A character that does not fit
  into what is left of a block starts a piece of at most four
  bytes, and what the piece takes counts for the block after.
  A piece is read like a block.

  Where reading starts anew inside a block, a mark is left out
  there too.

  Key definitions include:
    * `Room`
    * `blocksFrom`
    * `unifyLines`
    * `unifyBlocks`
    * `Source`
    * `Source.ofText`
    * `Source.resume`
-/

namespace MarkupMetrics

namespace Html

------------------------------------------------------------
-- Blocks
------------------------------------------------------------

/- The number of bytes in a block. -/
def blockSize : Nat :=
  4096

/- The number of bytes in a piece, at most. -/
def pieceSize : Nat :=
  4

/-
  The bytes left in a block, and in a piece if the text stands
  in one.
-/
structure Room where
  block : Nat := blockSize
  piece : Option Nat := none
deriving DecidableEq, Repr

namespace Room

/- The room left by a character that fits. -/
def take?
    (room : Room)
    (size : Nat) : Option Room :=
  match room.piece with
  | some left =>
      if size ≤ left then
        some ⟨room.block - size, some (left - size)⟩
      else none
  | none =>
      if size ≤ room.block then some ⟨room.block - size, none⟩
      else none

/- The room left by a character that does not fit. -/
def next
    (room : Room)
    (size : Nat) : Room :=
  match room.piece with
  | some _ => ⟨room.block - size, none⟩
  | none =>
      let block := blockSize - (size - room.block)
      if room.block = 0 then ⟨block, none⟩
      else ⟨block, some (pieceSize - size)⟩

end Room

/- Put a character in front of the first block. -/
def consFirst
    (c : Char) : List (List Char) → List (List Char)
  | [] => [[c]]
  | block :: rest => (c :: block) :: rest

/- Split a text into blocks, the first of which has some room. -/
def blocksFrom
    (room : Room) : List Char → List (List Char)
  | [] => [[]]
  | c :: rest =>
      match room.take? c.utf8Size with
      | some room => consFirst c (blocksFrom room rest)
      | none =>
          let room := room.next c.utf8Size
          [] :: consFirst c (blocksFrom room rest)

/- A character put in front stands in front. -/
theorem flatten_consFirst
    (c : Char)
    (blocks : List (List Char)) :
    (consFirst c blocks).flatten = c :: blocks.flatten := by
  cases blocks <;> simp [consFirst]

/- Nothing is lost between blocks. -/
theorem flatten_blocksFrom
    (room : Room)
    (s : List Char) :
    (blocksFrom room s).flatten = s := by
  induction s generalizing room with
  | nil => simp [blocksFrom]
  | cons c rest ih =>
      unfold blocksFrom
      split <;> simp [flatten_consFirst, ih]

------------------------------------------------------------
-- Marks and lines
------------------------------------------------------------

/- The byte order mark. -/
def byteOrderMark : Char :=
  '\ufeff'

/- Whether a byte order mark comes next. -/
def startsWithMark
    (s : List Char) : Bool :=
  s.head? == some byteOrderMark

/- Drop a byte order mark from the front. -/
def dropMark
    (s : List Char) : List Char :=
  if startsWithMark s then s.drop 1 else s

/-
  Turn every line end into a line feed.  A line feed right
  after a carriage return belongs to it.
-/
def unifyLines
    (afterReturn : Bool) : List Char → List Char
  | [] => []
  | c :: rest =>
      if c = '\r' then '\n' :: unifyLines true rest
      else if c = '\n' ∧ afterReturn then unifyLines false rest
      else c :: unifyLines false rest

/- Whether a carriage return comes just before what follows. -/
def endsInReturn
    (afterReturn : Bool)
    (s : List Char) : Bool :=
  match s.getLast? with
  | some c => c == '\r'
  | none => afterReturn

/- Turn every line end in some blocks into a line feed. -/
def unifyBlocks
    (afterReturn : Bool) : List (List Char) → List (List Char)
  | [] => []
  | block :: rest =>
      unifyLines afterReturn block ::
        unifyBlocks (endsInReturn afterReturn block) rest

/- Lines can be unified one text after another. -/
theorem unifyLines_append
    (afterReturn : Bool)
    (s t : List Char) :
    unifyLines afterReturn (s ++ t) =
      unifyLines afterReturn s ++
        unifyLines (endsInReturn afterReturn s) t := by
  induction s generalizing afterReturn with
  | nil => simp [unifyLines, endsInReturn]
  | cons c rest ih =>
      have hEnd :
          endsInReturn afterReturn (c :: rest) =
            endsInReturn (c == '\r') rest := by
        cases rest <;> simp [endsInReturn, List.getLast?_cons]
      rw [hEnd, List.cons_append]
      simp only [unifyLines]
      split
      · next h => simp [ih, h]
      · next h =>
          have hReturn : (c == '\r') = false := by simp [h]
          rw [hReturn]
          split <;> simp [ih]

/- Lines do not depend on where a text is cut. -/
theorem flatten_unifyBlocks
    (afterReturn : Bool)
    (blocks : List (List Char)) :
    (unifyBlocks afterReturn blocks).flatten =
      unifyLines afterReturn blocks.flatten := by
  induction blocks generalizing afterReturn with
  | nil => simp [unifyBlocks, unifyLines]
  | cons block rest ih =>
      simp [unifyBlocks, unifyLines_append, ih]

------------------------------------------------------------
-- Sources
------------------------------------------------------------

/-
  A text to read.  `starts` says how much of it is left at the
  start of every block.
-/
structure Source where
  text : List Char
  starts : List Nat
deriving DecidableEq, Repr

namespace Source

/- How much is left at the start of each of some blocks. -/
def startsOf : List (List Char) → List Nat
  | [] => []
  | block :: rest =>
      let starts := startsOf rest
      (block.length + starts.headD 0) :: starts

/- The source of a page. -/
def ofText
    (html : String) : Source :=
  let blocks := (blocksFrom {} html.toList).map dropMark
  let blocks := unifyBlocks false blocks
  ⟨blocks.flatten, startsOf blocks⟩

/-
  The rest of the text, where reading starts anew.  At the
  start of a block its mark has been left out already.
-/
def resume
    (source : Source)
    (rest : List Char) : List Char :=
  if startsWithMark rest &&
      !source.starts.contains rest.length then
    rest.drop 1
  else rest

end Source

end Html

end MarkupMetrics
