import Stencil.Text

/-!
# A document and a place in it

A document is read from a place on, which is kept as the text that is left
together with the number of the line, the column in the line and the offset in
bytes. A line ends with a carriage return, a line feed, both, or one of the
three line ends beyond ASCII; when a line end is part of a value, the first four
kinds are all a line feed.

Not every character may stand in a document. Whether all do is judged by blocks of
a fixed size, each when the reader comes to it, so only what is in front of the
first block with such a character can be read (`sound`).
-/

namespace Stencil

namespace Yaml

/-- A place in a document. Lines and columns are counted from zero. -/
structure Mark where
  /-- The offset in bytes. -/
  index : Nat
  /-- The number of line ends before the place. -/
  line : Nat
  /-- The number of characters between the last of them and the place. -/
  column : Nat

/-- The start of a document. -/
def Mark.origin : Mark := ⟨0, 0, 0⟩

/-- The character may stand in a document. -/
def isAllowed (c : Char) : Bool :=
  c == '\t' || c == '\n' || c == '\r' || c == '\x85' ||
    0x20 ≤ c.toNat && c.toNat ≤ 0x7E ||
    0xA0 ≤ c.toNat && c.toNat ≤ 0xFFFD || 0x10000 ≤ c.toNat

/-- The greatest size of a block, in bytes. -/
def blockSize : Nat := 16384

/-- The blocks of a document in front of the first that has a character which may
not stand there, given the bytes that are left in a block and what it holds so
far, the last character first. A character is not divided between two blocks. -/
def soundFrom : Nat → Text → Text → Text
  | _, block, [] => block.reverse
  | room, block, c :: s =>
    if room < c.utf8Size then
      block.reverse ++ if isAllowed c then soundFrom (blockSize - c.utf8Size) [c] s else []
    else if isAllowed c then soundFrom (room - c.utf8Size) (c :: block) s
    else []

/-- The part of a document that can be read: the whole, if all characters may stand in it. -/
def sound (document : Text) : Text := soundFrom blockSize [] document

/-- The character separates words in a line. -/
def isBlank (c : Char) : Bool := c == ' ' || c == '\t'

/-- The character ends a line. -/
def isBreak (c : Char) : Bool :=
  c == '\n' || c == '\r' || c == '\x85' || c == '\u2028' || c == '\u2029'

/-- The character may stand in the name of an anchor, a handle or a directive. -/
def isWordChar (c : Char) : Bool := c.isAlphanum || c == '-' || c == '_'

/-- The mark that tells the order of the bytes of a text, at its start or that of a line. -/
def byteOrderMark : Char := '\uFEFF'

/-- A document from a place on. -/
structure Source where
  /-- What is left of the document. -/
  rest : Text
  /-- The place. -/
  mark : Mark

namespace Source

/-- A document from its start on. -/
def ofText (s : Text) : Source := ⟨s, Mark.origin⟩

/-- The character at a distance. -/
def peek (s : Source) (distance : Nat := 0) : Option Char := s.rest[distance]?

/-- The character at the place is a certain one. -/
def at? (s : Source) (c : Char) : Bool := s.peek == some c

/-- The column of the place. -/
def column (s : Source) : Nat := s.mark.column

/-- There is nothing left. -/
def atEnd (s : Source) : Bool := s.rest.isEmpty

/-- A blank stands at the place. -/
def atBlank (s : Source) : Bool := s.peek.any isBlank

/-- A line ends at the place, and not the document. -/
def atBreak (s : Source) : Bool := s.peek.any isBreak

/-- A line or the document ends at the place. -/
def atLineEnd (s : Source) : Bool := s.peek.all isBreak

/-- At a distance there is a blank, or a line or the document ends. -/
def gapAt (s : Source) (distance : Nat) : Bool :=
  (s.peek distance).all fun c => isBlank c || isBreak c

/-- The source some characters on, none of which ends a line. -/
def skip (s : Source) (n : Nat := 1) : Source :=
  ⟨s.rest.drop n, { s.mark with
    index := s.mark.index + Text.utf8Size (s.rest.take n), column := s.mark.column + n }⟩

/-- The characters up to the first that does not have a property, and the source behind them. -/
def span (s : Source) (p : Char → Bool) : Text × Source :=
  let taken := s.rest.takeWhile p
  (taken, s.skip taken.length)

/-- The source behind the characters with a property. -/
def skipWhile (s : Source) (p : Char → Bool) : Source := (s.span p).2

/-- The source behind the blanks at the place. -/
def skipBlanks (s : Source) : Source := s.skipWhile isBlank

/-- The source behind a comment, if one starts at the place. -/
def skipComment (s : Source) : Source :=
  if s.at? '#' then s.skipWhile fun c => !isBreak c else s

/-- The line end at the place, as it is part of a value, and the source behind
it; nothing where no line ends. -/
def takeBreak (s : Source) : Text × Source :=
  let next (rest : Text) (bytes : Nat) : Source :=
    ⟨rest, ⟨s.mark.index + bytes, s.mark.line + 1, 0⟩⟩
  match s.rest with
  | '\r' :: '\n' :: rest => (['\n'], next rest 2)
  | c :: rest =>
    if c = '\u2028' ∨ c = '\u2029' then ([c], next rest c.utf8Size)
    else if isBreak c then (['\n'], next rest c.utf8Size)
    else ([], s)
  | [] => ([], s)

/-- The source behind the line end at the place, if there is one. -/
def skipBreak (s : Source) : Source := s.takeBreak.2

/-- The place is the start of a line with three hyphens or three points that
stand for themselves: the border of a document. -/
def atBorder (s : Source) (c : Char) : Bool :=
  s.column == 0 && s.peek 0 == some c && s.peek 1 == some c && s.peek 2 == some c && s.gapAt 3

/-- The place is a border of either kind. -/
def atAnyBorder (s : Source) : Bool := s.atBorder '-' || s.atBorder '.'

end Source

end Yaml

end Stencil
