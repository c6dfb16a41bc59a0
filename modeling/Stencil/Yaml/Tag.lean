import Stencil.Yaml.Source

/-!
# Anchors, tags and directives

An anchor names a value and an alias refers to it by the name. A tag tells the
kind of a value: it is written out between angle brackets, or as a suffix behind
a handle, for which a directive at the start of the document may give the stem
that it is short for. A tag may have escaped bytes, so it is a list of bytes; it stops
in front of a byte zero, whether that is in its stem or in its suffix.
-/

namespace Stencil

namespace Yaml

/-- A tag, as bytes. -/
abbrev Tag := List UInt8

/-- The characters that may follow the name of an anchor, besides a gap. -/
def endsAnchor (c : Char) : Bool :=
  c == '?' || c == ':' || c == ',' || c == ']' || c == '}' || c == '%' || c == '@' || c == '\x60'

/-- The name of an anchor or an alias from behind its first character, and the
source behind it. -/
def readAnchor? (s : Source) : Option (Text × Source) :=
  let (name, s) := s.span isWordChar
  if name ≠ [] ∧ (s.gapAt 0 || s.peek.any endsAnchor) then some (name, s) else none

namespace Tag

/-- The tag of the characters of a text. -/
def ofText (s : Text) : Tag := s.utf8

/-- The tag is the lone exclamation mark. -/
def bang : Tag := ofText ['!']

/-- The tag is of no kind that all documents share. -/
def isLocal (t : Tag) : Bool := t.head? == some 0x21

/-- The character may stand in a tag; a mark of a flow collection only where
that cannot be mistaken for one. -/
def isTagChar (marks : Bool) (c : Char) : Bool :=
  isWordChar c ||
  [';', '/', '?', ':', '@', '&', '=', '+', '$', '.', '%', '!', '~', '*', '\'', '(',
    ')'].contains c ||
  marks && (c == ',' || c == '[' || c == ']')

/-- The byte of two hexadecimal digits behind a percent sign, and the source behind it. -/
def readByte? (s : Source) : Option (Nat × Source) := do
  if !s.at? '%' then none
  else
    let high ← (s.peek 1).bind Text.hexValue?
    let low ← (s.peek 2).bind Text.hexValue?
    some (high * 16 + low, s.skip 3)

/-- How many bytes a character has that starts with a byte. -/
def width? (b : Nat) : Option Nat :=
  if b < 0x80 then some 1
  else if 0xC0 ≤ b ∧ b < 0xE0 then some 2
  else if 0xE0 ≤ b ∧ b < 0xF0 then some 3
  else if 0xF0 ≤ b ∧ b < 0xF8 then some 4
  else none

/-- A number of escaped bytes that continue a character. -/
def readTail? : Nat → Source → Option (Tag × Source)
  | 0, s => some ([], s)
  | n + 1, s => do
    let (b, s) ← readByte? s
    if 0x80 ≤ b ∧ b < 0xC0 then
      let (bs, s) ← readTail? n s
      some (UInt8.ofNat b :: bs, s)
    else none

/-- The escaped bytes of one character. -/
def readEscape? (s : Source) : Option (Tag × Source) := do
  let (b, s) ← readByte? s
  let n ← width? b
  let (bs, s) ← readTail? (n - 1) s
  some (UInt8.ofNat b :: bs, s)

/-- The characters of a tag from a place on, and the source behind them. -/
def readFrom? (marks : Bool) : Nat → Source → Option (Tag × Source)
  | 0, s => some ([], s)
  | fuel + 1, s =>
    match s.peek with
    | none => some ([], s)
    | some c =>
      if !isTagChar marks c then some ([], s)
      else do
        let (bs, s) ← if c == '%' then readEscape? s else some (ofText [c], s.skip)
        let (rest, s) ← readFrom? marks fuel s
        some (bs ++ rest, s)

/-- A tag up to the first byte zero. -/
def untilZero (t : Tag) : Tag := t.takeWhile (· != 0)

/-- The characters of a tag, possibly none. -/
def readAny? (marks : Bool) (s : Source) : Option (Tag × Source) := do
  let (t, s) ← readFrom? marks s.rest.length s
  some (t.untilZero, s)

/-- The characters of a tag, of which at least one is written. -/
def readSome? (marks : Bool) (s : Source) : Option (Tag × Source) := do
  let (t, s) ← readFrom? marks s.rest.length s
  if t.isEmpty then none else some (t.untilZero, s)

/-- A handle and the source behind it: an exclamation mark, or a word between two.
Outside a directive the second one may be missing. -/
def readHandle? (inDirective : Bool) (s : Source) : Option (Text × Source) :=
  if !s.at? '!' then none
  else
    let (word, s) := s.skip.span isWordChar
    if s.at? '!' then some ('!' :: word ++ ['!'], s.skip)
    else if inDirective && !word.isEmpty then none
    else some ('!' :: word, s)

/-- The handle and the suffix of the tag at a place, and the source behind it. A
tag that is written out has no handle, and neither has a lone exclamation mark. -/
def read? (inFlow : Bool) (s : Source) : Option ((Text × Tag) × Source) := do
  let (t, s) ←
    if s.peek 1 == some '<' then do
      let (suffix, s) ← readSome? true (s.skip 2)
      if s.at? '>' then some ((([] : Text), suffix), s.skip) else none
    else do
      let (handle, s) ← readHandle? false s
      if 2 ≤ handle.length ∧ handle.getLast? = some '!' then do
        let (suffix, s) ← readSome? false s
        some ((handle, suffix), s)
      else do
        let (suffix, s) ← readAny? false s
        let suffix := ofText (handle.drop 1) ++ suffix
        some (if suffix.isEmpty then ([], bang) else (['!'], suffix), s)
  if s.gapAt 0 || inFlow && s.at? ',' then some (t, s) else none

end Tag

/-- A directive in front of a document. -/
inductive Directive where
  /-- The version of the language. -/
  | version (major minor : Nat)
  /-- The stem that a handle is short for. -/
  | shorthand (handle : Text) (stem : Tag)

namespace Directive

/-- A number of at most nine digits. -/
def readNumber? (s : Source) : Option (Nat × Source) :=
  let (digits, s) := s.span Char.isDigit
  if 1 ≤ digits.length ∧ digits.length ≤ 9 then
    some (digits.foldl (fun n c => 10 * n + (c.toNat - '0'.toNat)) 0, s)
  else none

/-- The value of a version: two numbers with a point between them. -/
def readVersion? (s : Source) : Option (Directive × Source) := do
  let (major, s) ← readNumber? s
  if s.at? '.' then
    let (minor, s) ← readNumber? s.skip
    some (.version major minor, s)
  else none

/-- The value of a handle: the handle and its stem. -/
def readStem? (s : Source) : Option (Directive × Source) := do
  let (handle, s) ← Tag.readHandle? true s
  if s.atBlank then
    let (stem, s) ← Tag.readSome? true s.skipBlanks
    if s.gapAt 0 then some (.shorthand handle stem, s) else none
  else none

/-- The directive from behind its percent sign, and the source behind its line. -/
def read? (s : Source) : Option (Directive × Source) := do
  let (name, s) := s.span isWordChar
  if !s.gapAt 0 then none
  else
    let s := s.skipBlanks
    let (d, s) ←
      if name = "YAML".toList then readVersion? s
      else if name = "TAG".toList then readStem? s
      else none
    let s := s.skipBlanks.skipComment
    if s.atLineEnd then some (d, s.skipBreak) else none

end Directive

end Yaml

end Stencil
