import Stencil.Yaml.Scalar
import Stencil.Yaml.Tag

/-!
# Tokens of a document

A document is first a list of tokens. The tokens make its structure explicit: a
block collection is opened where the indentation grows and closed where it
shrinks, and a key is marked in front of it.

That a key was a key is only known at the colon behind it, while its tokens come
earlier. The tokens that have been read are therefore held back as long as the
first of them may turn out to be the start of a key; at a colon the marks are put
in front of the key, wherever it stands among the tokens held back. The start of
a key is forgotten when its line ends or after 1024 bytes.

A document that breaks off has the tokens in front of the broken place, as far as
they had been given out when it was reached. Where only a part of the document can
be read, its end is such a place, and so is a token that reaches up to it.
-/

namespace Stencil

namespace Yaml

/-- What a token says. -/
inductive TokenKind where
  /-- The document starts. -/
  | streamStart
  /-- The document ends. -/
  | streamEnd
  /-- A directive. -/
  | directive (d : Directive)
  /-- The border in front of a document. -/
  | documentStart
  /-- The border behind a document. -/
  | documentEnd
  /-- A block sequence starts. -/
  | blockSequenceStart
  /-- A block mapping starts. -/
  | blockMappingStart
  /-- A block collection ends. -/
  | blockEnd
  /-- A flow sequence starts. -/
  | flowSequenceStart
  /-- A flow sequence ends. -/
  | flowSequenceEnd
  /-- A flow mapping starts. -/
  | flowMappingStart
  /-- A flow mapping ends. -/
  | flowMappingEnd
  /-- An element of a block sequence follows. -/
  | blockEntry
  /-- An element of a flow collection follows. -/
  | flowEntry
  /-- A key follows. -/
  | key
  /-- The value of a key follows. -/
  | value
  /-- A value defined elsewhere. -/
  | alias (name : Text)
  /-- The name of the value that follows. -/
  | anchor (name : Text)
  /-- The kind of the value that follows. -/
  | tag (handle : Text) (suffix : Tag)
  /-- A scalar, with or without quotes. -/
  | scalar (value : Text) (plain : Bool)

/-- A token and where it stands. -/
structure Token where
  /-- What it says. -/
  kind : TokenKind
  /-- Where it starts. -/
  start : Mark
  /-- Where it ends. -/
  stop : Mark

/-! ### Reading the tokens -/

/-- The place where a key may have started. -/
structure KeyStart where
  /-- There is such a place. -/
  possible : Bool := false
  /-- Only a key can stand there. -/
  required : Bool := false
  /-- How many tokens come before the key. -/
  number : Nat := 0
  /-- The place. -/
  mark : Mark := Mark.origin

/-- What is known behind the tokens that have been read. -/
structure Lexer where
  /-- What is left of the document. -/
  source : Source
  /-- The tokens that are held back. -/
  held : List Token := []
  /-- How many tokens have been given out. -/
  given : Nat := 0
  /-- The indentation of the innermost block collection, below zero if there is none. -/
  indent : Int := -1
  /-- The indentations around it, inside out. -/
  indents : List Int := []
  /-- Where a key may have started at this level of flow collections. -/
  keyStart : KeyStart := {}
  /-- Where keys may have started at the levels around it, inside out. -/
  keyStarts : List KeyStart := []
  /-- A key may start here. -/
  keyAllowed : Bool := true
  /-- The end of the document has been read. -/
  ended : Bool := false
  /-- Something follows in the document that cannot be read. -/
  torn : Bool := false

namespace Lexer

/-- The place is inside a flow collection. -/
def inFlow (l : Lexer) : Bool := !l.keyStarts.isEmpty

/-- A token of a kind from the place up to another source is held back. -/
def emit (l : Lexer) (kind : TokenKind) (source : Source) : Lexer :=
  { l with held := l.held ++ [⟨kind, l.source.mark, source.mark⟩], source }

/-- A token without extent is put in front of the token with a number. -/
def insertAt (l : Lexer) (number : Nat) (kind : TokenKind) (mark : Mark) : Lexer :=
  let before := number - l.given
  { l with held := l.held.take before ++ ⟨kind, mark, mark⟩ :: l.held.drop before }

/-- The number of the next token. -/
def nextNumber (l : Lexer) : Nat := l.given + l.held.length

/-! ### Where keys may start -/

/-- The start of a key is out of reach: in an earlier line, or too far back. -/
def isStale (l : Lexer) (k : KeyStart) : Bool :=
  k.possible && (k.mark.line < l.source.mark.line || k.mark.index + 1024 < l.source.mark.index)

/-- Forget the start of a key that is out of reach; one that is required must not be. -/
def refresh? (l : Lexer) (k : KeyStart) : Option KeyStart :=
  if l.isStale k then if k.required then none else some { k with possible := false } else some k

/-- Forget the starts of keys that are out of reach, at all levels. -/
def dropStale? (l : Lexer) : Option Lexer := do
  let keyStarts ← l.keyStarts.mapM l.refresh?
  let keyStart ← l.refresh? l.keyStart
  some { l with keyStart, keyStarts }

/-- Forget the start of a key at this level, unless it is required. -/
def forgetKey? (l : Lexer) : Option Lexer :=
  if l.keyStart.possible && l.keyStart.required then none
  else some { l with keyStart := { l.keyStart with possible := false } }

/-- A key may start at the place, if one is allowed there. -/
def saveKey? (l : Lexer) : Option Lexer :=
  if l.keyAllowed then do
    let l ← l.forgetKey?
    let required := !l.inFlow && l.indent == l.source.column
    some { l with keyStart := ⟨true, required, l.nextNumber, l.source.mark⟩ }
  else some l

/-! ### Indentation -/

/-- A block collection starts at a column, if the indentation grows there: a token
is put in front of the one with a number, or behind all. -/
def openBlock (l : Lexer) (column : Nat) (number : Option Nat) (kind : TokenKind) (mark : Mark) :
    Lexer :=
  if l.inFlow || column ≤ l.indent then l
  else
    let l := { l with indents := l.indent :: l.indents, indent := column }
    l.insertAt (number.getD l.nextNumber) kind mark

/-- The block collections that are indented more deeply than a column end. -/
def closeBlocksFrom (column : Int) : List Int → Lexer → Lexer
  | [], l => l
  | outer :: indents, l =>
    if column < l.indent then
      closeBlocksFrom column indents
        { l.emit .blockEnd l.source with indent := outer, indents }
    else l

/-- The block collections that are indented more deeply than a column end. Flow
collections do not care for indentation. -/
def closeBlocks (l : Lexer) (column : Int) : Lexer :=
  if l.inFlow then l else closeBlocksFrom column l.indents l

/-! ### Reading one token -/

/-- The place of the next token: behind blanks, comments and line ends. A
tabulator counts as a blank only where it cannot be mistaken for indentation. A
byte order mark at the start of a line is passed over, and takes up a column. -/
def skipToToken : Nat → Lexer → Lexer
  | 0, l => l
  | fuel + 1, l =>
    let s := if l.source.column == 0 && l.source.at? byteOrderMark then l.source.skip else l.source
    let s := s.skipWhile fun c => c == ' ' || (l.inFlow || !l.keyAllowed) && c == '\t'
    let s := s.skipComment
    if s.atBreak then
      skipToToken fuel { l with source := s.skipBreak, keyAllowed := l.keyAllowed || !l.inFlow }
    else { l with source := s }

/-- The end of the document. All block collections end. -/
def endStream? (l : Lexer) : Option Lexer := do
  let m := l.source.mark
  let mark := if m.column = 0 then m else { m with line := m.line + 1, column := 0 }
  let l := { l with source := { l.source with mark } }
  let l ← (l.closeBlocks (-1)).forgetKey?
  some { l.emit .streamEnd l.source with keyAllowed := false, ended := true }

/-- A directive. -/
def readDirective? (l : Lexer) : Option Lexer := do
  let l ← (l.closeBlocks (-1)).forgetKey?
  let (d, s) ← Directive.read? l.source.skip
  some { l.emit (.directive d) s with keyAllowed := false }

/-- A border of a document. -/
def readBorder? (l : Lexer) (kind : TokenKind) : Option Lexer := do
  let l ← (l.closeBlocks (-1)).forgetKey?
  some { l.emit kind (l.source.skip 3) with keyAllowed := false }

/-- The start of a flow collection. -/
def openFlow? (l : Lexer) (kind : TokenKind) : Option Lexer := do
  let l ← l.saveKey?
  let l := { l with keyStarts := l.keyStart :: l.keyStarts, keyStart := {}, keyAllowed := true }
  some (l.emit kind l.source.skip)

/-- The end of a flow collection. -/
def closeFlow? (l : Lexer) (kind : TokenKind) : Option Lexer := do
  let l ← l.forgetKey?
  let l := match l.keyStarts with
    | [] => l
    | k :: keyStarts => { l with keyStart := k, keyStarts }
  some { l.emit kind l.source.skip with keyAllowed := false }

/-- The comma between two elements of a flow collection. -/
def readFlowEntry? (l : Lexer) : Option Lexer := do
  let l ← l.forgetKey?
  some { l.emit .flowEntry l.source.skip with keyAllowed := true }

/-- A block collection starts at the place unless one is open there; in a block,
only where a key is allowed. -/
def startBlock? (l : Lexer) (kind : TokenKind) : Option Lexer :=
  if l.inFlow then some l
  else if l.keyAllowed then some (l.openBlock l.source.column none kind l.source.mark)
  else none

/-- The hyphen in front of an element of a block sequence. -/
def readBlockEntry? (l : Lexer) : Option Lexer := do
  let l ← l.startBlock? .blockSequenceStart
  let l ← l.forgetKey?
  some { l.emit .blockEntry l.source.skip with keyAllowed := true }

/-- The question mark in front of a key. -/
def readKey? (l : Lexer) : Option Lexer := do
  let l ← l.startBlock? .blockMappingStart
  let l ← l.forgetKey?
  some { l.emit .key l.source.skip with keyAllowed := !l.inFlow }

/-- The colon in front of a value. If a key may have started before it, that was one. -/
def readValue? (l : Lexer) : Option Lexer := do
  let k := l.keyStart
  let l ←
    if k.possible then
      let l := l.insertAt k.number .key k.mark
      let l := l.openBlock k.mark.column (some k.number) .blockMappingStart k.mark
      some { l with keyStart := { k with possible := false }, keyAllowed := false }
    else do
      let l ← l.startBlock? .blockMappingStart
      some { l with keyAllowed := !l.inFlow }
  some (l.emit .value l.source.skip)

/-- An anchor or an alias. -/
def readAnchored? (l : Lexer) (kind : Text → TokenKind) : Option Lexer := do
  let l ← l.saveKey?
  let (name, s) ← readAnchor? l.source.skip
  some { l.emit (kind name) s with keyAllowed := false }

/-- A tag. -/
def readTag? (l : Lexer) : Option Lexer := do
  let l ← l.saveKey?
  let ((handle, suffix), s) ← Tag.read? l.inFlow l.source
  some { l.emit (.tag handle suffix) s with keyAllowed := false }

/-- A block scalar. -/
def readBlockScalar? (l : Lexer) (literal : Bool) : Option Lexer := do
  let l ← l.forgetKey?
  let (value, s) ← Block.read? literal l.indent l.source
  some { l.emit (.scalar value false) s with keyAllowed := true }

/-- A quoted scalar. -/
def readQuotedScalar? (l : Lexer) (q : Quote) : Option Lexer := do
  let l ← l.saveKey?
  let (value, s) ← q.read? l.source
  some { l.emit (.scalar value false) s with keyAllowed := false }

/-- A plain scalar. Behind one whose line has ended a key may start. -/
def readPlainScalar? (l : Lexer) : Option Lexer := do
  let l ← l.saveKey?
  let (value, broken, s) ← Plain.read? l.inFlow (l.indent + 1).toNat l.source
  some { l.emit (.scalar value true) s with keyAllowed := broken }

/-- The characters that start a token other than a plain scalar. -/
def isIndicator (c : Char) : Bool :=
  isFlowMark c ||
  ['-', '?', ':', '#', '&', '*', '!', '|', '>', '\'', '"', '%', '@', '\x60'].contains c

/-- A plain scalar starts at the place. -/
def startsPlain (l : Lexer) (c : Char) : Bool :=
  !isIndicator c && !isBlank c && !isBreak c ||
  c == '-' && !(l.source.peek 1).any isBlank ||
  !l.inFlow && (c == '?' || c == ':') && !l.source.gapAt 1

/-- The token at the place, together with what its place implies: block
collections that end in front of it or start with it. -/
def readToken? (l : Lexer) : Option Lexer :=
  let s := l.source
  match s.peek with
  | none => l.endStream?
  | some c =>
    if s.column == 0 && c == '%' then l.readDirective?
    else if s.atBorder '-' then l.readBorder? .documentStart
    else if s.atBorder '.' then l.readBorder? .documentEnd
    else if c == '[' then l.openFlow? .flowSequenceStart
    else if c == '{' then l.openFlow? .flowMappingStart
    else if c == ']' then l.closeFlow? .flowSequenceEnd
    else if c == '}' then l.closeFlow? .flowMappingEnd
    else if c == ',' then l.readFlowEntry?
    else if c == '-' && s.gapAt 1 then l.readBlockEntry?
    else if c == '?' && (l.inFlow || s.gapAt 1) then l.readKey?
    else if c == ':' && (l.inFlow || s.gapAt 1) then l.readValue?
    else if c == '*' then l.readAnchored? .alias
    else if c == '&' then l.readAnchored? .anchor
    else if c == '!' then l.readTag?
    else if c == '|' && !l.inFlow then l.readBlockScalar? true
    else if c == '>' && !l.inFlow then l.readBlockScalar? false
    else if c == '\'' then l.readQuotedScalar? .single
    else if c == '"' then l.readQuotedScalar? .double
    else if l.startsPlain c then l.readPlainScalar?
    else none

/-- Read on by one token. What it is takes up to four characters to tell, and
where it ends one behind it. -/
def advance? (l : Lexer) : Option Lexer := do
  let l ← (l.skipToToken (l.source.rest.length + 1)).dropStale?
  if l.torn && (l.source.peek 3).isNone then none
  else
    let l ← (l.closeBlocks l.source.column).readToken?
    if l.torn && l.source.atEnd then none else some l

/-! ### Giving tokens out -/

/-- A key may start with the first token held back. -/
def headMayBeKey (l : Lexer) : Bool :=
  (l.keyStart :: l.keyStarts).any fun k => k.possible && k.number == l.given

/-- The next token to be given out, once it is certain that no mark comes before it. -/
def next? : Nat → Lexer → Option (Token × Lexer)
  | 0, _ => none
  | fuel + 1, l =>
    match l.held with
    | [] => l.advance?.bind (next? fuel)
    | t :: held => do
      let l ← l.dropStale?
      if l.headMayBeKey then l.advance?.bind (next? fuel)
      else some (t, { l with held, given := l.given + 1 })

/-- The tokens up to the end of the document, or up to the first place where
there is none. -/
def tokensFrom : Nat → Lexer → List Token
  | 0, _ => []
  | fuel + 1, l =>
    if l.ended && l.held.isEmpty then []
    else
      match l.next? (l.source.rest.length + 2) with
      | none => []
      | some (t, l) => t :: tokensFrom fuel l

end Lexer

/-- The tokens of a document. They end with `streamEnd` if the document is well
formed as far as tokens go, and where it stops being so otherwise. -/
def tokens (document : Text) : List Token :=
  let s := sound document
  let l : Lexer := { source := Source.ofText s, torn := s.length < document.length }
  (l.emit .streamStart l.source).tokensFrom (4 * document.length + 8)

end Yaml

end Stencil
