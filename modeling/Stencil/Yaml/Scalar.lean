import Stencil.Yaml.Source

/-!
# Scalars of a document

A scalar is written without quotes, between quotes, or as a block of lines behind
a header. In the first two its words may be spread over several lines, and what
stands between two words is folded (`Yaml.Gap`); a block is read line by line.
Each reader gives the value of the scalar at a place and the source behind it.
-/

namespace Stencil

/-! ### Gaps

Between two words of a scalar there may be blanks and line ends. Blanks inside a
line stand for themselves. A gap with line ends is *folded*: the blanks around
the line ends are dropped, a single line end becomes a space, and of several the
first is dropped. A line end beyond ASCII that comes first is kept. -/

namespace Yaml

/-- What stands between two words of a scalar. -/
structure Gap where
  /-- A line ended in the gap. -/
  broken : Bool := false
  /-- The blanks in front of the first line end. -/
  blanks : Text := []
  /-- The first line end. -/
  first : Text := []
  /-- The other line ends. -/
  others : Text := []

namespace Gap

/-- The line ends of a gap, folded. -/
def fold (first others : Text) : Text :=
  match first with
  | '\n' :: _ => if others.isEmpty then [' '] else others
  | _ => first ++ others

/-- What a gap stands for in the value of the scalar. -/
def text (g : Gap) : Text := if g.broken then fold g.first g.others else g.blanks

/-- A gap and the source behind it, given what of it has been read. In a scalar
that must be indented, a tabulator in front of that indentation is refused.
`fuel` bounds the length of the gap. -/
def readFrom? (indent : Option Nat) : Nat → Gap → Source → Option (Gap × Source)
  | 0, g, s => some (g, s)
  | fuel + 1, g, s =>
    match s.peek with
    | none => some (g, s)
    | some c =>
      if isBlank c then
        if g.broken && c == '\t' && indent.any (s.column < ·) then none
        else if g.broken then readFrom? indent fuel g s.skip
        else readFrom? indent fuel { g with blanks := g.blanks ++ [c] } s.skip
      else if isBreak c then
        let (lineEnd, rest) := s.takeBreak
        if g.broken then readFrom? indent fuel { g with others := g.others ++ lineEnd } rest
        else readFrom? indent fuel ⟨true, [], lineEnd, []⟩ rest
      else some (g, s)

/-- The gap at a place and the source behind it. -/
def read? (indent : Option Nat) (g : Gap) (s : Source) : Option (Gap × Source) :=
  readFrom? indent s.rest.length g s

end Gap

/-! ### Plain scalars

A plain scalar is written without quotes. Its words end where a blank, a line end
or a colon in front of one of these stands, and in a flow collection also where
one of the characters stands that give the collection its shape. The scalar ends
with its last word, in front of a comment, in front of a border of the document,
and where a line is not indented deeply enough. -/

/-- The characters that give a flow collection its shape. -/
def isFlowMark (c : Char) : Bool := c == ',' || c == '[' || c == ']' || c == '{' || c == '}'

namespace Plain

/-- The word at the start of a text. In a flow collection a colon right in front
of a mark of the collection, or of a question mark, is refused. -/
def word? (inFlow : Bool) : Text → Option Text
  | [] => some []
  | c :: s =>
    let followed (p : Char → Bool) : Bool := s.head?.any p
    if isBlank c || isBreak c then some []
    else if inFlow && c == ':' && followed (fun d => isFlowMark d || d == '?') then none
    else if c == ':' && s.head?.all (fun d => isBlank d || isBreak d) then some []
    else if inFlow && isFlowMark c then some []
    else (word? inFlow s).map (c :: ·)

/-- The words of a plain scalar from a place on, behind a gap. The second part
tells whether the gap behind the last word has a line end. -/
def readFrom? (inFlow : Bool) (indent : Nat) :
    Nat → Gap → Source → Option (Text × Bool × Source)
  | 0, gap, s => some ([], gap.broken, s)
  | fuel + 1, gap, s =>
    if s.atAnyBorder || s.at? '#' then some ([], gap.broken, s)
    else do
      let w ← word? inFlow s.rest
      if w.isEmpty then some ([], gap.broken, s)
      else
        let lead := gap.text ++ w
        let s := s.skip w.length
        if s.atBlank || s.atBreak then
          let (gap, s) ← Gap.read? (some indent) {} s
          if !inFlow && s.column < indent then some (lead, gap.broken, s)
          else
            let (value, broken, s) ← readFrom? inFlow indent fuel gap s
            some (lead ++ value, broken, s)
        else some (lead, false, s)

/-- The value of the plain scalar at a place, whether a line ends behind it, and
the source behind both. -/
def read? (inFlow : Bool) (indent : Nat) (s : Source) : Option (Text × Bool × Source) :=
  readFrom? inFlow indent s.rest.length {} s

end Plain

/-! ### Quoted scalars

A scalar between single quotes stands for itself, two quotes for one. Between
double quotes a backslash starts an escape: a letter for a certain character, a
code in hexadecimal, or a line end that is dropped. Gaps are folded in both. -/

/-- The kind of quotes around a scalar. -/
inductive Quote where
  /-- Single quotes. -/
  | single
  /-- Double quotes. -/
  | double
  deriving DecidableEq

namespace Quote

/-- The character that opens and closes the scalar. -/
def char : Quote → Char
  | single => '\''
  | double => '"'

/-- What a letter behind a backslash stands for. -/
def escaped? (c : Char) : Option Char :=
  match c with
  | '0' => some '\x00'
  | 'a' => some '\x07'
  | 'b' => some '\x08'
  | 't' => some '\t'
  | '\t' => some '\t'
  | 'n' => some '\n'
  | 'v' => some '\x0b'
  | 'f' => some '\x0c'
  | 'r' => some '\r'
  | 'e' => some '\x1b'
  | ' ' => some ' '
  | '"' => some '"'
  | '/' => some '/'
  | '\\' => some '\\'
  | 'N' => some '\x85'
  | '_' => some '\xa0'
  | 'L' => some '\u2028'
  | 'P' => some '\u2029'
  | _ => none

/-- How many hexadecimal digits follow a letter behind a backslash. -/
def codeLength? (c : Char) : Option Nat :=
  match c with
  | 'x' => some 2
  | 'u' => some 4
  | 'U' => some 8
  | _ => none

/-- The number of hexadecimal digits. -/
def hexNumber? (digits : Text) : Option Nat :=
  digits.foldlM (fun n c => (Text.hexValue? c).map (16 * n + ·)) 0

/-- The character of a code, if there is one. -/
def charOfCode? (n : Nat) : Option Char := if n.isValidChar then some (Char.ofNat n) else none

/-- The character that the escape at a place stands for, from behind the backslash. -/
def escape? (s : Source) : Option (Char × Source) := do
  let c ← s.peek
  match codeLength? c with
  | none => (escaped? c).map fun d => (d, s.skip)
  | some n =>
    let digits := (s.skip.rest).take n
    if digits.length < n then none
    else
      let d ← (hexNumber? digits).bind charOfCode?
      some (d, s.skip (n + 1))

/-- The characters from a place up to a gap or the closing quote. The second part
tells that the word ends with a line end behind a backslash. -/
def word? (q : Quote) : Nat → Source → Option (Text × Bool × Source)
  | 0, s => some ([], false, s)
  | fuel + 1, s => do
    let continueWith (c : Char) (s : Source) : Option (Text × Bool × Source) :=
      (word? q fuel s).map fun (cs, r) => (c :: cs, r)
    match s.peek with
    | none => some ([], false, s)
    | some c =>
      if isBlank c || isBreak c then some ([], false, s)
      else if q == single && c == '\'' && s.peek 1 == some '\'' then continueWith c (s.skip 2)
      else if c == q.char then some ([], false, s)
      else if q == double && c == '\\' then
        if s.skip.atBreak then some ([], true, s.skip.skipBreak)
        else
          let (d, s) ← escape? s.skip
          continueWith d s
      else continueWith c s.skip

/-- The value of a quoted scalar from a place inside it, and the source behind
the closing quote. A border of the document must not stand inside. -/
def readFrom? (q : Quote) : Nat → Source → Option (Text × Source)
  | 0, _ => none
  | fuel + 1, s =>
    if s.atAnyBorder || s.atEnd then none
    else do
      let (w, broken, s) ← word? q s.rest.length s
      if s.at? q.char then some (w, s.skip)
      else
        let (gap, s) ← Gap.read? none { broken } s
        let (value, s) ← readFrom? q fuel s
        some (w ++ gap.text ++ value, s)

/-- The value of a quoted scalar at its opening quote, and the source behind it. -/
def read? (q : Quote) (s : Source) : Option (Text × Source) :=
  readFrom? q s.rest.length s.skip

end Quote

/-! ### Block scalars

A block scalar consists of the lines behind its header that are indented at least
as deeply as its first line, or as the header says. A literal one keeps its line
ends; a folded one folds those between two lines that do not start with a blank.
The header also says what becomes of the line ends behind the last line. -/

/-- What becomes of the line ends behind the last line. -/
inductive Chomping where
  /-- The last line loses its end. -/
  | strip
  /-- The last line keeps its end, the empty lines behind it go. -/
  | clip
  /-- All are kept. -/
  | keep
  deriving DecidableEq

/-- What the header of a block scalar says. -/
structure BlockHeader where
  /-- How deeply the lines are indented, relative to the collection around. -/
  increment : Option Nat := none
  /-- What becomes of the line ends behind the last line. -/
  chomping : Chomping := .clip

namespace Block

/-- What a sign in the header says about the line ends behind the last line. -/
def chomping? (c : Char) : Option Chomping :=
  match c with
  | '+' => some .keep
  | '-' => some .strip
  | _ => none

/-- The indentation at a place in the header, if there is one. Zero is refused. -/
def readIncrement? (h : BlockHeader) (s : Source) : Option (BlockHeader × Source) :=
  match s.peek with
  | some c =>
    if c == '0' then none
    else if c.isDigit then some ({ h with increment := some (c.toNat - '0'.toNat) }, s.skip)
    else some (h, s)
  | none => some (h, s)

/-- The sign at a place in the header, if there is one. -/
def readChomping (h : BlockHeader) (s : Source) : BlockHeader × Source :=
  match s.peek.bind chomping? with
  | some chomping => ({ h with chomping }, s.skip)
  | none => (h, s)

/-- The header from behind its first character, and the source behind its line:
a sign and an indentation in either order, then at most a comment. -/
def readHeader? (s : Source) : Option (BlockHeader × Source) := do
  let (h, s) ←
    match s.peek.bind chomping? with
    | some chomping => readIncrement? { chomping } s.skip
    | none => do
      let (h, t) ← readIncrement? {} s
      some (if h.increment.isSome then readChomping h t else (h, t))
  let s := s.skipBlanks.skipComment
  if s.atLineEnd then some (h, s.skipBreak) else none

/-- The empty lines from a place on and the source behind them, at the column
where the next line starts. As long as the indentation is not known, any number
of spaces belongs to it, and the second part is the greatest number that was
met. A tabulator in the indentation is refused. -/
def breaksFrom? (indent : Option Nat) : Nat → Nat → Source → Option (Text × Nat × Source)
  | 0, deepest, s => some ([], deepest, s)
  | fuel + 1, deepest, s =>
    let spaces := s.rest.takeWhile (· == ' ')
    let width := match indent with
      | some n => min spaces.length (n - s.column)
      | none => spaces.length
    let s := s.skip width
    let deepest := max deepest s.column
    if s.at? '\t' && indent.all (s.column < ·) then none
    else if s.atBreak then do
      let (lineEnd, s) := s.takeBreak
      let (lineEnds, deepest, s) ← breaksFrom? indent fuel deepest s
      some (lineEnd ++ lineEnds, deepest, s)
    else some ([], deepest, s)

/-- The empty lines from a place on. -/
def breaks? (indent : Option Nat) (s : Source) : Option (Text × Nat × Source) :=
  breaksFrom? indent s.rest.length 0 s

/-- The line ends that are left to be placed: that of the last line and those of
the empty lines behind it. -/
structure Pending where
  /-- The end of the last line. -/
  first : Text := []
  /-- The ends of the empty lines. -/
  others : Text := []
  /-- The last line starts with a blank. -/
  blank : Bool := false

/-- What stands between the last line and the next, which may start with a blank. -/
def Pending.joint (p : Pending) (literal nextBlank : Bool) : Text :=
  if !literal && p.first.head? == some '\n' && !p.blank && !nextBlank then
    if p.others.isEmpty then [' '] else p.others
  else p.first ++ p.others

/-- The lines from a place on that are indented, the line ends behind them, and
the source behind those. -/
def linesFrom? (literal : Bool) (indent : Nat) :
    Nat → Pending → Source → Option (Text × Pending × Source)
  | 0, p, s => some ([], p, s)
  | fuel + 1, p, s =>
    if s.column = indent ∧ !s.atEnd then do
      let blank := s.atBlank
      let joint := p.joint literal blank
      let (line, s) := s.span fun c => !isBreak c
      let (first, s) := s.takeBreak
      let (others, _, s) ← breaks? (some indent) s
      let (value, p, s) ← linesFrom? literal indent fuel ⟨first, others, blank⟩ s
      some (joint ++ line ++ value, p, s)
    else some ([], p, s)

/-- The value of the block scalar at a place, and the source behind it. The
collection around it is indented by `around`, which is below zero if there is none. -/
def read? (literal : Bool) (around : Int) (s : Source) : Option (Text × Source) := do
  let (h, s) ← readHeader? s.skip
  let known := h.increment.map fun n => (max around 0).toNat + n
  let (others, deepest, s) ← breaks? known s
  let indent := known.getD (max (max deepest (around + 1).toNat) 1)
  let (value, p, s) ← linesFrom? literal indent s.rest.length { others } s
  let tail := match h.chomping with
    | .strip => []
    | .clip => p.first
    | .keep => p.first ++ p.others
  some (value ++ tail, s)

end Block

end Yaml

end Stencil
