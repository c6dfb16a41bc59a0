import Stencil.Yaml.Token

/-!
# Events of a document

The events of a document are its values in reading order, a collection between
two events of its own. A value that is left out is an empty plain scalar.

The events are found by a machine with a stack: a stage says what may come next,
and the stack what comes after the value that is being read. A step of the
machine gives one event. It looks at no token beyond those that it needs, so all
events in front of a broken place are found.
-/

namespace Stencil

namespace Yaml

/-- What an event says. -/
inductive EventKind where
  /-- All documents have ended. -/
  | streamEnd
  /-- A document starts. -/
  | documentStart
  /-- A document ends. -/
  | documentEnd
  /-- A value that is defined elsewhere. -/
  | alias (name : Text)
  /-- A scalar, without quotes if it is plain. -/
  | scalar (anchor : Option Text) (tag : Option Tag) (value : Text) (plain : Bool)
  /-- A sequence starts. -/
  | sequenceStart (anchor : Option Text) (tag : Option Tag)
  /-- A sequence ends. -/
  | sequenceEnd
  /-- A mapping starts. -/
  | mappingStart (anchor : Option Text) (tag : Option Tag)
  /-- A mapping ends. -/
  | mappingEnd

/-- An event and where it starts. -/
structure Event where
  /-- What it says. -/
  kind : EventKind
  /-- Where it starts. -/
  mark : Mark

/-! ### From tokens to events -/

/-- What may come next. -/
inductive Stage where
  /-- The first document, which needs no border. -/
  | firstDocument
  /-- Another document. -/
  | nextDocument
  /-- The value of a document behind its border. -/
  | documentContent
  /-- The end of a document. -/
  | documentEnd
  /-- A value of any form. -/
  | value
  /-- The first element of a block sequence. -/
  | firstBlockEntry
  /-- An element of a block sequence. -/
  | blockEntry
  /-- An element of a block sequence that is indented like the keys around it. -/
  | indentlessEntry
  /-- The first key of a block mapping. -/
  | firstBlockKey
  /-- A key of a block mapping. -/
  | blockKey
  /-- The value of a key of a block mapping. -/
  | blockValue
  /-- The first element of a flow sequence. -/
  | firstFlowEntry
  /-- An element of a flow sequence. -/
  | flowEntry
  /-- The key of a mapping that is an element of a flow sequence. -/
  | pairKey
  /-- The value of the key of such a mapping. -/
  | pairValue
  /-- The end of such a mapping. -/
  | pairEnd
  /-- The first key of a flow mapping. -/
  | firstFlowKey
  /-- A key of a flow mapping. -/
  | flowKey
  /-- The value of a key of a flow mapping. -/
  | flowValue
  /-- The value of a key of a flow mapping that has none. -/
  | noFlowValue
  /-- Nothing. -/
  | finished

/-- What is known between two events. -/
structure Outline where
  /-- What comes next. -/
  stage : Stage
  /-- What comes after that, inside out. -/
  after : List Stage := []
  /-- The stems that handles are short for. -/
  stems : List (Text × Tag) := []
  /-- The tokens that are left. -/
  tokens : List Token

namespace Outline

/-- The token that is next. -/
def peek? (o : Outline) : Option Token := o.tokens.head?

/-- The outline behind the next token. -/
def skip (o : Outline) : Outline := { o with tokens := o.tokens.drop 1 }

/-- The outline at a stage. -/
def goto (o : Outline) (stage : Stage) : Outline := { o with stage }

/-- The outline with a stage that comes after the value to be read. -/
def push (o : Outline) (stage : Stage) : Outline := { o with after := stage :: o.after }

/-- The outline behind a value. -/
def pop (o : Outline) : Outline :=
  match o.after with
  | [] => o.goto .finished
  | stage :: after => { o with stage, after }

/-- The value that is left out at a place. -/
def empty (mark : Mark) : Event := ⟨.scalar none none [] true, mark⟩

/-! ### Directives -/

/-- The stems that every document has. -/
def sharedStems : List (Text × Tag) :=
  [(['!'], Tag.ofText ['!']), (['!', '!'], Tag.ofText "tag:yaml.org,2002:".toList)]

/-- The directives at the place, of which the version may be given once and each
handle once. -/
def readDirectives? (hasVersion : Bool) (stems : List (Text × Tag)) :
    List Token → Option (List (Text × Tag) × List Token)
  | [] => some (stems, [])
  | t :: ts =>
    match t.kind with
    | .directive (.version major minor) =>
      if !hasVersion && major == 1 && (minor == 1 || minor == 2) then
        readDirectives? true stems ts
      else none
    | .directive (.shorthand handle stem) =>
      if stems.any fun p => p.1 == handle then none
      else readDirectives? hasVersion (stems ++ [(handle, stem)]) ts
    | _ => some (stems, t :: ts)

/-- The outline behind the directives at the place. -/
def takeDirectives? (o : Outline) : Option Outline := do
  let (stems, tokens) ← readDirectives? false [] o.tokens
  some { o with stems := stems ++ sharedStems, tokens }

/-! ### Values -/

/-- The anchor and the tag in front of a value. -/
structure Properties where
  /-- The name of the value. -/
  anchor : Option Text := none
  /-- The kind of the value: a handle and a suffix. -/
  tag : Option (Text × Tag) := none

/-- The anchor at the place, if there is one. -/
def takeAnchor (p : Properties) (o : Outline) : Properties × Outline :=
  match o.peek? with
  | some ⟨.anchor name, _, _⟩ => ({ p with anchor := some name }, o.skip)
  | _ => (p, o)

/-- The tag at the place, if there is one. -/
def takeTag (p : Properties) (o : Outline) : Properties × Outline :=
  match o.peek? with
  | some ⟨.tag handle suffix, _, _⟩ => ({ p with tag := some (handle, suffix) }, o.skip)
  | _ => (p, o)

/-- The anchor and the tag at the place, in either order. -/
def takeProperties (o : Outline) : Properties × Outline :=
  let (p, o) := takeAnchor {} o
  let (p, o) := takeTag p o
  if p.anchor.isSome then (p, o) else takeAnchor p o

/-- The tag in full. A handle must have a stem. -/
def fullTag? (o : Outline) : Option (Text × Tag) → Option (Option Tag)
  | none => some none
  | some ([], suffix) => some (some suffix)
  | some (handle, suffix) =>
    (o.stems.find? fun p => p.1 == handle).map fun p => some (p.2 ++ suffix)

/-- The start of the value at the place. In a block it may be a block collection,
and as a value of a block mapping an indentless sequence. -/
def value? (inBlock indentless : Bool) (o : Outline) : Option (Event × Outline) := do
  let first ← o.peek?
  match first.kind with
  | .alias name => some (⟨.alias name, first.start⟩, o.skip.pop)
  | _ =>
    let (p, o) := o.takeProperties
    let t ← o.peek?
    let tag ← o.fullTag? p.tag
    let event (kind : EventKind) : Event := ⟨kind, first.start⟩
    match t.kind, inBlock with
    | .scalar value plain, _ => some (event (.scalar p.anchor tag value plain), o.skip.pop)
    | .flowSequenceStart, _ =>
      some (event (.sequenceStart p.anchor tag), (o.skip).goto .firstFlowEntry)
    | .flowMappingStart, _ =>
      some (event (.mappingStart p.anchor tag), (o.skip).goto .firstFlowKey)
    | .blockSequenceStart, true =>
      some (event (.sequenceStart p.anchor tag), (o.skip).goto .firstBlockEntry)
    | .blockMappingStart, true =>
      some (event (.mappingStart p.anchor tag), (o.skip).goto .firstBlockKey)
    | .blockEntry, _ =>
      if indentless then some (event (.sequenceStart p.anchor tag), o.goto .indentlessEntry)
      else if p.anchor.isSome || tag.isSome then
        some (event (.scalar p.anchor tag [] true), o.pop)
      else none
    | _, _ =>
      if p.anchor.isSome || tag.isSome then some (event (.scalar p.anchor tag [] true), o.pop)
      else none

/-- The tokens that a value cannot start with, as they follow a key mark or a
colon in a block. -/
def endsBlockValue : TokenKind → Bool
  | .key | .value | .blockEnd => true
  | _ => false

/-- The tokens that a value cannot start with, as they follow in a flow mapping. -/
def endsFlowValue : TokenKind → Bool
  | .flowEntry | .flowMappingEnd => true
  | _ => false

/-- The tokens that a value cannot start with, as they follow in a pair of a flow sequence. -/
def endsPairValue : TokenKind → Bool
  | .flowEntry | .flowSequenceEnd => true
  | _ => false

/-! ### Documents -/

/-- The start of another document, behind any number of borders, or the end of all. -/
def document? (o : Outline) : Option (Event × Outline) := do
  let t ← o.peek?
  match t.kind with
  | .streamEnd => some (⟨.streamEnd, t.start⟩, o.skip.goto .finished)
  | _ =>
    let o ← o.takeDirectives?
    match ← o.peek? with
    | ⟨.documentStart, _, _⟩ =>
      some (⟨.documentStart, t.start⟩, (o.skip.push .documentEnd).goto .documentContent)
    | _ => none

/-- The start of the first document, or the end of all. -/
def firstDocument? (o : Outline) : Option (Event × Outline) := do
  let t ← o.peek?
  match t.kind with
  | .directive _ | .documentStart | .streamEnd => o.document?
  | _ =>
    let o ← o.takeDirectives?
    some (⟨.documentStart, t.start⟩, (o.push .documentEnd).goto .value)

/-- The outline behind the borders that end a document. -/
def skipEnds (o : Outline) : Outline :=
  { o with tokens := o.tokens.dropWhile fun t => t.kind matches .documentEnd }

/-- The value of a document behind its border. -/
def documentContent? (o : Outline) : Option (Event × Outline) := do
  let t ← o.peek?
  match t.kind with
  | .directive _ | .documentStart | .documentEnd | .streamEnd => some (empty t.start, o.pop)
  | _ => o.value? true false

/-- The end of a document, with a border or without. -/
def documentEnd? (o : Outline) : Option (Event × Outline) := do
  let t ← o.peek?
  let o := match t.kind with
    | .documentEnd => o.skip
    | _ => o
  some (⟨.documentEnd, t.start⟩, { o with stage := .nextDocument, stems := [] })

/-! ### Block collections -/

/-- An element of a block sequence, or its end. -/
def blockEntry? (o : Outline) : Option (Event × Outline) := do
  let t ← o.peek?
  match t.kind with
  | .blockEntry =>
    let o := o.skip
    match (← o.peek?).kind with
    | .blockEntry | .blockEnd => some (empty t.stop, o.goto .blockEntry)
    | _ => (o.push .blockEntry).value? true false
  | .blockEnd => some (⟨.sequenceEnd, t.start⟩, o.skip.pop)
  | _ => none

/-- An element of an indentless sequence, or its end. -/
def indentlessEntry? (o : Outline) : Option (Event × Outline) := do
  let t ← o.peek?
  match t.kind with
  | .blockEntry =>
    let o := o.skip
    match (← o.peek?).kind with
    | .blockEntry | .key | .value | .blockEnd => some (empty t.stop, o.goto .indentlessEntry)
    | _ => (o.push .indentlessEntry).value? true false
  | _ => some (⟨.sequenceEnd, t.start⟩, o.pop)

/-- A key of a block mapping, or its end. -/
def blockKey? (o : Outline) : Option (Event × Outline) := do
  let t ← o.peek?
  match t.kind with
  | .key =>
    let o := o.skip
    if endsBlockValue (← o.peek?).kind then some (empty t.stop, o.goto .blockValue)
    else (o.push .blockValue).value? true true
  | .blockEnd => some (⟨.mappingEnd, t.start⟩, o.skip.pop)
  | _ => none

/-- The value of a key of a block mapping. -/
def blockValue? (o : Outline) : Option (Event × Outline) := do
  let t ← o.peek?
  match t.kind with
  | .value =>
    let o := o.skip
    if endsBlockValue (← o.peek?).kind then some (empty t.stop, o.goto .blockKey)
    else (o.push .blockKey).value? true true
  | _ => some (empty t.start, o.goto .blockKey)

/-! ### Flow collections -/

/-- The outline behind the comma in front of an element that is not the first. -/
def takeComma? (first : Bool) (o : Outline) : Option Outline :=
  if first then some o
  else
    match o.peek? with
    | some ⟨.flowEntry, _, _⟩ => some o.skip
    | _ => none

/-- An element of a flow sequence, or its end. A key mark starts a mapping that
is an element by itself. -/
def flowEntry? (first : Bool) (o : Outline) : Option (Event × Outline) := do
  let t ← o.peek?
  let close (t : Token) (o : Outline) : Event × Outline := (⟨.sequenceEnd, t.start⟩, o.skip.pop)
  match t.kind with
  | .flowSequenceEnd => some (close t o)
  | _ =>
    let o ← o.takeComma? first
    let t ← o.peek?
    match t.kind with
    | .key => some (⟨.mappingStart none none, t.start⟩, o.skip.goto .pairKey)
    | .flowSequenceEnd => some (close t o)
    | _ => (o.push .flowEntry).value? false false

/-- The key of a mapping inside a flow sequence. A token that it cannot start
with is passed over. -/
def pairKey? (o : Outline) : Option (Event × Outline) := do
  let t ← o.peek?
  match t.kind with
  | .value | .flowEntry | .flowSequenceEnd => some (empty t.stop, o.skip.goto .pairValue)
  | _ => (o.push .pairValue).value? false false

/-- The value of the key of a mapping inside a flow sequence. -/
def pairValue? (o : Outline) : Option (Event × Outline) := do
  let t ← o.peek?
  match t.kind with
  | .value =>
    let o := o.skip
    let t ← o.peek?
    if endsPairValue t.kind then some (empty t.start, o.goto .pairEnd)
    else (o.push .pairEnd).value? false false
  | _ => some (empty t.start, o.goto .pairEnd)

/-- The end of a mapping inside a flow sequence. -/
def pairEnd? (o : Outline) : Option (Event × Outline) := do
  let t ← o.peek?
  some (⟨.mappingEnd, t.start⟩, o.goto .flowEntry)

/-- A key of a flow mapping, or its end. -/
def flowKey? (first : Bool) (o : Outline) : Option (Event × Outline) := do
  let t ← o.peek?
  let close (t : Token) (o : Outline) : Event × Outline := (⟨.mappingEnd, t.start⟩, o.skip.pop)
  match t.kind with
  | .flowMappingEnd => some (close t o)
  | _ =>
    let o ← o.takeComma? first
    let t ← o.peek?
    match t.kind with
    | .key =>
      let o := o.skip
      let t ← o.peek?
      if endsFlowValue t.kind || t.kind matches .value then
        some (empty t.start, o.goto .flowValue)
      else (o.push .flowValue).value? false false
    | .flowMappingEnd => some (close t o)
    | _ => (o.push .noFlowValue).value? false false

/-- The value of a key of a flow mapping. -/
def flowValue? (o : Outline) : Option (Event × Outline) := do
  let t ← o.peek?
  match t.kind with
  | .value =>
    let o := o.skip
    let t ← o.peek?
    if endsFlowValue t.kind then some (empty t.start, o.goto .flowKey)
    else (o.push .flowKey).value? false false
  | _ => some (empty t.start, o.goto .flowKey)

/-- The value of a key of a flow mapping that has no colon. -/
def noFlowValue? (o : Outline) : Option (Event × Outline) := do
  let t ← o.peek?
  some (empty t.start, o.goto .flowKey)

/-! ### All events -/

/-- The next event, and what is known behind it. -/
def next? (o : Outline) : Option (Event × Outline) :=
  match o.stage with
  | .firstDocument => o.firstDocument?
  | .nextDocument => o.skipEnds.document?
  | .documentContent => o.documentContent?
  | .documentEnd => o.documentEnd?
  | .value => o.value? true false
  | .firstBlockEntry | .blockEntry => o.blockEntry?
  | .indentlessEntry => o.indentlessEntry?
  | .firstBlockKey | .blockKey => o.blockKey?
  | .blockValue => o.blockValue?
  | .firstFlowEntry => o.flowEntry? true
  | .flowEntry => o.flowEntry? false
  | .pairKey => o.pairKey?
  | .pairValue => o.pairValue?
  | .pairEnd => o.pairEnd?
  | .firstFlowKey => o.flowKey? true
  | .flowKey => o.flowKey? false
  | .flowValue => o.flowValue?
  | .noFlowValue => o.noFlowValue?
  | .finished => none

/-- The events from an outline on, of which `fuel` bounds the number. -/
def eventsFrom : Nat → Outline → List Event
  | 0, _ => []
  | fuel + 1, o =>
    match o.next? with
    | none => []
    | some (e, o) => e :: eventsFrom fuel o

end Outline

/-- The events of a document. They end with `streamEnd` if the document is well
formed, and in front of the first broken place otherwise. -/
def events (document : Text) : List Event :=
  match tokens document with
  | [] => []
  | _ :: ts => Outline.eventsFrom (4 * ts.length + 8) { stage := .firstDocument, tokens := ts }

end Yaml

end Stencil
