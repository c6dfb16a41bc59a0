import Stencil.Config.Json
import Stencil.Yaml.Document
import Stencil.Yaml.Resolution

/-!
# Configurations in YAML

A configuration is written as a mapping with any of its three fields; nothing at
all is the configuration that sets nothing. A text is any scalar, by its letters,
and a value of any kind becomes the JSON value of the same meaning. A number that
is not finite becomes no value, and a tag of the document's own is refused.

The nodes are read in order, and the first problem decides. It is told with the
path of keys and positions that leads to it, and with its place unless that is
the start of the document. An alias is read like the node that it stands for; as
aliases may be nested, their number is limited by the size of the document.
-/

namespace Stencil

namespace Config

namespace Yaml

open Stencil.Yaml (Document Mark Meaning Node TaggedKind Tag)

/-- The way from the configuration to a part of it, `none` for the configuration itself. -/
abbrev Path := Option Text

/-- The path of the value of a key, or of a key that is no scalar. -/
def Path.key (p : Path) (key : Option Text) : Path :=
  let step := key.getD ['?']
  some (match p with
    | some way => way ++ '.' :: step
    | none => step)

/-- The path of the element at a position. -/
def Path.item (p : Path) (position : Nat) : Path :=
  some (p.getD ['.'] ++ '[' :: Text.ofNat position ++ [']'])

/-- Why a document is refused, and where. -/
structure Refusal where
  /-- What is wrong. -/
  problem : Problem
  /-- The way to it, and its place. -/
  site : Option (Path × Mark)

namespace Refusal

/-- The refusal at a site, unless it has one already. -/
def locate (r : Refusal) (path : Path) (mark : Mark) : Refusal :=
  { r with site := some (r.site.getD (path, mark)) }

/-- The wording of a refusal. -/
def describe (r : Refusal) : Text :=
  match r.site with
  | none => r.problem.describe
  | some (path, mark) =>
    let way := match path with
      | some way => way ++ ": ".toList
      | none => []
    let place :=
      if mark.line = 0 ∧ mark.column = 0 then []
      else Place.describe ⟨mark.line + 1, mark.column + 1⟩
    way ++ r.problem.describe ++ place

end Refusal

/-- A place among the nodes of a document. -/
structure Walk where
  /-- How many nodes lie behind. -/
  pos : Nat
  /-- How many aliases have been followed. -/
  jumps : Nat

/-- A way to read something from a place on: what has been read and the place behind
it, or why the document is refused. -/
abbrev Reader (α : Type) := Walk → Except Refusal (α × Walk)

/-- Refuse the document at a site. -/
def refuse {α : Type} (problem : Problem) (path : Path) (mark : Mark) : Except Refusal α :=
  .error ⟨problem, some (path, mark)⟩

/-- The node at a place. Where the document breaks off it is refused for that. -/
def nodeAt (d : Document) (pos : Nat) : Except Refusal (Node × Mark) :=
  match d.nodes[pos]? with
  | some n => .ok n
  | none => .error ⟨d.broken.getD .malformed, none⟩

/-- A node that is no alias, where it was met. -/
structure Visit where
  /-- The node. -/
  node : Node
  /-- Where the node starts in the document. -/
  mark : Mark
  /-- The place behind the node. -/
  inside : Walk
  /-- The place to go on at after an alias. -/
  back : Option Nat

/-- The place behind what was visited, given the place behind what was read. -/
def Visit.leave (v : Visit) (w : Walk) : Walk := { w with pos := v.back.getD w.pos }

/-- The node at a place, or the one that an alias there stands for. -/
def visit (d : Document) (w : Walk) : Except Refusal Visit := do
  let (node, mark) ← nodeAt d w.pos
  match node with
  | .alias number =>
    if 100 * d.nodes.size < w.jumps + 1 then .error ⟨.tooManyReferences, none⟩
    else
      match d.anchors.find? fun p => p.1 == number with
      | none => .error ⟨.undefinedReference, none⟩
      | some (_, pos) =>
        let (node, mark) ← nodeAt d pos
        .ok ⟨node, mark, ⟨pos + 1, w.jumps + 1⟩, some (w.pos + 1)⟩
  | _ => .ok ⟨node, mark, ⟨w.pos + 1, w.jumps⟩, none⟩

/-! ### Scalars -/

/-- What is told of a value in a message. -/
def foundOf : Meaning → Found
  | .null => .unit
  | .boolean b => .boolean b
  | .integer n => .integer n
  | .wideInteger n => .wideInteger n
  | .float x =>
    let shown := Datum.ofFloat x
    .float (if x.toFinite?.isSome && !shown.contains '.' then shown ++ ['.', '0'] else shown)
  | .string s => .string s

/-- What is wanted of a scalar with a tag that tells its kind. -/
def wantedOf : TaggedKind → Wanted
  | .boolean => .boolean
  | .integer => .integer
  | .float => .float
  | .null => .null

/-- The meaning of a scalar. -/
def meaningOf (tag : Option Tag) (plain : Bool) (value : Text) : Except Problem Meaning :=
  match Meaning.ofScalar tag plain value with
  | .ok m => .ok m
  | .error kind => .error (.invalidValue (.string value) (wantedOf kind))

/-- The JSON value of the same meaning. -/
def valueOf : Meaning → Except Problem Json.Value
  | .null => .ok .null
  | .boolean b => .ok (.bool b)
  | .integer n => if h : Json.Fits n then .ok (.integer n h) else .error .outOfRange
  | .wideInteger _ => .error .outOfRange
  | .float (.finite x) => .ok (.float x)
  | .float _ => .ok .null
  | .string s => .ok (.string s)

/-- The problem that a node is not what is wanted. -/
def mismatch (node : Node) (wanted : Wanted) : Problem :=
  match node with
  | .scalar tag value plain =>
    match meaningOf tag plain value with
    | .ok m => .invalidType (foundOf m) wanted
    | .error problem => problem
  | .sequenceStart _ => .invalidType .sequence wanted
  | .mappingStart _ => .invalidType .map wanted
  | _ => .malformed

/-- The letters of the scalar at a place. -/
def readText (d : Document) (wanted : Wanted) (path : Path) (w : Walk) :
    Except Refusal (Text × Walk) := do
  let v ← visit d w
  match v.node with
  | .scalar _ value _ => .ok (value, v.leave v.inside)
  | node => refuse (mismatch node wanted) path v.mark

/-- The letters of the scalar at a place, or nothing if it stands for no value. -/
def readOptionalText (d : Document) (path : Path) (w : Walk) :
    Except Refusal (Option Text × Walk) := do
  let v ← visit d w
  let present : Except Refusal (Option Text × Walk) := do
    let (s, w) ← readText d .string path w
    .ok (some s, w)
  match v.node with
  | .scalar none value true =>
    if value.isEmpty || Meaning.isNull value then .ok (none, v.leave v.inside) else present
  | .scalar (some tag) value true =>
    if Meaning.kindOfTag? tag = some .null then
      if Meaning.isNull value then .ok (none, v.leave v.inside)
      else .error ⟨.invalidValue (.string value) .null, none⟩
    else present
  | .void => .ok (none, v.leave v.inside)
  | _ => present

/-! ### Collections -/

/-- The elements of a sequence up to its end, each read by `item`, which is given
its position. -/
def readItems {α : Type} (d : Document) (item : Nat → Reader α) :
    Nat → Nat → Reader (List α)
  | 0, _, _ => .error ⟨.malformed, none⟩
  | fuel + 1, position, w => do
    match (← nodeAt d w.pos).1 with
    | .sequenceEnd => .ok ([], { w with pos := w.pos + 1 })
    | _ =>
      let (x, w) ← item position w
      let (xs, w) ← readItems d item fuel (position + 1) w
      .ok (x :: xs, w)

/-- The scalar at a place, if there is one. -/
def scalarAt? (d : Document) (w : Walk) : Option Text :=
  match d.nodes[w.pos]? with
  | some (.scalar _ value _, _) => some value
  | _ => none

/-- The keys and values of a mapping up to its end. What has been read is kept in
an accumulator, which `member` extends; it is told whether the key is the first. -/
def readMembers {σ : Type} (d : Document) (member : Bool → σ → Reader σ) :
    Nat → Bool → σ → Reader σ
  | 0, _, _, _ => .error ⟨.malformed, none⟩
  | fuel + 1, first, acc, w => do
    match (← nodeAt d w.pos).1 with
    | .mappingEnd => .ok (acc, { w with pos := w.pos + 1 })
    | _ =>
      let (acc, w) ← member first acc w
      readMembers d member fuel false acc w

/-- The number of members or elements that no collection of a document exceeds. -/
def sizeBound (d : Document) : Nat := d.nodes.size + 1

/-- The tag is of the document's own. -/
def hasLocalTag (tag : Option Tag) : Bool :=
  tag.any fun t => t.isLocal && ByteArray.validateUTF8 ⟨t.toArray⟩

/-- The value at a place, in which at most `depth` collections are nested. -/
def readValue (d : Document) : Nat → Path → Reader Json.Value
  | depth, path, w => do
    let v ← visit d w
    let untagged (tag : Option Tag) : Except Refusal Unit :=
      if hasLocalTag tag then refuse (.invalidType .tagged .plainValue) path v.mark else .ok ()
    match v.node with
    | .scalar tag value plain =>
      untagged tag
      match (meaningOf tag plain value).bind valueOf with
      | .ok x => .ok (x, v.leave v.inside)
      | .error problem => refuse problem path v.mark
    | .sequenceStart tag =>
      untagged tag
      match depth with
      | 0 => .error ⟨.tooDeep, none⟩
      | depth + 1 =>
        let item (position : Nat) (w : Walk) := readValue d depth (path.item position) w
        let (items, w) ← readItems d item (sizeBound d) 0 v.inside
        .ok (.array items, v.leave w)
    | .mappingStart tag =>
      untagged tag
      match depth with
      | 0 => .error ⟨.tooDeep, none⟩
      | depth + 1 =>
        let member (first : Bool) (acc : Entries Json.Value) (w : Walk) :
            Except Refusal (Entries Json.Value × Walk) := do
          let name := scalarAt? d w
          let (key, w) ← readText d (if first then .stringKey else .string) path w
          let (x, w) ← readValue d depth (path.key name) w
          .ok (acc.insert key x, w)
        let (members, w) ← readMembers d member (sizeBound d) true [] v.inside
        .ok (.object members, v.leave w)
    | node => refuse (mismatch node .plainValue) path v.mark

/-! ### The configuration -/

/-- How many collections may be nested in a document. -/
def maxDepth : Nat := 128

/-- The node stands for a mapping without members. -/
def isNothing : Node → Bool
  | .void => true
  | .scalar _ value plain => plain && value.isEmpty
  | _ => false

/-- The bindings at a place. -/
def readBindings (d : Document) (path : Path) (w : Walk) :
    Except Refusal (Dict Json.Value × Walk) := do
  let v ← visit d w
  match v.node with
  | .mappingStart _ =>
    let member (_ : Bool) (acc : Dict Json.Value) (w : Walk) :
        Except Refusal (Dict Json.Value × Walk) := do
      let name := scalarAt? d w
      let (key, w) ← readText d .string path w
      let (x, w) ← readValue d (maxDepth - 2) (path.key name) w
      .ok (acc.insert key x, w)
    let (bindings, w) ← readMembers d member (sizeBound d) true ∅ v.inside
    .ok (bindings, v.leave w)
  | node =>
    if isNothing node then .ok (∅, v.leave v.inside) else refuse (mismatch node .map) path v.mark

/-- The value of a field, added to what has been read. -/
def readField (d : Document) (draft : Draft) (field : Field) (path : Path) (w : Walk) :
    Except Refusal (Draft × Walk) := do
  match field with
  | .delimiter =>
    let (x, w) ← readOptionalText d path w
    .ok ({ draft with delimiter := some x }, w)
  | .default =>
    let (x, w) ← readOptionalText d path w
    .ok ({ draft with fallback := some x }, w)
  | .bindings =>
    let (x, w) ← readBindings d path w
    .ok ({ draft with bindings := some x }, w)

/-- The next field of the configuration, of which the key is at the place. -/
def readDraftMember (d : Document) (draft : Draft) (w : Walk) : Except Refusal (Draft × Walk) := do
  let name := scalarAt? d w
  let v ← visit d w
  let (key, w) ← readText d .fieldName none w
  match Field.ofName? key with
  | none => refuse (.unknownField key) none v.mark
  | some field =>
    if draft.has field then .error ⟨.duplicateField field, none⟩
    else readField d draft field (Path.key none name) w

/-- The configuration at the start of a document. -/
def readDraft (d : Document) : Except Refusal Draft := do
  let v ← visit d ⟨0, 0⟩
  match v.node with
  | .mappingStart _ =>
    match readMembers d (fun _ => readDraftMember d) (sizeBound d) true {} v.inside with
    | .ok (draft, _) => .ok draft
    | .error r => .error (r.locate none v.mark)
  | node => if isNothing node then .ok {} else refuse (mismatch node .configuration) none v.mark

/-- The configuration that a document is, which must be sound to its end and the
only one. -/
def read (d : Document) : Except Refusal Config := do
  let draft ← readDraft d
  match d.broken with
  | some problem => .error ⟨problem, none⟩
  | none => if d.followed then .error ⟨.trailing, none⟩ else .ok draft.finish

end Yaml

/-- The configuration that a YAML document is. -/
def ofYaml (document : Text) : Except Fault Config :=
  match Yaml.read (Stencil.Yaml.Document.ofText document) with
  | .ok c => .ok c
  | .error r => .error (.configuration r.describe)

end Config

end Stencil
