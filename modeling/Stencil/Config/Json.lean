import Stencil.Config
import Stencil.Json.Reader

/-!
# Configurations in JSON

A configuration is written as an object with any of its three fields, or as an
array of their values in order, of which the last ones may be missing. A field
that is missing or `null` sets nothing, a field that does not exist or is given
twice is refused as soon as its name has been read, and so is a value of the
wrong kind.
-/

namespace Stencil

namespace Config

/-- The fields of a configuration that have been read, each with its value. -/
structure Draft where
  /-- The value of the delimiter. -/
  delimiter : Option (Option Text) := none
  /-- The value of the default. -/
  fallback : Option (Option Text) := none
  /-- The bindings. -/
  bindings : Option (Dict Json.Value) := none

namespace Draft

/-- The field has been read. -/
def has (d : Draft) : Field → Bool
  | .delimiter => d.delimiter.isSome
  | .default => d.fallback.isSome
  | .bindings => d.bindings.isSome

/-- The configuration of the fields that have been read. -/
def finish (d : Draft) : Config :=
  ⟨d.delimiter.join, d.fallback.join, d.bindings.getD ∅⟩

end Draft

open Stencil.Json (Halt Reader halt skipBlanks)

/-- How many collections may be nested in a document. -/
def maxDepth : Nat := 127

/-- The bindings: an object. The document and this object count as collections. -/
def readBindings (fuel : Nat) : Reader (Dict Json.Value) := fun s =>
  match skipBlanks s with
  | '{' :: rest =>
    let member (acc : Dict Json.Value) (key s : Text) :
        Except Halt (Dict Json.Value × Text) := do
      let s ← Json.expectColon s
      let (v, s) ← Json.readValue fuel (maxDepth - 2) s
      .ok (acc.insert key v, s)
    Json.readMembers member fuel true ∅ rest
  | s => Json.refuse .map s

/-- The value of a field, added to what has been read. -/
def readField (fuel : Nat) (d : Draft) : Field → Reader Draft
  | .delimiter, s => do
    let (v, s) ← Json.readOptionalString s
    .ok ({ d with delimiter := some v }, s)
  | .default, s => do
    let (v, s) ← Json.readOptionalString s
    .ok ({ d with fallback := some v }, s)
  | .bindings, s => do
    let (v, s) ← readBindings fuel s
    .ok ({ d with bindings := some v }, s)

/-- A member of the document, of which the key has been read. -/
def readDraftMember (fuel : Nat) (d : Draft) (key : Text) : Reader Draft := fun s =>
  match Field.ofName? key with
  | none => halt (.unknownField key) s
  | some field =>
    if d.has field then halt (.duplicateField field) s
    else do
      let s ← Json.expectColon s
      readField fuel d field s

/-- The values of some fields in order, as the elements of an array. -/
def readDraftItems (fuel : Nat) : List Field → Bool → Draft → Reader Draft
  | [], _, d, s => do
    let rest ← Json.endList s
    .ok (d, rest)
  | field :: fields, first, d, s => do
    match ← Json.nextItem first s with
    | none =>
      let rest ← Json.endList s
      .ok (d, rest)
    | some s =>
      let (d, s) ← readField fuel d field s
      readDraftItems fuel fields false d s

/-- A configuration, with what follows it. -/
def readDraft (fuel : Nat) : Reader Draft := fun s =>
  match skipBlanks s with
  | '{' :: rest => Json.readMembers (readDraftMember fuel) fuel true {} rest
  | '[' :: rest => readDraftItems fuel Field.all true {} rest
  | s => Json.refuse .configuration s

/-- The configuration that a document is, or where and why it is refused. -/
def readJson (document : Text) : Except Halt Config := do
  let (d, rest) ← readDraft document.length document
  match skipBlanks rest with
  | [] => .ok d.finish
  | rest => halt .trailing rest

/-- The configuration that a JSON document is. -/
def ofJson (document : Text) : Except Fault Config :=
  match readJson document with
  | .ok c => .ok c
  | .error h =>
    let place := Place.behind (document.take (document.length - h.rest.length))
    .error (.configuration (h.problem.describe ++ place.describe))

end Config

end Stencil
