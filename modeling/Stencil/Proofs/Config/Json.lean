import Stencil.Config.Json
import Stencil.Proofs.Json.Reader

/-!
# Configurations read back

A configuration is written as an object with up to three members: a field without a text
is left out, and so are the bindings if there are none. Reading undoes this
(`Stencil.Config.ofJson_write`): a field that is missing sets nothing, and missing bindings
are none. A binding to nothing is written as `null`, which as a value of the bindings is
read as a value and not as a missing one.

The reader goes through the members of a document in the order in which they stand and
adds one after the other to what it has (`Stencil.Config.Draft.add?`). So what it makes of
any object that is written as a document is a fold over the members
(`Stencil.Config.toOption_ofJson_object`); for the members of a configuration this fold
gives back the three fields.
-/

namespace Stencil

namespace Config

open Json (Value)

/-! ### What the fields take -/

/-- What a value makes of a field that is a text or missing. -/
def optionalText? : Value → Option (Option Text)
  | .null => some none
  | .string s => some (some s)
  | _ => none

/-- What a value makes of the bindings. -/
def bindings? : Value → Option (Dict Value)
  | .object ms => some (Dict.ofList (Value.regularizedMembers ms))
  | _ => none

namespace Draft

/-- A field with a value, if the field takes it. -/
def put? (d : Draft) : Field → Value → Option Draft
  | .delimiter, v => (optionalText? v).map fun x => { d with delimiter := some x }
  | .default, v => (optionalText? v).map fun x => { d with fallback := some x }
  | .bindings, v => (bindings? v).map fun x => { d with bindings := some x }

/-- One more member of a document, if it names a field that has not been read and
that takes the value. -/
def add? (d : Draft) (m : Text × Value) : Option Draft := do
  let field ← Field.ofName? m.1
  if d.has field then none else d.put? field m.2

end Draft

/-- What does not start as an object is refused as bindings. -/
theorem toOption_readBindings {fuel : Nat} {c : Char} {s : Text} (hblank : Json.isBlank c = false)
    (hobject : c ≠ '{') : (readBindings fuel (c :: s)).toOption = none := by
  rw [readBindings, Json.skipBlanks_cons hblank]
  split
  · next heq => exact absurd (List.cons.inj heq).1 hobject
  · exact Json.toOption_refuse _ _

section Written

variable {v : Value} (hfree : v.FloatFree) {rest : Text}

include hfree

/-- A string or `null` is read, and any other value refused. -/
theorem readOptionalString_write :
    (Json.readOptionalString (v.write ++ rest)).toOption =
      (optionalText? v).map fun x => (x, rest) := by
  cases hfree with
  | null => rfl
  | bool b =>
    cases b <;> exact Json.toOption_readOptionalString rfl (by decide) (by decide)
  | integer n fits =>
    obtain ⟨c, s, hs, hc⟩ := Json.exists_ofInt_eq_cons n
    rw [Value.write, hs]
    exact Json.toOption_readOptionalString hc.isBlank (hc.ne (by decide)) (hc.ne (by decide))
  | string s =>
    rw [Value.write, Json.quote_append, Json.readOptionalString, Json.skipBlanks_cons rfl]
    simp only [Json.readQuoted_written]
    rfl
  | array h => exact Json.toOption_readOptionalString rfl (by decide) (by decide)
  | object h => exact Json.toOption_readOptionalString rfl (by decide) (by decide)

/-- An object is read as bindings, and any other value refused. -/
theorem readBindings_write {fuel : Nat} (hdepth : v.depth ≤ maxDepth - 1)
    (hfuel : v.write.length ≤ fuel) :
    (readBindings fuel (v.write ++ rest)).toOption = (bindings? v).map fun x => (x, rest) := by
  cases hfree with
  | null => exact toOption_readBindings rfl (by decide)
  | bool b => cases b <;> exact toOption_readBindings rfl (by decide)
  | integer n fits =>
    obtain ⟨c, s, hs, hc⟩ := Json.exists_ofInt_eq_cons n
    rw [Value.write, hs]
    exact toOption_readBindings hc.isBlank (hc.ne (by decide))
  | string s => exact toOption_readBindings rfl (by decide)
  | array h => exact toOption_readBindings rfl (by decide)
  | @object ms h =>
    have hvalue : ∀ m ∈ ms, Json.ReadsBack (Json.readValue fuel (maxDepth - 2)) m.2 := by
      intro m hm
      have hshort := Value.length_write_lt_of_mem_members hm
      have hdeep := Value.depthMembers_le_iff.mp (Nat.le_of_succ_le_succ hdepth) m hm
      exact Json.readsBack_readValue (h m hm) hdeep (by omega)
    have hmembers := Json.readMembers_put (fun acc key v => Dict.insert acc key v) hvalue
      (Nat.lt_of_lt_of_le (Value.length_members_lt ms) hfuel) ∅ rest
    rw [Value.write_object_append, readBindings, Json.skipBlanks_cons rfl, bindings?,
      ← Dict.empty_overlay]
    exact congrArg Except.toOption hmembers

theorem readField_write {fuel : Nat} (hdepth : v.depth ≤ maxDepth - 1)
    (hfuel : v.write.length ≤ fuel) (d : Draft) (field : Field) :
    (readField fuel d field (v.write ++ rest)).toOption =
      (d.put? field v).map fun d => (d, rest) := by
  cases field with
  | delimiter =>
    exact Json.toOption_bind_map (readOptionalString_write hfree)
      fun x => { d with delimiter := some x }
  | default =>
    exact Json.toOption_bind_map (readOptionalString_write hfree)
      fun x => { d with fallback := some x }
  | bindings =>
    exact Json.toOption_bind_map (readBindings_write hfree hdepth hfuel)
      fun x => { d with bindings := some x }

end Written

/-- **A member of a document is added**, or refused for its name or its value. -/
theorem readsAs_readDraftMember {m : Text × Value} (hfree : m.2.FloatFree) {fuel : Nat}
    (hdepth : m.2.depth ≤ maxDepth - 1) (hfuel : m.2.write.length ≤ fuel) :
    Json.ReadsAs (readDraftMember fuel) Draft.add? m := by
  intro d s hs
  rw [readDraftMember, Draft.add?]
  cases Field.ofName? m.1 with
  | none => rfl
  | some field =>
    dsimp only [Option.bind_eq_bind, Option.bind_some]
    split
    · rfl
    · exact readField_write hfree hdepth hfuel d field

/-- What is read of the whole document is the configuration. -/
theorem toOption_ofJson {document : Text} {o : Option Draft}
    (h : (readDraft document.length document).toOption = o.map fun d => (d, [])) :
    (ofJson document).toOption = o.map Draft.finish := by
  have hjson : (readJson document).toOption = o.map Draft.finish := by
    rw [readJson, Json.toOption_bind, h, Option.bind_map]
    cases o <;> rfl
  rw [← hjson, ofJson]
  cases readJson document <;> rfl

/-- **A document that is an object** is the configuration that its members build up one
after the other, and is refused as soon as one of them cannot be added. -/
theorem toOption_ofJson_object {ms : Entries Value} (hfree : ∀ m ∈ ms, m.2.FloatFree)
    (hdepth : (Value.object ms).depth ≤ maxDepth) :
    (ofJson (Value.object ms).write).toOption =
      (ms.foldlM Draft.add? {}).map Draft.finish := by
  have hmember : ∀ m ∈ ms,
      Json.ReadsAs (readDraftMember (Value.object ms).write.length) Draft.add? m := by
    intro m hm
    have hdeep := Value.depthMembers_le_iff.mp (Nat.le_of_succ_le_succ hdepth) m hm
    have hshort := Value.length_write_lt_of_mem_members hm
    exact readsAs_readDraftMember (hfree m hm) hdeep (Nat.le_of_lt hshort)
  have hdraft : (readDraft (Value.object ms).write.length (Value.object ms).write).toOption =
      (ms.foldlM Draft.add? {}).map fun d => (d, []) :=
    Json.readMembers_written hmember (Value.length_members_lt ms) {}
  exact toOption_ofJson hdraft

/-! ### Configurations -/

/-- The member that a field with a text becomes. -/
def textMember (field : Field) : Option Text → Entries Value
  | some s => [(field.name, .string s)]
  | none => []

/-- The member that the bindings become, if there are any. -/
def bindingsMember (d : Dict Value) : Entries Value :=
  if d.isEmpty then [] else [(Field.bindings.name, .object d.toList)]

/-- The members that a configuration is written as. -/
def members (c : Config) : Entries Value :=
  textMember .delimiter c.delimiter ++ (textMember .default c.fallback ++ bindingsMember c.bindings)

theorem toValue_eq (c : Config) : c.toValue = .object c.members := by
  rw [toValue, members, ← List.append_assoc]
  cases c.delimiter <;> cases c.fallback <;> rfl

/-- **A configuration that a JSON document can carry**: as a program builds them, without
binary64 numbers, and not nested more deeply than a reader goes. -/
structure Portable (c : Config) : Prop where
  /-- Every object has its keys in order. -/
  regular : ∀ m ∈ c.bindings.toList, m.2.Regular
  /-- No value has a binary64 number in it. -/
  floatFree : ∀ m ∈ c.bindings.toList, m.2.FloatFree
  /-- The document and the bindings count as collections. -/
  depth_le : c.toValue.depth ≤ maxDepth

/-- The fields of the members that a configuration is written as. -/
def draft (c : Config) : Draft :=
  ⟨c.delimiter.map some, c.fallback.map some, if c.bindings.isEmpty then none else some c.bindings⟩

/-- What is missing sets nothing. -/
theorem finish_draft (c : Config) : c.draft.finish = c := by
  have hbindings : (if c.bindings.isEmpty then none else some c.bindings).getD ∅ = c.bindings := by
    split
    · next h => exact (Dict.eq_empty_of_isEmpty h).symm
    · rfl
  obtain ⟨delimiter, fallback, bindings⟩ := c
  cases delimiter <;> cases fallback <;> exact congrArg (Config.mk _ _) hbindings

/-- What is read of the members is what they were written from. -/
theorem foldlM_add?_members {c : Config} (h : ∀ m ∈ c.bindings.toList, m.2.Regular) :
    c.members.foldlM Draft.add? {} = some c.draft := by
  have hdelimiter : (textMember .delimiter c.delimiter).foldlM Draft.add? {} =
      some { delimiter := c.delimiter.map some } := by
    cases c.delimiter <;> rfl
  have hfallback (x : Option (Option Text)) :
      (textMember .default c.fallback).foldlM Draft.add? { delimiter := x } =
        some { delimiter := x, fallback := c.fallback.map some } := by
    cases c.fallback <;> rfl
  have hread : Dict.ofList (Value.regularizedMembers c.bindings.toList) = c.bindings := by
    rw [Value.regularizedMembers_eq fun m hm => (h m hm).regularized_eq, Dict.ofList_toList]
  have hbindings (x y : Option (Option Text)) :
      (bindingsMember c.bindings).foldlM Draft.add? { delimiter := x, fallback := y } =
        some ⟨x, y, if c.bindings.isEmpty then none else some c.bindings⟩ := by
    rw [bindingsMember]
    split
    · rfl
    · exact congrArg (fun bindings => some (Draft.mk x y (some bindings))) hread
  rw [members, List.foldlM_append, hdelimiter, Option.bind_eq_bind, Option.bind_some,
    List.foldlM_append, hfallback, Option.bind_eq_bind, Option.bind_some, hbindings, draft]

theorem floatFree_members {c : Config} (h : ∀ m ∈ c.bindings.toList, m.2.FloatFree) :
    ∀ m ∈ c.members, m.2.FloatFree := by
  have htext (field : Field) (t : Option Text) : ∀ m ∈ textMember field t, m.2.FloatFree := by
    intro m hm
    cases t with
    | none => exact absurd hm List.not_mem_nil
    | some s =>
      obtain rfl := List.mem_singleton.mp hm
      exact .string s
  have hbindings : ∀ m ∈ bindingsMember c.bindings, m.2.FloatFree := by
    intro m hm
    rw [bindingsMember] at hm
    split at hm
    · exact absurd hm List.not_mem_nil
    · obtain rfl := List.mem_singleton.mp hm
      exact .object h
  intro m hm
  rcases List.mem_append.mp hm with hdelimiter | hrest
  · exact htext .delimiter c.delimiter m hdelimiter
  · rcases List.mem_append.mp hrest with hdefault | hmember
    · exact htext .default c.fallback m hdefault
    · exact hbindings m hmember

/-- **A configuration is read back from what is written for it**, and it sets every engine
up as before, or is refused by it as before. -/
theorem ofJson_write {c : Config} (h : c.Portable) :
    ofJson c.write = .ok c ∧
      ∀ e : Engine, (ofJson c.write >>= fun d => d.apply e) = c.apply e := by
  have hdepth : (Value.object c.members).depth ≤ maxDepth := toValue_eq c ▸ h.depth_le
  have hread : ofJson c.write = .ok c := Json.eq_ok_of_toOption <| by
    rw [write, toValue_eq, toOption_ofJson_object (floatFree_members h.floatFree) hdepth,
      foldlM_add?_members h.regular, Option.map_some, finish_draft]
  refine ⟨hread, ?_⟩
  intro e
  rw [hread]
  rfl

/-- A configuration with a delimiter to be escaped, no default, and two bindings: one to
nothing, and one to an object with the least and the greatest integer in a list. -/
def nestedSample : Config where
  delimiter := some ['"', '\\', '\n', '\x01', 'é', '😀']
  fallback := none
  bindings := ⟨[(['a'], .null),
    (['k', '"'], .object [([], .array [.integer (-0x8000000000000000) (by decide),
      .integer 0xFFFFFFFFFFFFFFFF (by decide), .object []]), (['x'], .bool true)])],
    List.pairwise_pair.mpr (by decide)⟩

theorem ofJson_write_nestedSample :
    nestedSample.Portable ∧ ofJson nestedSample.write = .ok nestedSample ∧
      ∀ e : Engine, (ofJson nestedSample.write >>= fun d => d.apply e) = nestedSample.apply e := by
  have h : nestedSample.Portable :=
    { regular := by
        simp [nestedSample, Dict.toList, Value.Regular, Value.RegularItems, Value.RegularMembers,
          Entries.Sorted]
      floatFree := by simp [nestedSample, Dict.toList]
      depth_le := by decide +kernel }
  exact ⟨h, ofJson_write h⟩

end Config

end Stencil
