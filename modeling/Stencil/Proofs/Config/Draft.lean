import Stencil.Proofs.Config.Json
import Stencil.Proofs.Json.Value

/-!
# Members that make a configuration

The members of a document are added one after the other to what has been read, and the first
that cannot be added ends the reading. What matters in the end is not the order: all of them
can be added if and only if they are of the right shape (`Stencil.Config.WellShaped`), that is,
no name is repeated and each is the name of a field that takes the value.

What has been read is a family of values, at most one for each field
(`Stencil.Config.Draft.entry`), and adding a member changes this family at one place
(`Stencil.Config.Draft.put?_eq_some_iff`). The invariant of the reading is that the family is
that of the members read so far (`Stencil.Config.Draft.Of`). Since it does not mention their
order, members in any order are read alike (`Stencil.Config.Draft.foldlM_add?_perm`).
-/

namespace Stencil

namespace Config

open Json (Value)

/-! ### Fields -/

namespace Field

theorem name_injective : Function.Injective name := by
  intro f g
  cases f <;> cases g <;> decide

theorem ofName?_eq_some_iff {s : Text} {f : Field} : ofName? s = some f ↔ f.name = s := by
  constructor
  · intro h
    have hname := List.find?_some h
    exact beq_iff_eq.mp hname
  · rintro rfl
    cases f <;> rfl

/-- **What a field takes**: the bindings are an object, and any other field is a string or
`null`. -/
def Takes : Field → Value → Prop
  | bindings, v => ∃ ms, v = .object ms
  | _, v => v = .null ∨ ∃ s, v = .string s

/-- What a field takes is seen from the value as it is read. -/
theorem takes_regularized_iff (f : Field) (v : Value) : f.Takes v.regularized ↔ f.Takes v := by
  cases f <;> simp [Takes]

end Field

/-- A text or nothing, as a value. -/
def textValue : Option Text → Value
  | none => .null
  | some s => .string s

theorem textValue_injective : Function.Injective textValue := by
  intro x y h
  cases x <;> cases y <;> simp_all [textValue]

theorem regularized_textValue (x : Option Text) : (textValue x).regularized = textValue x := by
  cases x <;> rfl

theorem optionalText?_eq_some_iff {v : Value} {x : Option Text} :
    optionalText? v = some x ↔ v = textValue x := by
  cases x <;> cases v <;> simp [optionalText?, textValue]

/-- **The bindings are the object as it is read.** -/
theorem bindings?_eq_some_iff {v : Value} {d : Dict Value} :
    bindings? v = some d ↔ v.regularized = .object d.toList := by
  cases v with
  | object ms =>
    rw [bindings?, Value.regularized, Option.some.injEq, Value.object.injEq]
    exact Dict.toList_injective.eq_iff.symm
  | _ => simp [bindings?, Value.regularized]

namespace Draft

variable {d d' : Draft} {m : Text × Value} {ms ns : Entries Value}

/-- **What has been read of a field**, as a value. -/
def entry (d : Draft) : Field → Option Value
  | .delimiter => d.delimiter.map textValue
  | .default => d.fallback.map textValue
  | .bindings => d.bindings.map fun bindings => .object bindings.toList

theorem has_eq (d : Draft) (f : Field) : d.has f = (d.entry f).isSome := by
  cases f <;> exact Option.isSome_map.symm

/-- Nothing else has been read. -/
theorem ext_entry (h : ∀ f, d.entry f = d'.entry f) : d = d' := by
  have hdelimiter := Option.map_injective textValue_injective (h .delimiter)
  have hfallback := Option.map_injective textValue_injective (h .default)
  have hobject : Function.Injective fun bindings : Dict Value => Value.object bindings.toList :=
    fun _ _ heq => Dict.toList_injective (Value.object.inj heq)
  have hbindings := Option.map_injective hobject (h .bindings)
  cases d
  cases d'
  exact congr (congr (congrArg Draft.mk hdelimiter) hfallback) hbindings

/-- A field is put in with the value as it is read, and nothing else changes. -/
theorem entry_of_put? {f : Field} {v : Value} (h : d.put? f v = some d') (g : Field) :
    d'.entry g = if f = g then some v.regularized else d.entry g := by
  cases f with
  | delimiter =>
    obtain ⟨x, hx, rfl⟩ := Option.map_eq_some_iff.mp h
    obtain rfl := optionalText?_eq_some_iff.mp hx
    rw [regularized_textValue]
    cases g <;> rfl
  | default =>
    obtain ⟨x, hx, rfl⟩ := Option.map_eq_some_iff.mp h
    obtain rfl := optionalText?_eq_some_iff.mp hx
    rw [regularized_textValue]
    cases g <;> rfl
  | bindings =>
    obtain ⟨x, hx, rfl⟩ := Option.map_eq_some_iff.mp h
    rw [bindings?_eq_some_iff.mp hx]
    cases g <;> rfl

theorem isSome_put?_iff {f : Field} {v : Value} : (d.put? f v).isSome ↔ f.Takes v := by
  cases f with
  | delimiter => cases v <;> simp [put?, optionalText?, Field.Takes]
  | default => cases v <;> simp [put?, optionalText?, Field.Takes]
  | bindings => cases v <;> simp [put?, bindings?, Field.Takes]

/-- **A field is put in if it takes the value**, and this is all that changes. -/
theorem put?_eq_some_iff {f : Field} {v : Value} :
    d.put? f v = some d' ↔
      f.Takes v ∧ ∀ g, d'.entry g = if f = g then some v.regularized else d.entry g := by
  constructor
  · intro h
    exact ⟨isSome_put?_iff.mp (Option.isSome_of_eq_some h), entry_of_put? h⟩
  · rintro ⟨htakes, hentry⟩
    obtain ⟨e, he⟩ := Option.isSome_iff_exists.mp (isSome_put?_iff.mpr htakes)
    have heq : e = d' := ext_entry fun g => (entry_of_put? he g).trans (hentry g).symm
    rw [he, heq]

theorem add?_eq_some_iff :
    d.add? m = some d' ↔ ∃ f : Field, f.name = m.1 ∧ d.entry f = none ∧ d.put? f m.2 = some d' := by
  have hread (f : Field) :
      (if d.has f then none else d.put? f m.2) = some d' ↔
        d.entry f = none ∧ d.put? f m.2 = some d' := by
    rw [has_eq]
    cases d.entry f <;> simp
  rw [add?, Option.bind_eq_bind, Option.bind_eq_some_iff]
  simp only [Field.ofName?_eq_some_iff, hread]

end Draft

/-! ### Members -/

/-- **Members of the right shape**: no name is repeated, and each is the name of a field that
takes the value. -/
structure WellShaped (ms : Entries Value) : Prop where
  /-- No name is repeated. -/
  nodup : (ms.map (·.1)).Nodup
  /-- Each member is a field with a value that the field takes. -/
  takes : ∀ m ∈ ms, ∃ f : Field, f.name = m.1 ∧ f.Takes m.2

namespace WellShaped

variable {ms ns : Entries Value}

theorem append_singleton_iff {m : Text × Value} :
    WellShaped (ms ++ [m]) ↔
      WellShaped ms ∧ m.1 ∉ ms.map (·.1) ∧ ∃ f : Field, f.name = m.1 ∧ f.Takes m.2 := by
  have hnodup : ((ms ++ [m]).map (·.1)).Nodup ↔ m.1 ∉ ms.map (·.1) ∧ (ms.map (·.1)).Nodup := by
    rw [List.map_append, List.map_singleton, (List.perm_append_singleton _ _).nodup_iff,
      List.nodup_cons]
  constructor
  · rintro ⟨hdistinct, htakes⟩
    obtain ⟨hnew, hold⟩ := hnodup.mp hdistinct
    rw [List.forall_mem_append, List.forall_mem_singleton] at htakes
    exact ⟨⟨hold, htakes.1⟩, hnew, htakes.2⟩
  · rintro ⟨⟨hold, htakes⟩, hnew, hm⟩
    refine ⟨hnodup.mpr ⟨hnew, hold⟩, ?_⟩
    rw [List.forall_mem_append, List.forall_mem_singleton]
    exact ⟨htakes, hm⟩

/-- The order of the members does not count. -/
theorem perm (h : WellShaped ms) (hperm : ms.Perm ns) : WellShaped ns where
  nodup := (hperm.map _).nodup_iff.mp h.nodup
  takes := fun m hm => h.takes m (hperm.mem_iff.mpr hm)

end WellShaped

namespace Draft

variable {d d' : Draft} {m : Text × Value} {ms ns : Entries Value}

/-- **What has been read is what the members say**, which are of the right shape. -/
structure Of (d : Draft) (ms : Entries Value) : Prop where
  /-- The members are of the right shape. -/
  wellShaped : WellShaped ms
  /-- What has been read of a field is the value of its member, as it is read. -/
  entry_eq_some_iff : ∀ f w, d.entry f = some w ↔ ∃ v, (f.name, v) ∈ ms ∧ v.regularized = w

theorem of_nil : ({} : Draft).Of [] where
  wellShaped := ⟨List.nodup_nil, fun _ hm => absurd hm List.not_mem_nil⟩
  entry_eq_some_iff := by
    intro f w
    cases f <;> simp [entry]

namespace Of

/-- Nothing has been read of a field without a member. -/
theorem entry_eq_none_iff (h : d.Of ms) {f : Field} :
    d.entry f = none ↔ f.name ∉ ms.map (·.1) := by
  rw [Option.eq_none_iff_forall_not_mem]
  simp [h.entry_eq_some_iff]

/-- **The invariant of the reading**: a member that is added is among those that count. -/
theorem add? (h : d.Of ms) (hadd : d.add? m = some d') : d'.Of (ms ++ [m]) := by
  obtain ⟨f, hname, hnone, hput⟩ := add?_eq_some_iff.mp hadd
  obtain ⟨htakes, hentry⟩ := put?_eq_some_iff.mp hput
  have hnew := h.entry_eq_none_iff.mp hnone
  refine ⟨WellShaped.append_singleton_iff.mpr ⟨h.wellShaped, hname ▸ hnew, f, hname, htakes⟩, ?_⟩
  intro g w
  have hmem (v : Value) : (g.name, v) ∈ ms ++ [m] ↔ (g.name, v) ∈ ms ∨ f = g ∧ v = m.2 := by
    rw [List.mem_append, List.mem_singleton, Prod.ext_iff, ← hname, Field.name_injective.eq_iff,
      eq_comm (a := g)]
  simp only [hmem, hentry]
  by_cases hfg : f = g
  · -- the field is new, so its only value is the one that is added
    subst hfg
    have hold (v : Value) : (f.name, v) ∉ ms := fun hv => hnew (List.mem_map_of_mem hv)
    simp [hold]
  · simp [hfg, h.entry_eq_some_iff]

/-- A member is added if it does not spoil the shape. -/
theorem exists_add? (h : d.Of ms) (hms : WellShaped (ms ++ [m])) : ∃ d', d.add? m = some d' := by
  obtain ⟨-, hnew, f, hname, htakes⟩ := WellShaped.append_singleton_iff.mp hms
  obtain ⟨d', hput⟩ := Option.isSome_iff_exists.mp (isSome_put?_iff.mpr htakes)
  exact ⟨d', add?_eq_some_iff.mpr ⟨f, hname, h.entry_eq_none_iff.mpr (hname ▸ hnew), hput⟩⟩

/-- The members leave nothing open. -/
theorem unique (h : d.Of ms) (h' : d'.Of ms) : d = d' := by
  refine ext_entry fun f => Option.ext fun w => ?_
  rw [h.entry_eq_some_iff, h'.entry_eq_some_iff]

theorem perm (h : d.Of ms) (hperm : ms.Perm ns) : d.Of ns where
  wellShaped := h.wellShaped.perm hperm
  entry_eq_some_iff := by
    intro f w
    simp only [h.entry_eq_some_iff, hperm.mem_iff]

end Of

/-- The last member is added to what the others have left. -/
theorem foldlM_add?_append_singleton (d : Draft) (ms : Entries Value) (m : Text × Value) :
    (ms ++ [m]).foldlM Draft.add? d = (ms.foldlM Draft.add? d).bind fun e => e.add? m := by
  rw [List.foldlM_append]
  exact congrArg _ (funext fun e => bind_pure (e.add? m))

/-- What is read of members is what they say. -/
theorem of_foldlM_add? (h : ms.foldlM Draft.add? {} = some d) : d.Of ms := by
  -- from the end of the list, so that the invariant is that of the members in front
  induction ms using List.reverseRecOn generalizing d with
  | nil =>
    cases h
    exact of_nil
  | append_singleton ms m ih =>
    rw [foldlM_add?_append_singleton, Option.bind_eq_some_iff] at h
    obtain ⟨e, he, hm⟩ := h
    exact (ih he).add? hm

theorem exists_foldlM_add? (h : WellShaped ms) : ∃ d, ms.foldlM Draft.add? {} = some d := by
  induction ms using List.reverseRecOn with
  | nil => exact ⟨{}, rfl⟩
  | append_singleton ms m ih =>
    obtain ⟨e, he⟩ := ih (WellShaped.append_singleton_iff.mp h).1
    obtain ⟨d, hd⟩ := (of_foldlM_add? he).exists_add? h
    refine ⟨d, ?_⟩
    rw [foldlM_add?_append_singleton, he, Option.bind_some, hd]

/-- **All members can be added if they are of the right shape**, and what is then read is what
they say. -/
theorem foldlM_add?_eq_some_iff : ms.foldlM Draft.add? {} = some d ↔ d.Of ms := by
  constructor
  · exact of_foldlM_add?
  · intro h
    obtain ⟨e, he⟩ := exists_foldlM_add? h.wellShaped
    rw [he, (of_foldlM_add? he).unique h]

/-- **Members are read alike in any order.** -/
theorem foldlM_add?_perm (h : ms.Perm ns) :
    ms.foldlM Draft.add? {} = ns.foldlM Draft.add? {} := by
  refine Option.ext fun d => ?_
  rw [foldlM_add?_eq_some_iff, foldlM_add?_eq_some_iff]
  exact ⟨fun hd => hd.perm h, fun hd => hd.perm h.symm⟩

end Draft

end Config

end Stencil
