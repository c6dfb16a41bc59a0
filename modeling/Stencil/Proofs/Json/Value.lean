import Mathlib.Order.Nat
import Stencil.Json.Value
import Stencil.Proofs.Dict

/-!
# JSON values as trees

A value is a tree that branches in lists, so a proof about all values treats a collection
under the assumption that the claim holds of each of its elements
(`Stencil.Json.Value.induction`).

A reader puts the members of an object into a dictionary one after the other, at every
depth. What it makes of a value is the value with its keys in order and with the last of
equal keys only (`Stencil.Json.Value.regularized`); a regular value stays as it is
(`Stencil.Json.Value.Regular.regularized_eq`).

Of a value as it is read, the members of an object are its last entries, key by key
(`Stencil.Json.Value.get?_ofList_regularizedMembers`). So the order of two members counts only
if they have the same key. Two values that differ in nothing but the order of members with
different keys, in any of their objects, are `Stencil.Json.Value.Reordered`: this is the least
such relation that lets two neighbours change places and passes through lists and objects.
A reader makes the same of both (`Stencil.Json.Value.Reordered.regularized_eq`), and they are
nested equally deeply and have the same numbers in them.
-/

namespace Stencil

namespace Json

namespace Value

/-! ### Induction -/

section Induction

variable {motive : Value → Prop} (null : motive null) (bool : ∀ b, motive (bool b))
  (integer : ∀ n fits, motive (integer n fits)) (float : ∀ x, motive (float x))
  (string : ∀ s, motive (string s))
  (array : ∀ items, (∀ v ∈ items, motive v) → motive (array items))
  (object : ∀ members, (∀ m ∈ members, motive m.2) → motive (object members))

include null bool integer float string array object

/-- **Induction over values**: a collection has the property if its elements do. -/
@[elab_as_elim, induction_eliminator]
theorem induction (v : Value) : motive v := by
  refine @Value.rec motive (fun items => ∀ v ∈ items, motive v)
    (fun members => ∀ m ∈ members, motive m.2) (fun m => motive m.2)
    null bool integer float string array object ?_ ?_ ?_ ?_ ?_ v
  · intro v hv
    exact absurd hv List.not_mem_nil
  · intro v vs hv hvs w hw
    rcases List.mem_cons.mp hw with rfl | hw
    · exact hv
    · exact hvs w hw
  · intro m hm
    exact absurd hm List.not_mem_nil
  · intro m ms hm hms l hl
    rcases List.mem_cons.mp hl with rfl | hl
    · exact hm
    · exact hms l hl
  · intro k v hv
    exact hv

end Induction

/-! ### Kinds of trees -/

/-- **A value without binary64 numbers.** -/
inductive FloatFree : Value → Prop
  /-- `null` has none in it. -/
  | null : FloatFree null
  /-- A truth value has none in it. -/
  | bool (b : Bool) : FloatFree (bool b)
  /-- An integer is none. -/
  | integer (n : Int) (fits : Fits n) : FloatFree (integer n fits)
  /-- A text has none in it. -/
  | string (s : Text) : FloatFree (string s)
  /-- A list has none in it if its elements have none. -/
  | array {items : List Value} (h : ∀ v ∈ items, FloatFree v) : FloatFree (array items)
  /-- An object has none in it if its values have none. -/
  | object {members : Entries Value} (h : ∀ m ∈ members, FloatFree m.2) :
    FloatFree (object members)

attribute [simp] FloatFree.null FloatFree.bool FloatFree.integer FloatFree.string

@[simp] theorem floatFree_array_iff {items : List Value} :
    FloatFree (array items) ↔ ∀ v ∈ items, FloatFree v :=
  ⟨fun h => by cases h; assumption, .array⟩

@[simp] theorem floatFree_object_iff {members : Entries Value} :
    FloatFree (object members) ↔ ∀ m ∈ members, FloatFree m.2 :=
  ⟨fun h => by cases h; assumption, .object⟩

theorem regularItems_iff {vs : List Value} : RegularItems vs ↔ ∀ v ∈ vs, v.Regular := by
  induction vs with
  | nil => simp [RegularItems]
  | cons v vs ih => rw [RegularItems, ih, List.forall_mem_cons]

theorem regularMembers_iff {ms : Entries Value} : RegularMembers ms ↔ ∀ m ∈ ms, m.2.Regular := by
  induction ms with
  | nil => simp [RegularMembers]
  | cons m ms ih => rw [RegularMembers, ih, List.forall_mem_cons]

theorem depthItems_le_iff {vs : List Value} {d : Nat} :
    depthItems vs ≤ d ↔ ∀ v ∈ vs, v.depth ≤ d := by
  induction vs with
  | nil => simp [depthItems]
  | cons v vs ih => rw [depthItems, Nat.max_le, ih, List.forall_mem_cons]

theorem depthMembers_le_iff {ms : Entries Value} {d : Nat} :
    depthMembers ms ≤ d ↔ ∀ m ∈ ms, m.2.depth ≤ d := by
  induction ms with
  | nil => simp [depthMembers]
  | cons m ms ih => rw [depthMembers, Nat.max_le, ih, List.forall_mem_cons]

/-! ### What a reader makes of a value -/

mutual

/-- **A value as it is read**: the keys of every object in order, and of equal keys the
last one. -/
def regularized : Value → Value
  | array items => array (regularizedItems items)
  | object members => object (regularizedMembers members).collect
  | v => v

/-- Values as they are read. -/
def regularizedItems : List Value → List Value
  | [] => []
  | v :: vs => regularized v :: regularizedItems vs

/-- Entries, each with its value as it is read. -/
def regularizedMembers : Entries Value → Entries Value
  | [] => []
  | (k, v) :: ms => (k, regularized v) :: regularizedMembers ms

end

theorem regularizedItems_eq_map (vs : List Value) : regularizedItems vs = vs.map regularized := by
  induction vs with
  | nil => rfl
  | cons v vs ih => rw [regularizedItems, ih, List.map_cons]

theorem regularizedMembers_eq_map (ms : Entries Value) :
    regularizedMembers ms = ms.map fun m => (m.1, m.2.regularized) := by
  induction ms with
  | nil => rfl
  | cons m ms ih => rw [regularizedMembers, ih, List.map_cons]

/-! A value is read as one of its kind. -/

@[simp] theorem regularized_eq_null_iff {v : Value} : v.regularized = null ↔ v = null := by
  cases v <;> simp [regularized]

@[simp] theorem regularized_eq_string_iff {v : Value} {s : Text} :
    v.regularized = string s ↔ v = string s := by
  cases v <;> simp [regularized]

theorem regularized_eq_object_iff {v : Value} {members : Entries Value} :
    v.regularized = object members ↔
      ∃ ms, v = object ms ∧ (regularizedMembers ms).collect = members := by
  cases v <;> simp [regularized]

@[simp] theorem exists_regularized_eq_object_iff {v : Value} :
    (∃ members, v.regularized = object members) ↔ ∃ members, v = object members := by
  cases v <;> simp [regularized]

/-- Entries with regular values stay as they are. -/
theorem regularizedMembers_eq {ms : Entries Value} (h : ∀ m ∈ ms, m.2.regularized = m.2) :
    regularizedMembers ms = ms := by
  have hmap : ms.map (fun m => (m.1, m.2.regularized)) = ms.map id :=
    List.map_congr_left fun m hm => Prod.ext rfl (h m hm)
  rw [regularizedMembers_eq_map, hmap, List.map_id]

/-- **A regular value is read as it is.** -/
theorem Regular.regularized_eq {v : Value} (h : v.Regular) : v.regularized = v := by
  induction v with
  | array items ih =>
    have hmap : items.map regularized = items.map id :=
      List.map_congr_left fun v hv => ih v hv (regularItems_iff.mp h v hv)
    rw [regularized, regularizedItems_eq_map, hmap, List.map_id]
  | object members ih =>
    obtain ⟨hsorted, hmembers⟩ := h
    have hstay : ∀ m ∈ members, m.2.regularized = m.2 := by
      intro m hm
      exact ih m hm (regularMembers_iff.mp hmembers m hm)
    rw [regularized, regularizedMembers_eq hstay, hsorted.collect_eq]
  | null => rfl
  | bool b => rfl
  | integer n fits => rfl
  | float x => rfl
  | string s => rfl

/-! ### The order of the members -/

theorem regularizedMembers_append (ms ns : Entries Value) :
    regularizedMembers (ms ++ ns) = regularizedMembers ms ++ regularizedMembers ns := by
  simp only [regularizedMembers_eq_map, List.map_append]

theorem depthItems_append (vs ws : List Value) :
    depthItems (vs ++ ws) = max (depthItems vs) (depthItems ws) := by
  induction vs with
  | nil => simp [depthItems]
  | cons v vs ih => simp only [List.cons_append, depthItems, ih, Nat.max_assoc]

theorem depthMembers_append (ms ns : Entries Value) :
    depthMembers (ms ++ ns) = max (depthMembers ms) (depthMembers ns) := by
  induction ms with
  | nil => simp [depthMembers]
  | cons m ms ih => simp only [List.cons_append, depthMembers, ih, Nat.max_assoc]

section Perm

variable {ms ns : Entries Value} (h : ms.Perm ns)

include h

/-- An object is nested as deeply with its members in another order. -/
theorem depth_object_perm : (object ms).depth = (object ns).depth := by
  refine congrArg (· + 1) (eq_of_forall_ge_iff fun d => ?_)
  simp only [depthMembers_le_iff, h.mem_iff]

theorem floatFree_object_perm : (object ms).FloatFree ↔ (object ns).FloatFree := by
  simp only [floatFree_object_iff, h.mem_iff]

end Perm

/-- The entries of a list of members as they are read. -/
theorem last_regularizedMembers_iff {ms : Entries Value} {k : Text} {w : Value} :
    (regularizedMembers ms).Last k w ↔ ∃ v, ms.Last k v ∧ v.regularized = w := by
  rw [regularizedMembers_eq_map]
  constructor
  · rintro ⟨before, after, hms, hafter⟩
    obtain ⟨ms₁, ms₂, rfl, hbefore, hrest⟩ := List.map_eq_append_iff.mp hms
    obtain ⟨⟨l, v⟩, ms₃, rfl, hkey, rfl⟩ := List.map_eq_cons_iff.mp hrest
    obtain ⟨rfl, hvalue⟩ := Prod.mk.inj hkey
    have hkeys : ∀ m ∈ ms₃, m.1 ≠ l := by
      intro m hm
      exact hafter (m.1, m.2.regularized) (List.mem_map.mpr ⟨m, hm, rfl⟩)
    exact ⟨v, ⟨ms₁, ms₃, rfl, hkeys⟩, hvalue⟩
  · rintro ⟨v, ⟨before, after, rfl, hafter⟩, rfl⟩
    refine ⟨_, _, List.map_append, fun e he => ?_⟩
    obtain ⟨m, hm, rfl⟩ := List.mem_map.mp he
    exact hafter m hm

/-- **The last entry of a key is what is read of an object**, and of that entry its value as
it is read. -/
theorem get?_ofList_regularizedMembers {ms : Entries Value} {k : Text} {w : Value} :
    (Dict.ofList (regularizedMembers ms)).get? k = some w ↔
      ∃ v, ms.Last k v ∧ v.regularized = w :=
  Dict.get?_ofList_eq_some_iff.trans last_regularizedMembers_iff

/-! ### Members in another order -/

/-- **The same value up to the order of members with different keys**, in any object. -/
inductive Reordered : Value → Value → Prop
  /-- Nothing changes its place. -/
  | refl (v : Value) : Reordered v v
  /-- One reordering after the other. -/
  | trans {u v w : Value} : Reordered u v → Reordered v w → Reordered u w
  /-- Two neighbours with different keys change places. -/
  | swap (before after : Entries Value) {m n : Text × Value} (h : m.1 ≠ n.1) :
    Reordered (object (before ++ m :: n :: after)) (object (before ++ n :: m :: after))
  /-- An element of a list is reordered. -/
  | item (before after : List Value) {v w : Value} (h : Reordered v w) :
    Reordered (array (before ++ v :: after)) (array (before ++ w :: after))
  /-- The value of a member is reordered. -/
  | value (before after : Entries Value) (k : Text) {v w : Value} (h : Reordered v w) :
    Reordered (object (before ++ (k, v) :: after)) (object (before ++ (k, w) :: after))

namespace Reordered

variable {v w : Value}

/-- **The order of members with different keys is lost in reading.** -/
theorem regularized_eq (h : Reordered v w) : v.regularized = w.regularized := by
  induction h with
  | refl v => rfl
  | trans _ _ ihu ihv => exact ihu.trans ihv
  | swap before after h =>
    rw [regularized, regularized, regularizedMembers_append, regularizedMembers_append]
    exact congrArg object (Entries.collect_swap _ _ h)
  | item before after _ ih =>
    simp only [regularized, regularizedItems_eq_map, List.map_append, List.map_cons, ih]
  | value before after k _ ih =>
    simp only [regularized, regularizedMembers_append, regularizedMembers, ih]

theorem depth_eq (h : Reordered v w) : v.depth = w.depth := by
  induction h with
  | refl v => rfl
  | trans _ _ ihu ihv => exact ihu.trans ihv
  | swap before after h => exact depth_object_perm ((List.Perm.swap _ _ after).append_left before)
  | item before after _ ih => simp only [depth, depthItems_append, depthItems, ih]
  | value before after k _ ih => simp only [depth, depthMembers_append, depthMembers, ih]

theorem floatFree_iff (h : Reordered v w) : v.FloatFree ↔ w.FloatFree := by
  induction h with
  | refl v => rfl
  | trans _ _ ihu ihv => exact ihu.trans ihv
  | swap before after h =>
    exact floatFree_object_perm ((List.Perm.swap _ _ after).append_left before)
  | item before after _ ih =>
    simp only [floatFree_array_iff, List.forall_mem_append, List.forall_mem_cons, ih]
  | value before after k _ ih =>
    simp only [floatFree_object_iff, List.forall_mem_append, List.forall_mem_cons, ih]

end Reordered

end Value

end Json

end Stencil
