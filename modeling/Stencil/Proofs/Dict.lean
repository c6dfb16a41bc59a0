import Mathlib.Data.List.Induction
import Stencil.Dict

/-!
# What a list of entries leaves in a dictionary

Entries put into a dictionary one after the other overwrite each other, so what is
left of a list of entries is, for each key, the *last* entry with the key: the
first one of the reversed list (`Stencil.Dict.get?_overlay`). Names are sorted by
the same insertion, with nothing to overwrite; the sorted list has the members of
the given one (`Stencil.mem_sortedNames_iff`) in strictly ascending order
(`Stencil.pairwise_sortedNames`).
-/

namespace Stencil

variable {α : Type}

namespace Entries

theorem get?_append (es fs : Entries α) (k : Text) :
    get? (es ++ fs) k = (get? es k).or (get? fs k) := by
  induction es with
  | nil => rfl
  | cons e es ih =>
    rw [List.cons_append, get?_cons, get?_cons, ih]
    split <;> rfl

/-- A key has a value in a list exactly when some entry has the key. -/
theorem isSome_get?_iff {es : Entries α} {k : Text} :
    (get? es k).isSome ↔ k ∈ es.map (·.1) := by
  induction es with
  | nil => simp
  | cons e es ih =>
    rw [get?_cons, List.map_cons, List.mem_cons]
    rcases eq_or_ne e.1 k with he | he
    · simp [he]
    · simp [he, he.symm, ih]

/-- A key has no value in a list exactly when no entry has the key. -/
theorem get?_eq_none_iff {es : Entries α} {k : Text} :
    get? es k = none ↔ ∀ e ∈ es, e.1 ≠ k := by
  rw [← Option.not_isSome_iff_eq_none, isSome_get?_iff, List.mem_map]
  simp only [not_exists, not_and, ne_eq]

/-- The value of a key in a list is that of one of its entries. -/
theorem mem_of_get?_eq_some {es : Entries α} {k : Text} {v : α} (h : get? es k = some v) :
    (k, v) ∈ es := by
  induction es with
  | nil => cases h
  | cons e es ih =>
    rw [get?_cons] at h
    split at h
    · next he =>
      cases h
      exact he ▸ List.mem_cons_self
    · exact List.mem_cons_of_mem e (ih h)

/-- In a sorted list every entry is the one that its key finds. -/
theorem Sorted.get?_eq_some_of_mem {es : Entries α} (h : es.Sorted) {k : Text} {v : α}
    (hmem : (k, v) ∈ es) : get? es k = some v := by
  induction es with
  | nil => cases hmem
  | cons e es ih =>
    obtain ⟨hlt, hes⟩ := List.pairwise_cons.mp h
    rw [get?_cons]
    rcases List.mem_cons.mp hmem with rfl | hmem
    · rw [if_pos rfl]
    · have hne : e.1 ≠ k := fun he => lt_irrefl k (he ▸ hlt (k, v) hmem)
      rw [if_neg hne, ih hes hmem]

theorem get?_reverse_append_singleton (es : Entries α) (e : Text × α) (k : Text) :
    get? (es ++ [e]).reverse k = if e.1 = k then some e.2 else get? es.reverse k := by
  rw [List.reverse_append, List.reverse_singleton, List.singleton_append, get?_cons]

/-- **The last entry of a key is what insertions leave**, on top of what was there. -/
theorem get?_foldl_insert (es acc : Entries α) (k : Text) :
    get? (es.foldl (fun acc e => insert e.1 e.2 acc) acc) k =
      (get? es.reverse k).or (get? acc k) := by
  -- from the end of the list, since the last insertion decides
  induction es using List.reverseRecOn with
  | nil => rfl
  | append_singleton es e ih =>
    rw [List.foldl_append, List.foldl_cons, List.foldl_nil, get?_insert, ih,
      get?_reverse_append_singleton]
    split <;> rfl

theorem get?_collect (es : Entries α) (k : Text) : get? es.collect k = get? es.reverse k := by
  rw [collect, get?_foldl_insert, get?_nil, Option.or_none]

/-- **The last entry of a key**: no entry behind it has the key. -/
def Last (es : Entries α) (k : Text) (v : α) : Prop :=
  ∃ before after, es = before ++ (k, v) :: after ∧ ∀ e ∈ after, e.1 ≠ k

/-- The first entry of the reversed list is the last of the list. -/
theorem get?_reverse_eq_some_iff {es : Entries α} {k : Text} {v : α} :
    get? es.reverse k = some v ↔ es.Last k v := by
  rw [get?, Option.map_eq_some_iff]
  constructor
  · rintro ⟨⟨l, w⟩, hfind, rfl⟩
    obtain ⟨hkey, after, before, hes, hafter⟩ := List.find?_eq_some_iff_append.mp hfind
    obtain rfl : l = k := by simpa using hkey
    refine ⟨before.reverse, after.reverse, ?_, fun e he => ?_⟩
    · rw [List.reverse_eq_iff] at hes
      simpa using hes
    · simpa using hafter e (List.mem_reverse.mp he)
  · rintro ⟨before, after, rfl, hafter⟩
    refine ⟨(k, v), List.find?_eq_some_iff_append.mpr ⟨by simp, after.reverse, before.reverse,
      by simp, fun e he => ?_⟩, rfl⟩
    simpa using hafter e (List.mem_reverse.mp he)

theorem get?_reverse_eq_none_iff {es : Entries α} {k : Text} :
    get? es.reverse k = none ↔ ∀ e ∈ es, e.1 ≠ k := by
  simp only [get?_eq_none_iff, List.mem_reverse]

theorem Last.mem {es : Entries α} {k : Text} {v : α} (h : es.Last k v) : (k, v) ∈ es := by
  obtain ⟨before, after, rfl, -⟩ := h
  exact List.mem_append_right before List.mem_cons_self

/-- A key has a last entry, or none at all. -/
theorem last_or_notMem (es : Entries α) (k : Text) :
    (∃ v, es.Last k v) ∨ ∀ e ∈ es, e.1 ≠ k := by
  cases hk : get? es.reverse k with
  | some v => exact .inl ⟨v, get?_reverse_eq_some_iff.mp hk⟩
  | none => exact .inr (get?_reverse_eq_none_iff.mp hk)

/-- A sorted list is what is left of it. -/
theorem Sorted.collect_eq {es : Entries α} (h : es.Sorted) : es.collect = es := by
  refine (sorted_collect es).ext_get? h fun k => ?_
  rw [get?_collect]
  rcases es.last_or_notMem k with ⟨v, hlast⟩ | hk
  · rw [get?_reverse_eq_some_iff.mpr hlast, h.get?_eq_some_of_mem hlast.mem]
  · rw [get?_reverse_eq_none_iff.mpr hk, get?_eq_none_iff.mpr hk]

/-- Neighbours with different keys may change places. -/
theorem collect_swap (before after : Entries α) {e f : Text × α} (h : e.1 ≠ f.1) :
    collect (before ++ e :: f :: after) = collect (before ++ f :: e :: after) := by
  -- no key is that of both, so a look-up passes over one of the two
  refine (sorted_collect _).ext_get? (sorted_collect _) fun k => ?_
  have hswap : get? [f, e] k = get? [e, f] k := by
    by_cases he : e.1 = k
    · have hf : f.1 ≠ k := fun hf => h (he.trans hf.symm)
      simp [get?_cons, he, hf]
    · simp [get?_cons, he]
  have hsplit (a b : Text × α) : (before ++ a :: b :: after).reverse =
      after.reverse ++ ([b, a] ++ before.reverse) := by
    simp
  rw [get?_collect, get?_collect, hsplit, hsplit, get?_append, get?_append, get?_append,
    get?_append, hswap]

end Entries

namespace Dict

/-- **The last entry of a key wins**, and what has no entry keeps its value. -/
theorem get?_overlay (d : Dict α) (es : Entries α) (k : Text) :
    (d.overlay es).get? k = (Entries.get? es.reverse k).or (d.get? k) := by
  induction es using List.reverseRecOn with
  | nil => rfl
  | append_singleton es e ih =>
    rw [overlay, List.foldl_append, List.foldl_cons, List.foldl_nil, get?_insert,
      Entries.get?_reverse_append_singleton]
    split
    · rfl
    · exact ih

/-- An entry on top of a dictionary is found if it is the last one of its key. -/
theorem get?_overlay_of_last {es : Entries α} {k : Text} {v : α} (h : es.Last k v) (d : Dict α) :
    (d.overlay es).get? k = some v := by
  rw [get?_overlay, Entries.get?_reverse_eq_some_iff.mpr h, Option.some_or]

/-- A key without an entry on top keeps its value. -/
theorem get?_overlay_of_notMem {es : Entries α} {k : Text} (h : ∀ e ∈ es, e.1 ≠ k) (d : Dict α) :
    (d.overlay es).get? k = d.get? k := by
  rw [get?_overlay, Entries.get?_reverse_eq_none_iff.mpr h, Option.none_or]

/-- Overlaying names with one value gives that value to all of them. -/
theorem get?_overlay_const (d : Dict α) (names : List Text) (v : α) (k : Text) :
    (d.overlay (names.map fun name => (name, v))).get? k =
      if k ∈ names then some v else d.get? k := by
  rcases Entries.last_or_notMem (names.map fun name => (name, v)) k with ⟨w, hlast⟩ | hk
  · obtain ⟨name, hname, heq⟩ := List.mem_map.mp hlast.mem
    obtain ⟨rfl, rfl⟩ := Prod.mk.inj heq
    rw [get?_overlay_of_last hlast, if_pos hname]
  · have hne := List.forall_mem_map.mp hk
    rw [get?_overlay_of_notMem hk, if_neg fun hmem => hne k hmem rfl]

/-- **The entries of a dictionary are its look-ups.** -/
theorem get?_eq_some_iff {d : Dict α} {k : Text} {v : α} :
    d.get? k = some v ↔ (k, v) ∈ d.toList :=
  ⟨Entries.mem_of_get?_eq_some, d.sorted.get?_eq_some_of_mem⟩

/-- **Entries on top of nothing** are the dictionary of the entries. -/
theorem empty_overlay (es : Entries α) : (∅ : Dict α).overlay es = ofList es := by
  refine ext_get? fun k => ?_
  rw [get?_overlay, get?_empty, Option.or_none]
  exact (Entries.get?_collect es k).symm

/-- A dictionary is that of its entries. -/
theorem ofList_toList (d : Dict α) : ofList d.toList = d :=
  ext_get? fun k => congrArg (Entries.get? · k) d.sorted.collect_eq

/-- The dictionary of a list has the last entry of each key. -/
theorem get?_ofList_eq_some_iff {es : Entries α} {k : Text} {v : α} :
    (ofList es).get? k = some v ↔ es.Last k v := by
  rw [← Entries.get?_reverse_eq_some_iff, ← Entries.get?_collect]
  rfl

theorem toList_injective : Function.Injective (toList : Dict α → Entries α) := by
  intro d e h
  rw [← ofList_toList d, h, ofList_toList]

theorem eq_empty_of_isEmpty {d : Dict α} (h : d.isEmpty = true) : d = ∅ := by
  obtain ⟨entries, sorted⟩ := d
  obtain rfl : entries = [] := List.isEmpty_iff.mp h
  rfl

theorem contains_iff {d : Dict α} {k : Text} : d.contains k = true ↔ d.get? k ≠ none :=
  Option.isSome_iff_ne_none

end Dict

/-! ### Sorted names -/

/-- **Sorting names loses none and makes none up.** -/
theorem mem_sortedNames_iff {names : List Text} {k : Text} : k ∈ sortedNames names ↔ k ∈ names := by
  rw [sortedNames, ← Entries.isSome_get?_iff, Entries.get?_collect, Entries.isSome_get?_iff]
  simp

/-- **Sorted names are in strictly ascending order**, so none is repeated. -/
theorem pairwise_sortedNames (names : List Text) : (sortedNames names).Pairwise (· < ·) :=
  List.pairwise_map.mpr (Entries.sorted_collect _)

end Stencil
