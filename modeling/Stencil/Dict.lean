import Stencil.Text

/-!
# Dictionaries

A dictionary sends finitely many keys to values. It is kept as the list of its
entries in strictly ascending order of the keys, so two dictionaries with the
same look-ups are equal (`Dict.ext_get?`), and listing one lists it sorted.

The operations are first defined on plain lists of entries, where they make
sense for any list and keep a sorted list sorted; `Dict` then packages the
sorted lists.
-/

namespace Stencil

/-- A list of keys with their values. -/
abbrev Entries (α : Type) := List (Text × α)

namespace Entries

variable {α : Type}

/-- The keys stand in strictly ascending order. -/
def Sorted (es : Entries α) : Prop := es.Pairwise fun a b => a.1 < b.1

/-- The value of the first entry with the key. -/
def get? (es : Entries α) (k : Text) : Option α := (es.find? fun e => e.1 == k).map (·.2)

/-- Put an entry at its place, instead of the entry that has the key if there is one. -/
def insert (k : Text) (v : α) : Entries α → Entries α
  | [] => [(k, v)]
  | e :: es =>
    if k < e.1 then (k, v) :: e :: es
    else if k = e.1 then (k, v) :: es
    else e :: insert k v es

/-- All entries of a list, one inserted after the other: a later equal key wins. -/
def collect (es : Entries α) : Entries α := es.foldl (fun acc e => insert e.1 e.2 acc) []

theorem lt_trans {a b c : Text} : a < b → b < c → a < c := List.lt_trans

theorem lt_irrefl (a : Text) : ¬ a < a := List.lt_irrefl a

theorem lt_of_not_lt_of_ne {a b : Text} (h : ¬ a < b) (hne : a ≠ b) : b < a :=
  (List.le_iff_lt_or_eq.mp (List.not_lt.mp h)).resolve_right fun e => hne e.symm

/-- A key of the list after an insertion is the inserted one or was there before. -/
theorem mem_insert {k : Text} {v : α} {es : Entries α} {e : Text × α} (h : e ∈ insert k v es) :
    e = (k, v) ∨ e ∈ es := by
  induction es with
  | nil => simpa [insert] using h
  | cons d es ih =>
    unfold insert at h
    split at h
    · simpa using h
    · split at h
      · rcases List.mem_cons.mp h with h | h <;> simp [h]
      · rcases List.mem_cons.mp h with h | h
        · simp [h]
        · rcases ih h with h | h <;> simp [h]

/-- Insertion keeps a sorted list sorted. -/
theorem Sorted.insert {es : Entries α} (h : es.Sorted) (k : Text) (v : α) :
    (es.insert k v).Sorted := by
  induction es with
  | nil => simp [Entries.insert, Sorted]
  | cons e es ih =>
    have h' := List.pairwise_cons.mp h
    unfold Entries.insert
    split
    · next hlt =>
      refine List.pairwise_cons.mpr ⟨fun d hd => ?_, h⟩
      rcases List.mem_cons.mp hd with rfl | hd
      · exact hlt
      · exact lt_trans hlt (h'.1 d hd)
    · split
      · next heq => exact List.pairwise_cons.mpr ⟨fun d hd => heq ▸ h'.1 d hd, h'.2⟩
      · next hlt hne =>
        refine List.pairwise_cons.mpr ⟨fun d hd => ?_, ih h'.2⟩
        rcases mem_insert hd with rfl | hd
        · exact lt_of_not_lt_of_ne hlt hne
        · exact h'.1 d hd

theorem sorted_foldl_insert (es : Entries α) {acc : Entries α} (h : acc.Sorted) :
    (es.foldl (fun acc e => insert e.1 e.2 acc) acc).Sorted := by
  induction es generalizing acc with
  | nil => exact h
  | cons e es ih => exact ih (h.insert e.1 e.2)

theorem sorted_collect (es : Entries α) : es.collect.Sorted :=
  sorted_foldl_insert es List.Pairwise.nil

/-! ### Look-ups -/

@[simp] theorem get?_nil (k : Text) : get? ([] : Entries α) k = none := rfl

theorem get?_cons (e : Text × α) (es : Entries α) (k : Text) :
    get? (e :: es) k = if e.1 = k then some e.2 else get? es k := by
  by_cases h : e.1 = k <;> simp [get?, h]

/-- **An insertion changes the value of its key**, and of no other key. -/
theorem get?_insert (es : Entries α) (k : Text) (v : α) (l : Text) :
    get? (insert k v es) l = if k = l then some v else get? es l := by
  induction es with
  | nil => rw [insert, get?_cons]
  | cons e es ih =>
    unfold insert
    split
    · rw [get?_cons]
    · split
      · next heq =>
        rw [get?_cons, get?_cons]
        by_cases h : k = l
        · simp [h]
        · simp [h, ← heq]
      · next hne =>
        rw [get?_cons, get?_cons, ih]
        by_cases h : e.1 = l
        · have : k ≠ l := fun hk => hne (hk.trans h.symm)
          simp [h, this]
        · simp [h]

/-- A key in front of all keys of a list has no value there. -/
theorem get?_eq_none_of_lt {es : Entries α} {k : Text} (h : ∀ e ∈ es, k < e.1) :
    get? es k = none := by
  induction es with
  | nil => rfl
  | cons e es ih =>
    rw [get?_cons, ih fun d hd => h d (List.mem_cons_of_mem e hd)]
    have hne : e.1 ≠ k := fun heq => lt_irrefl k (heq ▸ h e List.mem_cons_self)
    simp [hne]

/-- Sorted lists with the same look-ups are equal. -/
theorem Sorted.ext_get? {es fs : Entries α} (hes : es.Sorted) (hfs : fs.Sorted)
    (h : ∀ k, es.get? k = fs.get? k) : es = fs := by
  induction es generalizing fs with
  | nil =>
    cases fs with
    | nil => rfl
    | cons f fs => simpa [get?_cons] using h f.1
  | cons e es ih =>
    cases fs with
    | nil => simpa [get?_cons] using h e.1
    | cons f fs =>
      obtain ⟨hlt, hes⟩ := List.pairwise_cons.mp hes
      obtain ⟨hlt', hfs⟩ := List.pairwise_cons.mp hfs
      -- neither first key can stand in front of the other
      have hnot {a b : Text × α} {as bs : Entries α} (hb : ∀ d ∈ bs, b.1 < d.1)
          (hab : get? (a :: as) a.1 = get? (b :: bs) a.1) : ¬ a.1 < b.1 := by
        intro hlt
        rw [get?_cons, if_pos rfl, get?_eq_none_of_lt] at hab
        · simp at hab
        · intro d hd
          rcases List.mem_cons.mp hd with rfl | hd
          · exact hlt
          · exact lt_trans hlt (hb d hd)
      have hkey : e.1 = f.1 := by
        by_cases hne : e.1 = f.1
        · exact hne
        · exact absurd (lt_of_not_lt_of_ne (hnot hlt' (h e.1)) hne) (hnot hlt (h f.1).symm)
      have hvalue : e.2 = f.2 := by
        have := h e.1
        rw [get?_cons, get?_cons, if_pos rfl, if_pos hkey.symm] at this
        simpa using this
      have hrest : es = fs := by
        refine ih hes hfs fun k => ?_
        by_cases hk : e.1 = k
        · rw [get?_eq_none_of_lt fun d hd => hk ▸ hlt d hd,
            get?_eq_none_of_lt fun d hd => hk ▸ hkey ▸ hlt' d hd]
        · have := h k
          rwa [get?_cons, get?_cons, if_neg hk, if_neg fun hf => hk (hkey.trans hf)] at this
      rw [hrest, Prod.ext hkey hvalue]

end Entries

/-- A finite map from texts to values. -/
structure Dict (α : Type) where
  /-- The entries, by ascending key. -/
  entries : Entries α
  /-- No key is out of order or repeated. -/
  sorted : entries.Sorted

namespace Dict

variable {α : Type}

/-- The dictionary without entries. -/
def empty : Dict α := ⟨[], List.Pairwise.nil⟩

instance : EmptyCollection (Dict α) := ⟨empty⟩

instance : Inhabited (Dict α) := ⟨empty⟩

instance [DecidableEq α] : DecidableEq (Dict α) := fun d e =>
  decidable_of_iff (d.entries = e.entries) ⟨fun h => by cases d; cases e; simp_all, congrArg _⟩

/-- The value of a key, if it has one. -/
def get? (d : Dict α) (k : Text) : Option α := d.entries.get? k

/-- The key has a value. -/
def contains (d : Dict α) (k : Text) : Bool := (d.get? k).isSome

/-- Give a key a value, in place of the one it has. -/
def insert (d : Dict α) (k : Text) (v : α) : Dict α :=
  ⟨d.entries.insert k v, d.sorted.insert k v⟩

/-- All entries of a list on top of a dictionary; a later equal key wins. -/
def overlay (d : Dict α) (es : Entries α) : Dict α :=
  es.foldl (fun d e => d.insert e.1 e.2) d

/-- The dictionary of a list of entries; a later equal key wins. -/
def ofList (es : Entries α) : Dict α := ⟨es.collect, es.sorted_collect⟩

/-- The entries, by ascending key. -/
def toList (d : Dict α) : Entries α := d.entries

/-- There is no entry. -/
def isEmpty (d : Dict α) : Bool := d.entries.isEmpty

@[simp] theorem get?_empty (k : Text) : (∅ : Dict α).get? k = none := rfl

theorem get?_insert (d : Dict α) (k : Text) (v : α) (l : Text) :
    (d.insert k v).get? l = if k = l then some v else d.get? l :=
  Entries.get?_insert d.entries k v l

/-- **A dictionary is its look-ups.** -/
theorem ext_get? {d e : Dict α} (h : ∀ k, d.get? k = e.get? k) : d = e := by
  have := d.sorted.ext_get? e.sorted h
  cases d
  cases e
  simpa using this

end Dict

/-- The distinct members of a list of texts, in ascending order. -/
def sortedNames (names : List Text) : List Text :=
  (Entries.collect (names.map fun n => (n, ()))).map (·.1)

end Stencil
