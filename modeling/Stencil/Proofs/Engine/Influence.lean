import Stencil.Proofs.Inert

/-!
# What one binding can change

Two engines are set up alike, but one name has two different values in them
(`Stencil.Engine.SameBut`). Whether they compile does not depend on the two values: the
names without a value are the same. If they do compile, one of the two texts can be told
from the other exactly when the name is that of a token which is not escaped, and the two
values are not the same after unescaping (`Stencil.Engine.influence_of_binding`).

That such a change shows is not plain from the texts alone. The name may occur many times,
with any text in between, and a longer value might be thought to push a token to where the
shorter value leaves other text. The pieces keep the two texts in step: one of the two
values is no longer than the other, so no piece is written out longer with it, and the texts
are equal only if they agree piece by piece (`Stencil.expand_eq_expand_iff`).
-/

namespace Stencil

open Piece

/-! ### Two resolvers -/

section Resolvers

variable {resolve resolve' : Text → Option Text} {k v w : Text}

/-- What a piece becomes that asks for a name with a value. -/
theorem Piece.expanded_of_asks {p : Piece} (hp : p.asks? = some k) (hv : resolve k = some v) :
    expanded resolve p = slashes p.keptSlashes ++ unescape v := by
  rw [expanded, hp, Option.bind_some, hv, answered]

/-- A piece that does not ask for the name does not tell two resolvers apart that differ
there only. -/
theorem Piece.expanded_congr {p : Piece} (hp : p.asks? ≠ some k)
    (hsame : ∀ l, l ≠ k → resolve l = resolve' l) : expanded resolve p = expanded resolve' p := by
  rw [expanded, expanded]
  cases hasks : p.asks? with
  | none => rfl
  | some l =>
    have hl : l ≠ k := by
      rintro rfl
      exact hp hasks
    rw [Option.bind_some, Option.bind_some, hsame l hl]

variable (hv : resolve k = some v) (hw : resolve' k = some w)
  (hsame : ∀ l, l ≠ k → resolve l = resolve' l)

include hv hw hsame

/-- Piece by piece, a value shows where its name is asked for, and nowhere else. -/
theorem forall_expanded_eq_iff {s : Text} :
    (∀ p ∈ scan s, expanded resolve p = expanded resolve' p) ↔
      k ∉ askedNames s ∨ unescape v = unescape w := by
  constructor
  · intro h
    by_cases hk : k ∈ askedNames s
    · obtain ⟨p, hp, hasks⟩ := List.mem_filterMap.mp hk
      have hpiece := h p hp
      rw [expanded_of_asks hasks hv, expanded_of_asks hasks hw] at hpiece
      exact Or.inr (List.append_cancel_left hpiece)
    · exact Or.inl hk
  · rintro (hk | heq) p hp
    · refine expanded_congr (fun hasks => ?_) hsame
      exact hk (List.mem_filterMap.mpr ⟨p, hp, hasks⟩)
    · by_cases hasks : p.asks? = some k
      · rw [expanded_of_asks hasks hv, expanded_of_asks hasks hw, heq]
      · exact expanded_congr hasks hsame

/-- With the shorter of two values no piece is written out longer. -/
theorem length_expanded_le (hle : (unescape v).length ≤ (unescape w).length) (p : Piece) :
    (expanded resolve p).length ≤ (expanded resolve' p).length := by
  by_cases hasks : p.asks? = some k
  · rw [expanded_of_asks hasks hv, expanded_of_asks hasks hw, List.length_append,
      List.length_append]
    exact Nat.add_le_add_left hle _
  · rw [expanded_congr hasks hsame]

/-- **A value shows** exactly when its name is asked for and the value is another one after
unescaping. -/
theorem expand_eq_expand_iff {s : Text} :
    expand resolve s = expand resolve' s ↔ k ∉ askedNames s ∨ unescape v = unescape w := by
  rcases Nat.le_total (unescape v).length (unescape w).length with hle | hle
  · have hlength := fun p (_ : p ∈ scan s) => length_expanded_le hv hw hsame hle p
    rw [expand, expand, flatMap_eq_flatMap_iff hlength, forall_expanded_eq_iff hv hw hsame]
  · have hsame' : ∀ l, l ≠ k → resolve' l = resolve l := fun l hl => (hsame l hl).symm
    have hlength := fun p (_ : p ∈ scan s) => length_expanded_le hw hv hsame' hle p
    rw [eq_comm, expand, expand, flatMap_eq_flatMap_iff hlength,
      forall_expanded_eq_iff hw hv hsame', eq_comm (a := unescape w)]

end Resolvers

namespace Engine

/-! ### Two engines -/

/-- **Two engines that are the same, but for the value of one name.** -/
structure SameBut (k : Text) (e d : Engine) : Prop where
  /-- The fragments are the same. -/
  fragments : d.fragments = e.fragments
  /-- The delimiter is the same. -/
  delimiter : d.delimiter = e.delimiter
  /-- The default is the same. -/
  fallback : d.fallback = e.fallback
  /-- Every other name has the same value, or has none in both. -/
  binding : ∀ l, l ≠ k → e.binding l = d.binding l

section SameBut

variable {k v w : Text} {e d : Engine} (h : SameBut k e d)

include h

theorem SameBut.composed_eq : d.composed = e.composed := by
  rw [composed, composed, h.fragments, h.delimiter]

variable (hv : e.binding k = some v) (hw : d.binding k = some w)

include hv hw

/-- The names without a value are the same: the one that differs has a value in both. -/
theorem SameBut.unbound_eq : d.unbound = e.unbound := by
  have hnames : d.names = e.names := congrArg tokenNames h.composed_eq
  have hcontains (l : Text) : d.bindings.contains l = e.bindings.contains l := by
    by_cases hl : l = k
    · subst hl
      exact (congrArg Option.isSome hw).trans (congrArg Option.isSome hv).symm
    · exact congrArg Option.isSome (h.binding l hl).symm
  rw [unbound, unbound, hnames]
  simp only [hcontains]

theorem SameBut.ready_iff : d.Ready ↔ e.Ready := by
  rw [Ready, Ready, h.unbound_eq hv hw, h.fallback]

/-- Compiling leaves two engines that are the same but for the value of the name. -/
theorem SameBut.filled : SameBut k e.filled d.filled := by
  refine ⟨?_, ?_, ?_, fun l hl => ?_⟩
  · rw [fragments_filled, fragments_filled, h.fragments]
  · rw [delimiter_filled, delimiter_filled, h.delimiter]
  · rw [fallback_filled, fallback_filled, h.fallback]
  · rw [binding_filled, binding_filled, h.unbound_eq hv hw, h.fallback, h.binding l hl]

end SameBut

/-- **What one binding can change.** Of two engines that are the same but for the value of
one name, either none compiles, and the same names are missing, or both do. Then they write
the same text exactly when the name is that of no token or of escaped tokens only, or the
two values are the same after unescaping; and they are left the same but for that value. -/
theorem influence_of_binding {e d : Engine} {k v w : Text} (h : SameBut k e d)
    (hv : e.binding k = some v) (hw : d.binding k = some w) :
    (∃ names, e.compile = .error (.missingKeys names) ∧
        d.compile = .error (.missingKeys names)) ∨
      ∃ s e' t d', e.compile = .ok (s, e') ∧ d.compile = .ok (t, d') ∧ SameBut k e' d' ∧
        (s = t ↔ (∀ n, token k n ∈ scan e.composed → n % 2 = 1) ∨ unescape v = unescape w) := by
  by_cases hready : e.Ready
  · right
    refine ⟨_, _, _, _, compile_of_ready hready,
      compile_of_ready ((h.ready_iff hv hw).mpr hready), h.filled hv hw, ?_⟩
    have hescaped : k ∉ askedNames e.composed ↔
        ∀ n, token k n ∈ scan e.composed → n % 2 = 1 := by
      simp only [mem_askedNames_iff, not_exists, not_and, Nat.mod_two_ne_zero]
    rw [rendered, rendered, composed_filled, composed_filled, h.composed_eq, ← hescaped]
    exact expand_eq_expand_iff (binding_filled_of_some hv) (binding_filled_of_some hw)
      (h.filled hv hw).binding
  · left
    refine ⟨e.unbound, compile_of_not_ready hready, ?_⟩
    rw [compile_of_not_ready fun hd => hready ((h.ready_iff hv hw).mp hd), h.unbound_eq hv hw]

/-- The name occurs twice unescaped and once escaped. A value with an escaped opener writes the
same text as the value with the bare opener, and another text than a plain value. -/
theorem influence_of_binding_escaped_opener :
    let engine (v : Text) : Engine := ⟨[['$', '{', 'a', '}', 'x', '$', '{', 'a', '}'],
      ['\\', '$', '{', 'a', '}']], ['\n'], (∅ : Dict Text).insert ['a'] v, none⟩
    let v : Text := ['\\', '$', '{']
    let w : Text := ['$', '{']
    (∃ s e' d', (engine v).compile = .ok (s, e') ∧ (engine w).compile = .ok (s, d')) ∧
      ∃ s e' t d', (engine v).compile = .ok (s, e') ∧ (engine ['y']).compile = .ok (t, d') ∧
        s ≠ t := by
  intro engine v w
  have hbinding (u : Text) : (engine u).binding ['a'] = some u := by
    rw [binding, Dict.get?_insert, if_pos rfl]
  have hsame (u u' : Text) : SameBut ['a'] (engine u) (engine u') := by
    refine ⟨rfl, rfl, rfl, fun l hl => ?_⟩
    rw [binding, binding, Dict.get?_insert, Dict.get?_insert, if_neg hl.symm, if_neg hl.symm]
  have hready : (engine v).Ready := Or.inl (by decide +kernel)
  have hcompile : ¬ ∃ names, (engine v).compile = .error (.missingKeys names) := by
    rintro ⟨names, hnames⟩
    rw [compile_of_ready hready] at hnames
    cases hnames
  have htoken : token ['a'] 0 ∈ scan (engine v).composed := by decide +kernel
  constructor
  · rcases influence_of_binding (hsame v w) (hbinding v) (hbinding w) with
      ⟨names, hnames, -⟩ | ⟨s, e', t, d', hs, ht, -, hiff⟩
    · exact absurd ⟨names, hnames⟩ hcompile
    · obtain rfl : s = t := hiff.mpr (Or.inr (by decide +kernel))
      exact ⟨s, e', d', hs, ht⟩
  · rcases influence_of_binding (hsame v ['y']) (hbinding v) (hbinding ['y']) with
      ⟨names, hnames, -⟩ | ⟨s, e', t, d', hs, ht, -, hiff⟩
    · exact absurd ⟨names, hnames⟩ hcompile
    · refine ⟨s, e', t, d', hs, ht, fun heq => ?_⟩
      rcases hiff.mp heq with hescaped | hvalues
      · exact absurd (hescaped 0 htoken) (by decide)
      · exact absurd hvalues (by decide +kernel)

end Engine

end Stencil
