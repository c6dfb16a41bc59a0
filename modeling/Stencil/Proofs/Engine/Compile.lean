import Mathlib.Data.List.Forall2
import Stencil.History
import Stencil.Proofs.Expansion

/-!
# Compiling

Compiling goes over the joined text twice. The first time it looks for names
without a value, and either gives them the default or gives up; the second time it
writes the text out. The two must agree on the names: after the first, every name
that the second asks for has a value, so nothing is left unanswered.

What compiling leaves is the engine with the default filled in
(`Stencil.Engine.filled`), and it succeeds exactly when the engine is *ready*: no
name lacks a value, or there is a default. The rest of the theory uses these two
words, and the three facts about them
(`Stencil.Engine.compile_eq_ok_iff`, `Stencil.Engine.compile_of_not_ready`,
`Stencil.Engine.binding_filled`).

The main result (`Stencil.Engine.compile_by_pieces`) says what compiling does in terms of
the canonical pieces of the joined text alone: the relation
`Stencil.Piece.Writes` tells, constructor by constructor, what each kind of piece
is written out as.
-/

namespace Stencil

open Piece

namespace Piece

/-- **What a piece is written out as**, when names have the given values. A token
that is not escaped needs a value. -/
inductive Writes (value : Text → Option Text) : Piece → Text → Prop
  /-- Plain text is itself. -/
  | text (s : Text) : Writes value (text s) s
  /-- An escaped token loses one backslash and is literal. -/
  | escapedToken (name : Text) {n : Nat} : n % 2 = 1 →
      Writes value (token name n) (slashes (n - 1) ++ literal name)
  /-- An escaped opener loses one backslash. -/
  | escapedOpener {n : Nat} : n % 2 = 1 → Writes value (opener n) (slashes (n - 1) ++ opening)
  /-- In front of any other opener two backslashes stand for one. -/
  | opener {n : Nat} : n % 2 = 0 → Writes value (opener n) (slashes (n / 2) ++ opening)
  /-- In front of any other token two backslashes stand for one, and the token
  becomes its value, unescaped. -/
  | token {name v : Text} {n : Nat} : n % 2 = 0 → value name = some v →
      Writes value (token name n) (slashes (n / 2) ++ unescape v)

/-- The expansion of a piece is what it is written out as, if its name has a value. -/
theorem writes_expanded {value : Text → Option Text} {p : Piece}
    (h : ∀ k n, p = token k n → ∃ v, value k = some v) : Writes value p (expanded value p) := by
  cases p with
  | text s => exact Writes.text s
  | token name n =>
    obtain ⟨v, hv⟩ := h name n rfl
    rcases Nat.mod_two_eq_zero_or_one n with hn | hn
    · rw [expanded_token hn hv]
      exact Writes.token hn hv
    · have hout : expanded value (token name n) = slashes (n - 1) ++ literal name := by
        simp [expanded, asks?, isEscaped, run, hn, answered, unescaped, keptSlashes]
      rw [hout]
      exact Writes.escapedToken name hn
  | opener n =>
    rcases Nat.mod_two_eq_zero_or_one n with hn | hn
    · have hout : expanded value (opener n) = slashes (n / 2) ++ opening := by
        simp [expanded, asks?, isEscaped, run, hn, name?, answered, unescaped, keptSlashes]
      rw [hout]
      exact Writes.opener hn
    · have hout : expanded value (opener n) = slashes (n - 1) ++ opening := by
        simp [expanded, asks?, isEscaped, run, hn, answered, unescaped, keptSlashes]
      rw [hout]
      exact Writes.escapedOpener hn

end Piece

namespace Engine

/-! ### Names without a value -/

theorem mem_names_iff {e : Engine} {k : Text} : k ∈ e.names ↔ ∃ n, token k n ∈ scan e.composed :=
  mem_tokenNames_iff

theorem mem_unbound_iff {e : Engine} {k : Text} :
    k ∈ e.unbound ↔ k ∈ e.names ∧ e.binding k = none := by
  rw [unbound, List.mem_filter, Bool.not_eq_true', ← Bool.not_eq_true, Dict.contains_iff, not_not]
  rfl

/-- No name lacks a value when all have one. -/
theorem unbound_eq_nil_iff {e : Engine} : e.unbound = [] ↔ ∀ k ∈ e.names, e.binding k ≠ none := by
  rw [List.eq_nil_iff_forall_not_mem]
  simp only [mem_unbound_iff, not_and]

theorem pairwise_unbound (e : Engine) : e.unbound.Pairwise (· < ·) :=
  (pairwise_sortedNames _).filter _

/-! ### The engine that is left -/

/-- The engine with the default, if there is one, bound to the names without a
value: what compiling leaves. -/
def filled (e : Engine) : Engine :=
  match e.fallback with
  | some value => e.fill value
  | none => e

@[simp] theorem fragments_filled (e : Engine) : e.filled.fragments = e.fragments := by
  unfold filled
  split <;> rfl

@[simp] theorem delimiter_filled (e : Engine) : e.filled.delimiter = e.delimiter := by
  unfold filled
  split <;> rfl

@[simp] theorem fallback_filled (e : Engine) : e.filled.fallback = e.fallback := by
  unfold filled
  split <;> rfl

@[simp] theorem composed_filled (e : Engine) : e.filled.composed = e.composed := by
  rw [composed, composed, delimiter_filled, fragments_filled]

/-- **Filling in the default** gives it to the names without a value, and changes
no other name. -/
theorem binding_filled (e : Engine) (k : Text) :
    e.filled.binding k = if k ∈ e.unbound then e.fallback else e.binding k := by
  unfold filled
  split
  · next value hvalue =>
    rw [hvalue, binding, fill, Dict.get?_overlay_const]
    rfl
  · next hnone =>
    split
    · -- without a default, a name without a value stays so
      next hk => rw [(mem_unbound_iff.mp hk).2, hnone]
    · rfl

/-- A name that has a value keeps it. -/
theorem binding_filled_of_some {e : Engine} {k v : Text} (hv : e.binding k = some v) :
    e.filled.binding k = some v := by
  have hk : k ∉ e.unbound := by
    rw [mem_unbound_iff, hv]
    exact fun hk => nomatch hk.2
  rw [binding_filled, if_neg hk, hv]

/-- An engine without names that lack a value is what compiling leaves of it. -/
theorem filled_of_unbound_eq_nil {e : Engine} (h : e.unbound = []) : e.filled = e := by
  unfold filled
  split
  · rw [fill, h]
    rfl
  · rfl

/-! ### Success and failure -/

/-- Every name of the joined text has a value, or there is a default to give. -/
def Ready (e : Engine) : Prop := e.unbound = [] ∨ e.fallback ≠ none

/-- **In a ready engine, every name has a value in the end.** -/
theorem Ready.exists_binding_filled {e : Engine} (h : e.Ready) {k : Text} (hk : k ∈ e.names) :
    ∃ v, e.filled.binding k = some v := by
  rw [binding_filled]
  split
  · next hun =>
    rcases h with hnil | hsome
    · rw [hnil] at hun
      cases hun
    · exact Option.ne_none_iff_exists'.mp hsome
  · next hun =>
    rw [mem_unbound_iff, not_and] at hun
    exact Option.ne_none_iff_exists'.mp (hun hk)

theorem compile_of_ready {e : Engine} (h : e.Ready) :
    e.compile = .ok (e.filled.rendered, e.filled) := by
  cases hnames : e.unbound with
  | nil =>
    rw [filled_of_unbound_eq_nil hnames]
    simp only [compile, hnames]
  | cons k ks =>
    rcases h with hnil | hsome
    · rw [hnames] at hnil
      cases hnil
    · obtain ⟨value, hvalue⟩ := Option.ne_none_iff_exists'.mp hsome
      simp only [compile, filled, hnames, hvalue]

theorem compile_of_not_ready {e : Engine} (h : ¬ e.Ready) :
    e.compile = .error (.missingKeys e.unbound) := by
  rw [Ready, not_or, not_not] at h
  cases hnames : e.unbound with
  | nil => exact absurd hnames h.1
  | cons k ks => simp only [compile, hnames, h.2]

/-- **Compiling succeeds exactly on ready engines**, with the text of the engine
that it leaves. -/
theorem compile_eq_ok_iff {e e' : Engine} {out : Text} :
    e.compile = .ok (out, e') ↔ e.Ready ∧ e' = e.filled ∧ out = e.filled.rendered := by
  rcases Classical.em e.Ready with h | h
  · rw [compile_of_ready h, Except.ok.injEq, Prod.mk.injEq]
    exact ⟨fun heq => ⟨h, heq.2.symm, heq.1.symm⟩, fun heq => ⟨heq.2.2.symm, heq.2.1.symm⟩⟩
  · rw [compile_of_not_ready h]
    exact ⟨nofun, fun heq => absurd heq.1 h⟩

/-! ### Compiling, piece by piece -/

/-- A token among the pieces has the name, escaped or not, and the name has no value. -/
def Lacks (e : Engine) (ps : List Piece) (k : Text) : Prop :=
  (∃ n, token k n ∈ ps) ∧ e.binding k = none

/-- **What a successful compilation does**, told by the pieces of the joined text:
the engine `e'` is left, and the text `out` is written. -/
structure CompilesTo (e : Engine) (ps : List Piece) (e' : Engine) (out : Text) : Prop where
  /-- The fragments stay. -/
  fragments : e'.fragments = e.fragments
  /-- The delimiter stays. -/
  delimiter : e'.delimiter = e.delimiter
  /-- The default stays. -/
  fallback : e'.fallback = e.fallback
  /-- Names that lack a value have the default now. -/
  given : ∀ k, e.Lacks ps k → ∃ v, e.fallback = some v ∧ e'.binding k = some v
  /-- No other name is touched. -/
  kept : ∀ k, ¬ e.Lacks ps k → e'.binding k = e.binding k
  /-- The text is what the pieces are written out as, in their order. -/
  written : ∃ outs, List.Forall₂ (Writes e'.binding) ps outs ∧ out = outs.flatten

theorem mem_unbound_iff_lacks {e : Engine} {k : Text} :
    k ∈ e.unbound ↔ e.Lacks (scan e.composed) k := by
  rw [mem_unbound_iff, mem_names_iff, Lacks]

/-- The engine is ready unless a name lacks a value and there is no default. -/
theorem not_ready_iff_lacks {e : Engine} :
    ¬ e.Ready ↔ (∃ k, e.Lacks (scan e.composed) k) ∧ e.fallback = none := by
  have hnil : ¬ e.unbound = [] ↔ ∃ k, k ∈ e.unbound := by
    rw [List.eq_nil_iff_forall_not_mem, not_forall_not]
  rw [Ready, not_or, not_not, hnil]
  simp only [mem_unbound_iff_lacks]

/-- The second pass leaves no name unanswered. -/
theorem Ready.forall₂_writes {e : Engine} (h : e.Ready) :
    List.Forall₂ (Writes e.filled.binding) (scan e.composed)
      ((scan e.composed).map (expanded e.filled.binding)) := by
  rw [List.forall₂_map_right_iff, List.forall₂_same]
  intro p hp
  -- a name that the second pass asks for is one that the first pass has seen
  refine writes_expanded fun k n hpiece => ?_
  subst hpiece
  exact h.exists_binding_filled (mem_names_iff.mpr ⟨n, hp⟩)

theorem Ready.compilesTo {e : Engine} (h : e.Ready) :
    e.CompilesTo (scan e.composed) e.filled e.filled.rendered := by
  refine ⟨fragments_filled e, delimiter_filled e, fallback_filled e, ?_, ?_, ?_⟩
  · intro k hk
    have hun := mem_unbound_iff_lacks.mpr hk
    obtain ⟨v, hv⟩ := h.exists_binding_filled (mem_unbound_iff.mp hun).1
    rw [binding_filled, if_pos hun] at hv
    exact ⟨v, hv, by rw [binding_filled, if_pos hun, hv]⟩
  · intro k hk
    rw [binding_filled, if_neg (mem_unbound_iff_lacks.not.mpr hk)]
  · refine ⟨_, h.forall₂_writes, ?_⟩
    rw [rendered, composed_filled, expand, List.flatMap_def]

/-- **What compiling does**, for every engine, told by the pieces of its joined text:
the one canonical list that spells it. If a name lacks a value and there is no
default, the names that lack one are listed, each once and in ascending order, and
the engine stays as it is. Otherwise it succeeds: the names that lack a value get
the default, and the text is written out piece by piece. -/
theorem compile_by_pieces (e : Engine) :
    ∃ ps, (∀ qs, Canonical qs ∧ sources qs = List.intercalate e.delimiter e.fragments ↔ qs = ps) ∧
      ((∃ k, e.Lacks ps k) ∧ e.fallback = none →
        ∃ names, e.step .compile = (e, .error (.missingKeys names)) ∧
          names.Pairwise (· < ·) ∧ ∀ k, k ∈ names ↔ e.Lacks ps k) ∧
      (¬ ((∃ k, e.Lacks ps k) ∧ e.fallback = none) →
        ∃ out e', e.step .compile = (e', .ok (some out)) ∧ e.CompilesTo ps e' out) := by
  refine ⟨scan e.composed, fun qs => ⟨?_, ?_⟩, ?_, ?_⟩
  · rintro ⟨hqs, htext⟩
    rw [composed, ← htext, scan_sources hqs]
  · rintro rfl
    exact ⟨canonical_scan _, sources_scan _⟩
  · -- the first pass gives up before anything is bound
    rw [← not_ready_iff_lacks]
    intro h
    refine ⟨e.unbound, ?_, pairwise_unbound e, fun k => mem_unbound_iff_lacks⟩
    rw [step, compile_of_not_ready h]
  · rw [← not_ready_iff_lacks, not_not]
    intro h
    refine ⟨e.filled.rendered, e.filled, ?_, h.compilesTo⟩
    rw [step, compile_of_ready h]

/-- Neither of the fragments `${` and `}\${b}` has a token, but joined by `a` they have
two, one of them escaped. Without a default both names are missing. With a default both
are bound to it, the first token is written out as the default, and the second as a token. -/
theorem compile_by_pieces_across_fragments :
    let e : Engine := ⟨[['$', '{'], ['}', '\\', '$', '{', 'b', '}']], ['a'], ∅, none⟩
    let d : Engine := { e with fallback := some ['v'] }
    let ps := [token ['a'] 0, token ['b'] 1]
    (∃ names, e.step .compile = (e, .error (.missingKeys names)) ∧
        names.Pairwise (· < ·) ∧ ∀ k, k ∈ names ↔ e.Lacks ps k) ∧
      ∃ d', d.step .compile = (d', .ok (some (['v'] ++ literal ['b']))) ∧
        d.CompilesTo ps d' (['v'] ++ literal ['b']) := by
  intro e d ps
  have hps : Canonical ps := by decide
  have htext : sources ps = List.intercalate e.delimiter e.fragments := by decide
  constructor
  · obtain ⟨qs, hunique, hmissing, -⟩ := compile_by_pieces e
    obtain rfl : ps = qs := (hunique ps).mp ⟨hps, htext⟩
    exact hmissing ⟨⟨['a'], ⟨0, List.mem_cons_self⟩, rfl⟩, rfl⟩
  · obtain ⟨qs, hunique, -, hfound⟩ := compile_by_pieces d
    obtain rfl : ps = qs := (hunique ps).mp ⟨hps, htext⟩
    obtain ⟨out, d', hstep, hcompiles⟩ := hfound fun h => nomatch h.2
    have hout : (d.step .compile).2 = .ok (some (['v'] ++ literal ['b'])) := by decide +kernel
    rw [hstep, Except.ok.injEq, Option.some.injEq] at hout
    rw [hout] at hstep hcompiles
    exact ⟨d', hstep, hcompiles⟩

end Engine

end Stencil
