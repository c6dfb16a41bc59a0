import Stencil.Proofs.Engine.Setting
import Stencil.Proofs.Unescape

/-!
# What a value can write

An engine whose only fragment is one token writes the value of its name, unescaped. Which
texts can be written in this way? A text is what *some* text is unescaped to, so without a
check on values there would be no limit. But a value with an unescaped token is refused,
and this leaves its mark on what is written: each token of an inert value stands behind an
odd run, which loses one backslash and becomes even. Openers that are never closed are not
checked, and may have any run.

This is the only limit (`Stencil.exists_inert_iff`). A text all of whose tokens stand
behind even runs is written by the text with one backslash more in front of each token and
twice as many in front of each other opener (`Stencil.Piece.guardRun`).
-/

namespace Stencil

open Piece

/-! ### Values -/

namespace Piece

/-- The run that a piece is given in a value, so that the piece is written with its own: one
backslash more escapes a token, and an opener that is not closed needs no escape. -/
def guardRun : Piece → Nat
  | text _ => 0
  | token _ n => n + 1
  | opener n => 2 * n

/-- Behind its guard a token with an even run asks for nothing. -/
theorem asks?_guarded {p : Piece} (h : ∀ name n, p = token name n → n % 2 = 0) :
    (p.withRun p.guardRun).asks? = none := by
  cases p with
  | text s => rfl
  | token name n =>
    have hn := h name n rfl
    have hodd : (n + 1) % 2 = 1 := by omega
    simp [withRun, guardRun, asks?, isEscaped, run, hodd]
  | opener n => exact asks?_opener _

/-- What is kept of the guard is the run of the piece. -/
theorem kept_guarded {p : Piece} (h : ∀ name n, p = token name n → n % 2 = 0) :
    kept (p.withRun p.guardRun).run = p.run := by
  cases p with
  | text s => exact kept_two_mul 0
  | token name n =>
    have hn := h name n rfl
    have hodd : (n + 1) % 2 = 1 := by omega
    exact if_pos hodd
  | opener n => exact kept_two_mul n

end Piece

/-- **What inert texts are unescaped to**: the texts all of whose tokens stand behind even
runs. -/
theorem exists_inert_iff {s : Text} :
    (∃ v, hasUnescapedToken v = false ∧ unescape v = s) ↔
      ∀ name n, token name n ∈ scan s → n % 2 = 0 := by
  constructor
  · rintro ⟨v, hv, rfl⟩ name n hp
    exact even_run_of_mem_scan_unescape hv hp
  · intro h
    have heven : ∀ p ∈ scan s, ∀ name n, p = token name n → n % 2 = 0 := by
      rintro p hp name n rfl
      exact h name n hp
    refine ⟨withRuns guardRun s, ?_, unescape_withRuns fun p hp => kept_guarded (heven p hp)⟩
    rw [hasUnescapedToken_eq_false_iff, scan_withRuns, List.forall_mem_map]
    intro p hp
    exact asks?_guarded (heven p hp)

/-! ### Engines with one token -/

theorem scan_literal {name : Text} (h : closing ∉ name) :
    scan (literal name) = [token name 0] := by
  have hsource : sources [token name 0] = literal name := List.append_nil _
  rw [← hsource]
  exact scan_sources (canonical_cons_token_iff.mpr ⟨h, canonical_nil⟩)

namespace Engine

/-- **A fragment that is one token** is compiled to the value of its name, unescaped. -/
theorem compile_of_literal {e : Engine} {name v : Text} (hname : closing ∉ name)
    (hfragments : e.fragments = [literal name]) (hv : e.binding name = some v) :
    e.compile = .ok (unescape v, e) := by
  have hcomposed : e.composed = literal name := by
    rw [composed, hfragments, List.intercalate_singleton]
  have hunbound : e.unbound = [] := by
    rw [unbound_eq_nil_iff]
    intro k hk
    obtain ⟨n, hn⟩ := mem_names_iff.mp hk
    rw [hcomposed, scan_literal hname, List.mem_singleton] at hn
    cases hn
    rw [hv]
    exact Option.some_ne_none v
  have hrendered : e.rendered = unescape v := by
    rw [rendered, hcomposed, expand, scan_literal hname, List.flatMap_singleton,
      expanded_token rfl hv]
    rfl
  rw [compile_of_ready (Or.inl hunbound), filled_of_unbound_eq_nil hunbound, hrendered]

/-- **What a value can write.** With one token for its only fragment, an engine can be given
a value that makes it compile to a text exactly when all tokens of the text stand behind
even runs. It is the check on values that draws this line: every text is what some text
is unescaped to. -/
theorem writable_iff_even_runs (name : Text) (hname : closing ∉ name) (s : Text) :
    ((∃ v e e', (ofFragments [literal name]).bind name v = .ok e ∧ e.compile = .ok (s, e')) ↔
        ∀ k n, token k n ∈ scan s → n % 2 = 0) ∧
      ∃ t, unescape t = s := by
  refine ⟨?_, unescape_surjective s⟩
  have hwrites {v : Text} {e : Engine} (h : (ofFragments [literal name]).bind name v = .ok e) :
      e.compile = .ok (unescape v, e) := by
    obtain ⟨-, rfl⟩ := bind_eq_ok_iff.mp h
    refine compile_of_literal hname rfl ?_
    rw [binding, Dict.get?_insert, if_pos rfl]
  rw [← exists_inert_iff]
  constructor
  · rintro ⟨v, e, e', hbind, hcompile⟩
    rw [hwrites hbind, Except.ok.injEq, Prod.mk.injEq] at hcompile
    exact ⟨v, (bind_eq_ok_iff.mp hbind).1, hcompile.1⟩
  · rintro ⟨v, hv, rfl⟩
    exact ⟨v, _, _, bind_of_inert hv, hwrites (bind_of_inert hv)⟩

/-- A token behind two backslashes and an opener behind one can be written, and a token
behind one cannot. -/
theorem writable_iff_even_runs_opener :
    let s : Text := ['\\', '\\', '$', '{', 'a', '}', '\\', '$', '{']
    let t : Text := ['\\', '$', '{', 'a', '}']
    closing ∉ ['x'] ∧
      (∃ v e e', (ofFragments [literal ['x']]).bind ['x'] v = .ok e ∧ e.compile = .ok (s, e')) ∧
      ¬ ∃ v e e', (ofFragments [literal ['x']]).bind ['x'] v = .ok e ∧ e.compile = .ok (t, e') := by
  intro s t
  have hname : closing ∉ ['x'] := by decide
  have hs : scan s = [token ['a'] 2, opener 1] := by decide +kernel
  have ht : scan t = [token ['a'] 1] := by decide +kernel
  refine ⟨hname, (writable_iff_even_runs ['x'] hname s).1.mpr ?_,
    fun h => absurd ((writable_iff_even_runs ['x'] hname t).1.mp h ['a'] 1 ?_) (by decide)⟩
  · rw [hs]
    rintro k n hk
    obtain ⟨-, rfl⟩ : k = ['a'] ∧ n = 2 := by simpa using hk
    rfl
  · rw [ht]
    exact List.mem_cons_self

end Engine

end Stencil
