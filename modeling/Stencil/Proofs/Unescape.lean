import Mathlib.Algebra.Group.Nat.Defs
import Mathlib.Logic.Function.Iterate
import Stencil.Proofs.Expansion

/-!
# Taking the escaping off again and again

Unescaping a text changes nothing but the runs of backslashes in front of its openers, and
each run on its own: an odd run loses one backslash, an even run loses half
(`Stencil.kept`). The pieces stay, so a second unescaping finds the same pieces again, and
what is left after many is the run after as many steps (`Stencil.scan_iterate_unescape`).
Nothing is left to take off when all runs are empty (`Stencil.unescape_eq_self_iff`).

How soon that is, the length of a run alone does not tell: an odd run shrinks by one and
an even run by half. But a run that has lost only one is even, and is halved by the next
step. So any two steps together leave at most half, and a run that is shorter than
`2 ^ (k + 1)` is gone after `2 * k + 1` steps (`Stencil.iterate_kept_eq_zero`).

In the other direction nothing is lost: every text is what some text is unescaped to
(`Stencil.unescape_surjective`).
-/

namespace Stencil

open Piece

/-! ### One run -/

/-- What is left of a run of `n` backslashes: an odd run loses one, of an even run one half
is left. -/
def kept (n : Nat) : Nat := if n % 2 = 1 then n - 1 else n / 2

theorem Piece.keptSlashes_eq (p : Piece) : p.keptSlashes = kept p.run := by
  rw [keptSlashes, isEscaped, kept]
  simp only [beq_iff_eq]

theorem kept_le (n : Nat) : kept n ≤ n := by
  rw [kept]
  split <;> omega

/-- A run that is not empty gets shorter. -/
theorem kept_eq_self_iff {n : Nat} : kept n = n ↔ n = 0 := by
  rw [kept]
  split <;> omega

/-- **Two steps halve a run**: if the first takes off only one, the second finds an even run. -/
theorem kept_kept_le (n : Nat) : kept (kept n) ≤ n / 2 := by
  rcases Nat.mod_two_eq_zero_or_one n with hn | hn
  · have hhalf : kept n = n / 2 := if_neg (by omega)
    rw [hhalf]
    exact kept_le (n / 2)
  · have hone : kept n = n - 1 := if_pos hn
    have hhalf : kept (n - 1) = (n - 1) / 2 := if_neg (by omega)
    rw [hone, hhalf]
    exact Nat.div_le_div_right (Nat.sub_le n 1)

/-- **A run is gone** after one step more than twice the number of its halvings. -/
theorem iterate_kept_eq_zero {k n : Nat} (h : n < 2 ^ (k + 1)) : kept^[2 * k + 1] n = 0 := by
  induction k generalizing n with
  | zero =>
    obtain rfl | rfl : n = 0 ∨ n = 1 := by omega
    · rfl
    · rfl
  | succ k ih =>
    have hsteps : 2 * (k + 1) + 1 = 2 * k + 1 + 2 := by omega
    have hhalf : kept (kept n) < 2 ^ (k + 1) := by
      have hle := kept_kept_le n
      rw [Nat.pow_succ] at h
      omega
    rw [hsteps, Function.iterate_add_apply]
    exact ih hhalf

/-! ### One text -/

/-- The pieces of an unescaped text are those of the text, each with what is kept of its
run. -/
theorem scan_unescape_eq (s : Text) :
    scan (unescape s) = (scan s).map fun p => p.withRun (kept p.run) := by
  rw [scan_unescape]
  simp only [keptSlashes_eq]

/-- **Nothing is left to take off** exactly when no opener has a backslash in front of it. -/
theorem unescape_eq_self_iff {s : Text} : unescape s = s ↔ ∀ p ∈ scan s, p.run = 0 := by
  have hpiece (p : Piece) : p.withRun (kept p.run) = p ↔ p.run = 0 := by
    rw [← kept_eq_self_iff]
    constructor
    · intro h
      rw [← run_withRun p kept rfl, h]
    · intro h
      rw [h, withRun_run]
  rw [← scan_inj, scan_unescape_eq]
  conv_lhs => rw [← List.map_id (scan s), List.map_map]
  rw [List.map_inj_left]
  exact forall₂_congr fun p _ => hpiece p

/-! ### One text, many times -/

/-- **The pieces of a text that is unescaped many times** are those of the text, each with
what is left of its run after as many steps. -/
theorem scan_iterate_unescape (k : Nat) (s : Text) :
    scan (unescape^[k] s) = (scan s).map fun p => p.withRun (kept^[k] p.run) := by
  induction k with
  | zero => simp
  | succ k ih =>
    have hzero : kept^[k] 0 = 0 := Function.iterate_fixed rfl k
    rw [Function.iterate_succ_apply', scan_unescape_eq, ih, List.map_map]
    refine List.map_congr_left fun p _ => ?_
    rw [Function.comp_apply, run_withRun p _ hzero, withRun_withRun,
      Function.iterate_succ_apply' kept]

/-! ### The other direction -/

/-- **A text is got back from other runs** if of each of these its own run is kept. -/
theorem unescape_withRuns {f : Piece → Nat} {s : Text}
    (h : ∀ p ∈ scan s, kept ((p.withRun (f p)).run) = p.run) : unescape (withRuns f s) = s := by
  rw [← scan_inj, scan_unescape_eq, scan_withRuns, List.map_map]
  conv_rhs => rw [← List.map_id (scan s)]
  refine List.map_congr_left fun p hp => ?_
  rw [Function.comp_apply, h p hp, withRun_withRun, withRun_run, id]

theorem kept_two_mul (n : Nat) : kept (2 * n) = n := by
  rw [kept, if_neg (by omega)]
  omega

/-- **Every text is what some text is unescaped to**: all runs may be doubled. -/
theorem unescape_surjective : Function.Surjective unescape := by
  intro s
  refine ⟨withRuns (fun p => 2 * p.run) s, unescape_withRuns fun p _ => ?_⟩
  rw [run_withRun p (2 * ·) rfl, kept_two_mul]

/-- **What unescaping does to a text.** The pieces stay, in their order and with their
plain texts and names, and only the runs shrink: an odd run loses one backslash, an even
run loses half. So the names stay, and all characters other than backslashes; nothing
changes exactly when no opener has a backslash in front of it; and if no run is longer
than `m`, nothing changes any more after `2 * log2 m + 1` times. -/
theorem unescape_shrinks_runs (s : Text) :
    scan (unescape s) = ((scan s).map fun p =>
      p.withRun (if p.run % 2 = 1 then p.run - 1 else p.run / 2)) ∧
      tokenNames (unescape s) = tokenNames s ∧
      (unescape s).filter (· ≠ '\\') = s.filter (· ≠ '\\') ∧
      (unescape s = s ↔ ∀ p ∈ scan s, p.run = 0) ∧
      ∀ m, (∀ p ∈ scan s, p.run ≤ m) →
        unescape (unescape^[2 * Nat.log2 m + 1] s) = unescape^[2 * Nat.log2 m + 1] s := by
  refine ⟨scan_unescape_eq s, ?_, ?_, unescape_eq_self_iff, fun m hm => ?_⟩
  · rw [unescape_eq_withRuns, tokenNames_withRuns]
  · rw [unescape_eq_withRuns, filter_withRuns]
  · rw [unescape_eq_self_iff, scan_iterate_unescape, List.forall_mem_map]
    intro p hp
    have hlt : p.run < 2 ^ (Nat.log2 m + 1) := Nat.lt_of_le_of_lt (hm p hp) Nat.lt_log2_self
    rw [iterate_kept_eq_zero hlt]
    exact run_withRun p (fun _ => 0) rfl

/-- A run of seven takes five times, and not four. -/
theorem unescape_shrinks_runs_seven :
    let s : Text := slashes 7 ++ literal ['a']
    (∀ p ∈ scan s, p.run ≤ 7) ∧ unescape^[4] s ≠ unescape^[5] s ∧
      unescape (unescape^[5] s) = unescape^[5] s := by
  intro s
  have hrun : ∀ p ∈ scan s, p.run ≤ 7 := by decide +kernel
  exact ⟨hrun, by decide +kernel, (unescape_shrinks_runs s).2.2.2.2 7 hrun⟩

end Stencil
