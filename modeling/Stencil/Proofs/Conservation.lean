import Mathlib.Algebra.BigOperators.Group.List.Basic
import Mathlib.Algebra.GroupWithZero.Nat
import Stencil.Proofs.Text.Cut
import Stencil.Proofs.Unescape

/-!
# Where the backslashes go

A backslash is spent in two places only (`Stencil.Piece.spent`). An opener that is escaped
spends the one that escapes it. A token that is not escaped spends half of its run, in which
two backslashes stand for one. All others are plain text, in a name, in front of an opener
that has no use for them, and should come out as they went in.

They do, with one exception (`Stencil.slashes_conserved_iff`). An opener that is never closed
is no token, so a run of even length in front of it escapes nothing and stands for nothing.
It is halved all the same (`Stencil.Piece.lost`). So a text is written out as it should be
exactly when each of its unclosed openers stands behind an odd run or none.

A resolver with a memory may answer a name differently each time. What is written is
therefore compared answer by answer (`Stencil.transcript`): with the same answers, no piece
is written shorter by the rule than it is in fact, and rows of parts of which one is nowhere
shorter than the other can be told apart by their joins.
-/

namespace Stencil

open Piece

namespace Piece

/-! ### One piece -/

/-- **The backslashes that a piece has a use for**: the one that escapes an opener, or one of
every two in front of a token that is not escaped. -/
def spent : Piece → Nat
  | text _ => 0
  | token _ n => if n % 2 = 1 then 1 else n / 2
  | opener n => if n % 2 = 1 then 1 else 0

/-- **The backslashes that are lost besides**: half of an even run in front of an opener that
is never closed. -/
def lost : Piece → Nat
  | opener n => if n % 2 = 1 then 0 else n / 2
  | _ => 0

/-- A piece written out behind a run of `k` backslashes, with the answer to what it asks. -/
def writtenBehind (k : Nat) : Piece → Option Text → Text
  | text s, _ => s
  | token name _, answer => slashes k ++ answer.elim (literal name) unescape
  | opener _, _ => slashes k ++ opening

theorem keptSlashes_add (p : Piece) : p.keptSlashes + (p.spent + p.lost) = p.run := by
  cases p with
  | text s => simp [keptSlashes, isEscaped, run, spent, lost]
  | token name n =>
    have hkept : (token name n).keptSlashes = kept n := keptSlashes_eq _
    have hlost : (token name n).lost = 0 := rfl
    rw [hkept, hlost, kept, spent, run]
    split <;> omega
  | opener n =>
    have hkept : (opener n).keptSlashes = kept n := keptSlashes_eq _
    rw [hkept, kept, spent, lost, run]
    split <;> omega

/-- A piece is written out behind what is neither spent nor lost of its run. -/
theorem answered_eq_writtenBehind {p : Piece} {answer : Option Text}
    (h : p.asks? = none → answer = none) :
    p.answered answer = p.writtenBehind (p.run - (p.spent + p.lost)) answer := by
  have hkept : p.run - (p.spent + p.lost) = p.keptSlashes := by
    have := keptSlashes_add p
    omega
  rw [hkept]
  cases p with
  | text s =>
    obtain rfl := h rfl
    rfl
  | token name n => cases answer <;> rfl
  | opener n =>
    obtain rfl := h (asks?_opener n)
    rfl

theorem lost_eq_zero_iff {p : Piece} : p.lost = 0 ↔ ∀ n, p = opener n → n = 0 ∨ n % 2 = 1 := by
  cases p with
  | text s => simp [lost]
  | token name n => simp [lost]
  | opener n =>
    simp only [lost, opener.injEq, forall_eq']
    split <;> omega

/-- A piece is written out as it should be exactly when nothing is lost of its run. -/
theorem writtenBehind_eq_iff {p : Piece} {answer : Option Text} :
    p.writtenBehind (p.run - (p.spent + p.lost)) answer =
      p.writtenBehind (p.run - p.spent) answer ↔ p.lost = 0 := by
  cases p with
  | text s => exact iff_of_true rfl rfl
  | token name n => exact iff_of_true rfl rfl
  | opener n =>
    have hle := keptSlashes_add (opener n)
    rw [writtenBehind, writtenBehind, List.append_left_inj]
    constructor
    · intro h
      have hlength := congrArg List.length h
      rw [length_slashes, length_slashes] at hlength
      omega
    · intro h
      rw [h, Nat.add_zero]

theorem length_writtenBehind_le {k l : Nat} (h : k ≤ l) (p : Piece) (answer : Option Text) :
    (p.writtenBehind k answer).length ≤ (p.writtenBehind l answer).length := by
  cases p with
  | text s => exact Nat.le_refl _
  | token name n =>
    simp only [writtenBehind, List.length_append, length_slashes]
    exact Nat.add_le_add_right h _
  | opener n =>
    simp only [writtenBehind, List.length_append, length_slashes]
    exact Nat.add_le_add_right h _

/-- The backslashes of a piece are those that are left after unescaping, and those that are
spent or lost. -/
theorem count_unescaped_add (p : Piece) :
    p.unescaped.count '\\' + (p.spent + p.lost) = p.source.count '\\' := by
  have hkept := keptSlashes_add p
  cases p with
  | text s => rfl
  | token name n =>
    simp only [unescaped, source, slashes, List.count_append, List.count_replicate_self]
    rw [run] at hkept
    omega
  | opener n =>
    simp only [unescaped, source, slashes, List.count_append, List.count_replicate_self]
    rw [run] at hkept
    omega

end Piece

/-! ### The answers of a resolver -/

section Memory

variable {σ : Type} (resolve : σ → Text → Option Text × σ)

/-- **The pieces with the answers** that a resolver with a memory gives to what they ask, one
after the other. -/
def transcript : σ → List Piece → List (Piece × Option Text)
  | _, [] => []
  | m, p :: ps =>
    match p.asks? with
    | none => (p, none) :: transcript m ps
    | some name => (p, (resolve m name).1) :: transcript (resolve m name).2 ps

theorem map_fst_transcript (m : σ) (ps : List Piece) :
    (transcript resolve m ps).map Prod.fst = ps := by
  induction ps generalizing m with
  | nil => rfl
  | cons p ps ih =>
    rw [transcript]
    split
    · rw [List.map_cons, ih]
    · rw [List.map_cons, ih]

/-- What asks for nothing is not answered. -/
theorem answer_eq_none {m : σ} {ps : List Piece} {x : Piece × Option Text}
    (hx : x ∈ transcript resolve m ps) (h : x.1.asks? = none) : x.2 = none := by
  induction ps generalizing m with
  | nil => cases hx
  | cons p ps ih =>
    rw [transcript] at hx
    split at hx
    · rcases List.mem_cons.mp hx with rfl | hx
      · rfl
      · exact ih hx
    · next name hasks =>
      rcases List.mem_cons.mp hx with rfl | hx
      · rw [hasks] at h
        cases h
      · exact ih hx

/-- What is written is each piece with its answer. -/
theorem expandPieces_eq_transcript (m : σ) (ps : List Piece) :
    (expandPieces resolve m ps).1 =
      (transcript resolve m ps).flatMap fun x => x.1.answered x.2 := by
  induction ps generalizing m with
  | nil => rfl
  | cons p ps ih =>
    rw [transcript]
    cases hp : p.asks? with
    | none =>
      rw [expandPieces_cons_of_none resolve hp, ih]
      rfl
    | some name =>
      rw [expandPieces_cons_of_some resolve hp, ih]
      rfl

end Memory

/-! ### A whole text -/

/-- No backslash of a text is lost exactly when each of its unclosed openers stands behind an
odd run or none. -/
theorem forall_lost_eq_zero_iff {s : Text} :
    (∀ p ∈ scan s, p.lost = 0) ↔ ∀ n, opener n ∈ scan s → n = 0 ∨ n % 2 = 1 := by
  simp only [lost_eq_zero_iff]
  exact ⟨fun h n hn => h _ hn n rfl, fun h p hp n hpn => h n (hpn ▸ hp)⟩

/-- The backslashes of a text, one by one: left after unescaping, spent, or lost. -/
theorem count_unescape_add (s : Text) :
    (unescape s).count '\\' + (((scan s).map spent).sum + ((scan s).map lost).sum) =
      s.count '\\' := by
  conv_rhs => rw [← sources_scan s]
  rw [unescape, sources, List.count_flatMap, List.count_flatMap, ← List.sum_map_add,
    ← List.sum_map_add]
  exact congrArg List.sum (List.map_congr_left fun p _ => count_unescaped_add p)

/-- **Where backslashes go when a text is expanded**, whatever the resolver. Each piece is
written out behind its run less what is spent and what is lost of it. So it is written behind
its run less what is spent, and no other backslash is consumed, exactly when each unclosed
opener of the text stands behind an odd run or none. Unescaping leaves all backslashes of the
text but those that are spent or lost, and all but those that are spent exactly under the
same condition. -/
theorem slashes_conserved_iff {σ : Type} (resolve : σ → Text → Option Text × σ) (m : σ)
    (s : Text) :
    let answered := transcript resolve m (scan s)
    answered.map Prod.fst = scan s ∧
      (expandWith resolve m s).1 =
        answered.flatMap (fun x => x.1.writtenBehind (x.1.run - (x.1.spent + x.1.lost)) x.2) ∧
      ((expandWith resolve m s).1 =
          answered.flatMap (fun x => x.1.writtenBehind (x.1.run - x.1.spent) x.2) ↔
        ∀ n, opener n ∈ scan s → n = 0 ∨ n % 2 = 1) ∧
      (unescape s).count '\\' + (((scan s).map spent).sum + ((scan s).map lost).sum) =
        s.count '\\' ∧
      ((unescape s).count '\\' + ((scan s).map spent).sum = s.count '\\' ↔
        ∀ n, opener n ∈ scan s → n = 0 ∨ n % 2 = 1) := by
  intro answered
  have hpieces : answered.map Prod.fst = scan s := map_fst_transcript resolve m (scan s)
  have hwritten : (expandWith resolve m s).1 =
      answered.flatMap (fun x => x.1.writtenBehind (x.1.run - (x.1.spent + x.1.lost)) x.2) := by
    refine (expandPieces_eq_transcript resolve m (scan s)).trans (List.flatMap_congr fun x hx => ?_)
    exact answered_eq_writtenBehind (answer_eq_none resolve hx)
  have hcount := count_unescape_add s
  refine ⟨hpieces, hwritten, ?_, hcount, ?_⟩
  · rw [hwritten, flatMap_eq_flatMap_iff fun x _ => length_writtenBehind_le (by omega) x.1 x.2,
      ← forall_lost_eq_zero_iff, ← hpieces, List.forall_mem_map]
    exact forall₂_congr fun x _ => writtenBehind_eq_iff
  · rw [← forall_lost_eq_zero_iff, ← List.forall_mem_map (P := fun n => n = 0),
      ← List.sum_eq_zero_iff]
    omega

/-- Two backslashes in front of an opener that is never closed: one of them is lost, though it
escapes nothing and stands in front of no token. -/
theorem slashes_lost_at_opener :
    let s : Text := ['\\', '\\', '$', '{']
    scan s = [opener 2] ∧ (∀ resolve, expand resolve s = ['\\', '$', '{']) ∧
      (unescape s).count '\\' + ((scan s).map spent).sum ≠ s.count '\\' := by
  intro s
  have hscan : scan s = [opener 2] := @scan_sources [opener 2] (by decide)
  refine ⟨hscan, fun resolve => ?_, ?_⟩
  · rw [expand, hscan]
    rfl
  · rw [unescape, hscan]
    decide

end Stencil
