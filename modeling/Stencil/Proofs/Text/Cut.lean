import Mathlib.Algebra.Order.BigOperators.Group.List
import Mathlib.Algebra.Order.Group.Nat
import Mathlib.Data.List.Induction
import Stencil.Piece

/-!
# Where a text is cut

A text is cut at its first opener, at the first closing brace behind an opener,
and in front of the backslashes that end the part before an opener. The three
cuts are functions on characters; this file says what each of them finds, without
mentioning how it searches.

The one fact that needs care is where an opener can *come from* when two texts
are put together (`Stencil.Piece.hasOpening_append_iff`): from one of the two, or
from a dollar sign at the end of the first and a brace at the start of the second.
Backslashes never make an opener, so the part in front of an opener may be taken
apart into a **lead** (`Stencil.Text.IsLead`) and a run of backslashes, and put
together again.

Much of what is written is a row of parts, one for each element of a list. What can be told
of the parts from the whole is told by lengths: a row is at least as long as it has parts if
none of them is empty, no part is longer than the row, and of two rows, of which one is
nowhere longer than the other, the joins are equal only if all parts are
(`Stencil.flatMap_eq_flatMap_iff`).
-/

namespace Stencil

namespace Piece

/-! ### Where openers come from -/

theorem not_hasOpening_nil : ¬ HasOpening [] := by
  simp [HasOpening, opening]

theorem hasOpening_cons_iff (c : Char) (s : Text) :
    HasOpening (c :: s) ↔ (c = '$' ∧ s.head? = some '{') ∨ HasOpening s := by
  rw [HasOpening, List.infix_cons_iff]
  refine or_congr_left ?_
  cases s with
  | nil => simp [opening]
  | cons d s => simp [opening, List.cons_prefix_cons, eq_comm]

theorem hasOpening_cons_of_ne {c : Char} (hc : c ≠ '$') (s : Text) :
    HasOpening (c :: s) ↔ HasOpening s := by
  rw [hasOpening_cons_iff, or_iff_right fun h => hc h.1]

/-- **Where an opener comes from**: from one of two parts, or from a dollar sign
and a brace that meet where the parts do. -/
theorem hasOpening_append_iff (s t : Text) :
    HasOpening (s ++ t) ↔
      HasOpening s ∨ HasOpening t ∨ (s.getLast? = some '$' ∧ t.head? = some '{') := by
  induction s with
  | nil => simp [not_hasOpening_nil]
  | cons c s ih =>
    rw [List.cons_append, hasOpening_cons_iff, hasOpening_cons_iff, ih]
    cases s with
    -- only the last character of the first part meets the second
    | nil => simp [not_hasOpening_nil, or_comm]
    | cons d s =>
      rw [List.cons_append, List.head?_cons, List.head?_cons, List.getLast?_cons_cons, or_assoc]

/-- A text without a brace has no opener. -/
theorem not_hasOpening_of_notMem {s : Text} (h : '{' ∉ s) : ¬ HasOpening s :=
  fun hs => h (hs.subset (by simp [opening]))

theorem notMem_slashes {c : Char} (h : c ≠ '\\') (n : Nat) : c ∉ slashes n :=
  fun hc => h (List.eq_of_mem_replicate hc)

/-- A run of backslashes behind a text makes no opener. -/
theorem hasOpening_append_slashes_iff (s : Text) (n : Nat) :
    HasOpening (s ++ slashes n) ↔ HasOpening s := by
  have hrun : '{' ∉ slashes n := notMem_slashes (by decide) n
  rw [hasOpening_append_iff]
  refine ⟨?_, Or.inl⟩
  rintro (hs | hn | ⟨-, hhead⟩)
  · exact hs
  · exact absurd hn (not_hasOpening_of_notMem hrun)
  · exact absurd (List.mem_of_head? hhead) hrun

end Piece

namespace Text

open Piece

/-! ### The first opener -/

/-- The step of the search for an opener, away from one. -/
theorem cutOpening_cons {c : Char} {s : Text} (h : ¬ (c = '$' ∧ s.head? = some '{')) :
    cutOpening (c :: s) = s.cutOpening.map fun (a, b) => (c :: a, b) := by
  refine cutOpening.eq_3 c s ?_
  rintro t rfl rfl
  exact h ⟨rfl, rfl⟩

/-- **The search for an opener finds the first one.** -/
theorem cutOpening_append {a : Text} (ha : ¬ HasOpening a) (b : Text) :
    (a ++ (opening ++ b)).cutOpening = some (a, b) := by
  induction a with
  | nil => rfl
  | cons c a ih =>
    rw [hasOpening_cons_iff, not_or] at ha
    have hstep : ¬ (c = '$' ∧ (a ++ (opening ++ b)).head? = some '{') := by
      rintro ⟨rfl, hhead⟩
      cases a with
      | nil => simp [opening] at hhead
      | cons d a => exact ha.1 ⟨rfl, by simpa using hhead⟩
    rw [List.cons_append, cutOpening_cons hstep, ih ha.2]
    rfl

theorem cutOpening_eq_none {s : Text} (h : ¬ HasOpening s) : s.cutOpening = none := by
  induction s with
  | nil => rfl
  | cons c s ih =>
    rw [hasOpening_cons_iff, not_or] at h
    rw [cutOpening_cons h.1, ih h.2]
    rfl

/-- A text with an opener has a first one. -/
theorem exists_first_opening {s : Text} (h : HasOpening s) :
    ∃ a b, ¬ HasOpening a ∧ s = a ++ (opening ++ b) := by
  induction s with
  | nil => exact absurd h not_hasOpening_nil
  | cons c s ih =>
    rcases Classical.em (c = '$' ∧ s.head? = some '{') with ⟨rfl, hhead⟩ | hc
    · obtain ⟨t, rfl⟩ := List.head?_eq_some_iff.mp hhead
      exact ⟨[], t, not_hasOpening_nil, rfl⟩
    · obtain ⟨a, b, ha, rfl⟩ := ih (((hasOpening_cons_iff c s).mp h).resolve_left hc)
      refine ⟨c :: a, b, ?_, rfl⟩
      rw [hasOpening_cons_iff, not_or]
      refine ⟨?_, ha⟩
      rintro ⟨rfl, hhead⟩
      -- the brace that follows the dollar sign in `a` follows it in the whole text too
      refine hc ⟨rfl, ?_⟩
      rw [List.head?_append, hhead]
      rfl

/-! ### The first closing brace -/

theorem cutClosing_append {a : Text} (ha : closing ∉ a) (b : Text) :
    (a ++ closing :: b).cutClosing = some (a, b) := by
  induction a with
  | nil => rfl
  | cons c a ih =>
    rw [List.mem_cons, not_or] at ha
    rw [List.cons_append, cutClosing.eq_3 c _ (fun h => ha.1 h.symm), ih ha.2]
    rfl

theorem cutClosing_eq_none {s : Text} (h : closing ∉ s) : s.cutClosing = none := by
  induction s with
  | nil => rfl
  | cons c s ih =>
    rw [List.mem_cons, not_or] at h
    rw [cutClosing.eq_3 c s (fun hc => h.1 hc.symm), ih h.2]
    rfl

/-! ### The run in front of an opener -/

/-- The run that a list ends in, counted backwards. -/
theorem length_takeWhile_reverse_append_replicate {α : Type} [DecidableEq α] {a : α} {s : List α}
    (h : s.getLast? ≠ some a) (n : Nat) :
    ((s ++ List.replicate n a).reverse.takeWhile (· == a)).length = n := by
  rw [List.reverse_append, List.reverse_replicate,
    List.takeWhile_append_of_pos (fun b hb => by simp [List.eq_of_mem_replicate hb])]
  rw [List.getLast?_eq_head?_reverse] at h
  cases hs : s.reverse with
  | nil => simp
  | cons b t =>
    have hb : b ≠ a := by simpa [hs] using h
    simp [hb]

theorem trailingSlashes_append_slashes {s : Text} (h : s.getLast? ≠ some '\\') (n : Nat) :
    (s ++ slashes n).trailingSlashes = n :=
  length_takeWhile_reverse_append_replicate h n

/-- Every text is a text that does not end in a backslash, and a run behind it. -/
theorem exists_eq_append_slashes (s : Text) :
    ∃ t n, t.getLast? ≠ some '\\' ∧ s = t ++ slashes n := by
  induction s using List.reverseRecOn with
  | nil => exact ⟨[], 0, by simp, rfl⟩
  | append_singleton s c ih =>
    rcases eq_or_ne c '\\' with rfl | hc
    · obtain ⟨t, n, ht, rfl⟩ := ih
      refine ⟨t, n + 1, ht, ?_⟩
      rw [slashes, slashes, List.replicate_succ', List.append_assoc]
    · refine ⟨s ++ [c], 0, ?_, by simp⟩
      simpa using hc

/-- **A lead**: plain text as it may stand in front of an opener. It hides no
opener, and it does not end in a backslash, which would belong to the opener. -/
structure IsLead (s : Text) : Prop where
  /-- No opener stands in it. -/
  plain : ¬ HasOpening s
  /-- It leaves all backslashes in front of the opener to the opener. -/
  last : s.getLast? ≠ some '\\'

theorem isLead_nil : IsLead [] := ⟨not_hasOpening_nil, by simp⟩

/-! ### The three forms of a text -/

/-- **Every text has one of three forms**: it has no opener, or its first opener
is closed, or its first opener is never closed. -/
theorem forms (s : Text) :
    ¬ HasOpening s ∨
      (∃ lead n name rest, IsLead lead ∧ closing ∉ name ∧
        s = lead ++ ((token name n).source ++ rest)) ∨
      ∃ lead n body, IsLead lead ∧ closing ∉ body ∧ s = lead ++ ((opener n).source ++ body) := by
  rcases Classical.em (HasOpening s) with hs | hs
  · obtain ⟨a, b, ha, rfl⟩ := exists_first_opening hs
    obtain ⟨lead, n, hlast, rfl⟩ := exists_eq_append_slashes a
    rw [hasOpening_append_slashes_iff] at ha
    rcases Classical.em (closing ∈ b) with hb | hb
    · obtain ⟨name, rest, rfl, hname⟩ := List.eq_append_cons_of_mem hb
      exact Or.inr (Or.inl ⟨lead, n, name, rest, ⟨ha, hlast⟩, hname, by simp [source, literal]⟩)
    · exact Or.inr (Or.inr ⟨lead, n, b, ⟨ha, hlast⟩, hb, by simp [source]⟩)
  · exact Or.inl hs

end Text

/-! ### Rows of parts -/

/-- Parts that are not empty make a row at least as long as there are parts. -/
theorem length_le_length_flatMap {α β : Type} {xs : List α} {f : α → List β}
    (h : ∀ x ∈ xs, f x ≠ []) : xs.length ≤ (xs.flatMap f).length := by
  have hsum := List.length_le_sum_of_one_le (xs.map fun x => (f x).length) fun n hn => by
    obtain ⟨x, hx, rfl⟩ := List.mem_map.mp hn
    exact List.length_pos_iff.mpr (h x hx)
  rwa [List.length_map, ← List.length_flatMap] at hsum

/-- A part is no longer than the whole. -/
theorem length_le_flatMap_of_mem {α β : Type} {xs : List α} {x : α} (f : α → List β)
    (h : x ∈ xs) : (f x).length ≤ (xs.flatMap f).length := by
  rw [List.flatMap_def]
  exact (List.sublist_flatten_of_mem (List.mem_map_of_mem h)).length_le

/-- **Two rows of parts, the one nowhere longer than the other**, have the same join exactly
when they agree part by part. -/
theorem flatMap_eq_flatMap_iff {α β : Type} {xs : List α} {f g : α → List β}
    (h : ∀ x ∈ xs, (f x).length ≤ (g x).length) :
    xs.flatMap f = xs.flatMap g ↔ ∀ x ∈ xs, f x = g x := by
  refine ⟨fun heq => ?_, List.flatMap_congr⟩
  induction xs with
  | nil => exact nofun
  | cons x xs ih =>
    rw [List.forall_mem_cons] at h ⊢
    rw [List.flatMap_cons, List.flatMap_cons] at heq
    -- what the first parts differ by in length, the rest would have to make up for
    have hrest : (xs.flatMap f).length ≤ (xs.flatMap g).length := by
      rw [List.length_flatMap, List.length_flatMap]
      exact List.sum_le_sum h.2
    have hwhole := congrArg List.length heq
    rw [List.length_append, List.length_append] at hwhole
    have hfirst : (f x).length = (g x).length := by
      have := h.1
      omega
    obtain ⟨hx, hxs⟩ := List.append_inj heq hfirst
    exact ⟨hx, ih h.2 hxs⟩

end Stencil
