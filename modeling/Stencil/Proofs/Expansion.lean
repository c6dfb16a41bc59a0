import Mathlib.Data.List.Basic
import Stencil.Expansion
import Stencil.Proofs.Dict
import Stencil.Proofs.Piece.Scan

/-!
# What an expansion asks for

The cut of a text does not depend on the runs of backslashes in front of its openers: they
may be replaced by any others (`Stencil.scan_withRuns`), as unescaping does
(`Stencil.scan_unescape`).

Three functions go over the pieces of a text: one lists the names of its tokens,
one tells whether some token is not escaped, and one writes the text out and asks
for values. This file ties them together. A text with no unescaped token is
**inert**: it asks for nothing (`Stencil.askedNames_eq_nil_iff`), whatever the
resolver, and is written out as it is unescaped (`Stencil.expand_of_inert`). What
is asked for in general is the list of the names of the unescaped tokens, in their
order, whatever the answers are (`Stencil.expandRecorded_eq`).
-/

namespace Stencil

/-! ### Pieces with other runs

Whether a list of pieces is canonical does not depend on the runs of its pieces: no condition
mentions them. So a text with other runs is cut into the pieces with these runs. What does not
look at runs, such as the names, does not tell the two texts apart, nor does what does not look
at backslashes. Taking one level of escaping off a text is such a replacement: each run becomes
what is kept of it. Hence **unescaping keeps the pieces**: the plain texts, the names and the
unclosed openers of the result are those of the text, in the same order. -/

namespace Piece

/-- A piece with another run in front of its opener. -/
def withRun : Piece → Nat → Piece
  | text s, _ => text s
  | token name _, n => token name n
  | opener _, n => opener n

@[simp] theorem withRun_run (p : Piece) : p.withRun p.run = p := by
  cases p <;> rfl

/-- A run that is replaced twice is the second one. -/
@[simp] theorem withRun_withRun (p : Piece) (m n : Nat) :
    (p.withRun m).withRun n = p.withRun n := by
  cases p <;> rfl

@[simp] theorem name?_withRun (p : Piece) (n : Nat) : (p.withRun n).name? = p.name? := by
  cases p <;> rfl

/-- The run of a piece may be changed by any function that makes none out of none: plain
text has none before and after. -/
theorem run_withRun (p : Piece) (f : Nat → Nat) (hf : f 0 = 0) :
    (p.withRun (f p.run)).run = f p.run := by
  cases p with
  | text s => exact hf.symm
  | token name n => rfl
  | opener n => rfl

@[simp] theorem proper_withRun (p : Piece) (n : Nat) : (p.withRun n).Proper ↔ p.Proper := by
  cases p <;> rfl

@[simp] theorem adjoins_withRun (p q : Piece) (m n : Nat) :
    (p.withRun m).Adjoins (q.withRun n) ↔ p.Adjoins q := by
  cases p <;> cases q <;> rfl

@[simp] theorem leavesOpen_withRun (p q : Piece) (m n : Nat) :
    (p.withRun m).LeavesOpen (q.withRun n) ↔ p.LeavesOpen q := by
  cases p <;> cases q <;> rfl

/-- **A list stays canonical when its runs change**, and none becomes canonical by it. -/
theorem canonical_map_withRun (f : Piece → Nat) (ps : List Piece) :
    Canonical (ps.map fun p => p.withRun (f p)) ↔ Canonical ps := by
  induction ps with
  | nil => exact Iff.rfl
  | cons p ps ih =>
    rw [List.map_cons, canonical_cons_iff, canonical_cons_iff, ih, proper_withRun]
    refine and_congr_right' (and_congr ?_ (and_congr_left' ?_))
    · cases ps with
      | nil => simp
      | cons q ps => simp
    · simp

/-- What is left of a piece when its escaping is taken off is the piece with the
kept backslashes for a run. -/
theorem unescaped_eq_source (p : Piece) : p.unescaped = (p.withRun p.keptSlashes).source := by
  cases p <;> rfl

/-- An escaped piece keeps an even run. -/
theorem even_keptSlashes {p : Piece} (h : p.isEscaped = true) : p.keptSlashes % 2 = 0 := by
  have hodd : p.run % 2 = 1 := by simpa [isEscaped] using h
  rw [keptSlashes, if_pos h]
  omega

theorem filter_slashes (n : Nat) : (slashes n).filter (· ≠ '\\') = [] := by
  simp [slashes]

/-- Without backslashes a piece does not tell its run. -/
theorem filter_source_withRun (p : Piece) (n : Nat) :
    (p.withRun n).source.filter (· ≠ '\\') = p.source.filter (· ≠ '\\') := by
  cases p with
  | text s => rfl
  | token name m =>
    rw [withRun, source, source, List.filter_append, List.filter_append, filter_slashes,
      filter_slashes]
  | opener m =>
    rw [withRun, source, source, List.filter_append, List.filter_append, filter_slashes,
      filter_slashes]

end Piece

open Piece

/-! ### Texts with other runs -/

/-- A text with other runs of backslashes in front of its openers. -/
def withRuns (f : Piece → Nat) (s : Text) : Text := sources ((scan s).map fun p => p.withRun (f p))

section WithRuns

variable (f : Piece → Nat) (s : Text)

/-- **The pieces of a text with other runs** are the pieces of the text, with these runs. -/
theorem scan_withRuns : scan (withRuns f s) = (scan s).map fun p => p.withRun (f p) :=
  scan_sources ((canonical_map_withRun f _).mpr (canonical_scan s))

/-- The names of a text do not depend on its runs. -/
theorem tokenNames_withRuns : tokenNames (withRuns f s) = tokenNames s := by
  rw [tokenNames, tokenNames, scan_withRuns, List.filterMap_map]
  exact congrArg (fun g => sortedNames ((scan s).filterMap g)) (funext fun p => name?_withRun p _)

/-- A text with other runs differs from the text in backslashes only. -/
theorem filter_withRuns :
    (withRuns f s).filter (· ≠ '\\') = s.filter (· ≠ '\\') := by
  conv_rhs => rw [← sources_scan s]
  rw [withRuns, sources, sources, List.flatMap_map, List.filter_flatMap, List.filter_flatMap]
  exact List.flatMap_congr fun p _ => filter_source_withRun p _

/-! ### Unescaped texts -/

theorem unescape_eq_withRuns : unescape s = withRuns keptSlashes s := by
  rw [unescape, withRuns, sources, List.flatMap_map]
  exact congrArg (fun g => (scan s).flatMap g) (funext unescaped_eq_source)

/-- **Unescaping keeps the pieces of a text**, each with what is kept of its run. -/
theorem scan_unescape : scan (unescape s) = (scan s).map fun p => p.withRun p.keptSlashes := by
  rw [unescape_eq_withRuns, scan_withRuns]

end WithRuns

/-! ### Names -/

/-- A name is listed exactly when a token has it, escaped or not. -/
theorem mem_tokenNames_iff {s k : Text} : k ∈ tokenNames s ↔ ∃ n, token k n ∈ scan s := by
  rw [tokenNames, mem_sortedNames_iff, List.mem_filterMap]
  constructor
  · rintro ⟨p, hp, hname⟩
    cases p with
    | text s => cases hname
    | token name n =>
      cases hname
      exact ⟨n, hp⟩
    | opener n => cases hname
  · rintro ⟨n, hp⟩
    exact ⟨token k n, hp, rfl⟩

/-- A token asks for its name when it is not escaped, and nothing else asks. -/
theorem Piece.asks?_eq_some_iff {p : Piece} {k : Text} :
    p.asks? = some k ↔ ∃ n, p = token k n ∧ n % 2 = 0 := by
  cases p with
  | text s => simp [asks?, name?]
  | token name n =>
    rw [asks?, isEscaped, run, name?]
    rcases Nat.mod_two_eq_zero_or_one n with hn | hn
    · simp [hn]
    · simp [hn]
  | opener n => simp [asks?, name?]

theorem Piece.asks?_opener (n : Nat) : (opener n).asks? = none := by
  rw [asks?]
  split <;> rfl

/-- A name is asked for exactly when a token that is not escaped has it. -/
theorem mem_askedNames_iff {s k : Text} :
    k ∈ askedNames s ↔ ∃ n, token k n ∈ scan s ∧ n % 2 = 0 := by
  rw [askedNames, List.mem_filterMap]
  constructor
  · rintro ⟨p, hp, hasks⟩
    obtain ⟨n, rfl, hn⟩ := asks?_eq_some_iff.mp hasks
    exact ⟨n, hp, hn⟩
  · rintro ⟨n, hp, hn⟩
    exact ⟨token k n, hp, asks?_eq_some_iff.mpr ⟨n, rfl, hn⟩⟩

/-- A name that is asked for is the name of a token. -/
theorem mem_tokenNames_of_mem_askedNames {s k : Text} (h : k ∈ askedNames s) :
    k ∈ tokenNames s := by
  obtain ⟨n, hp, -⟩ := mem_askedNames_iff.mp h
  exact mem_tokenNames_iff.mpr ⟨n, hp⟩

/-- **An expansion depends on the answers to the names it asks for**, and on no others. -/
theorem expand_congr {resolve resolve' : Text → Option Text} {s : Text}
    (h : ∀ k ∈ askedNames s, resolve k = resolve' k) : expand resolve s = expand resolve' s := by
  rw [expand, expand]
  refine List.flatMap_congr fun p hp => ?_
  rw [expanded, expanded]
  cases hasks : p.asks? with
  | none => rfl
  | some k => rw [Option.bind_some, Option.bind_some, h k (List.mem_filterMap.mpr ⟨p, hp, hasks⟩)]

/-- In front of a token that is not escaped two backslashes stand for one, and the token
becomes its value, unescaped. -/
theorem Piece.expanded_token {resolve : Text → Option Text} {name v : Text} {n : Nat}
    (hn : n % 2 = 0) (hv : resolve name = some v) :
    expanded resolve (token name n) = slashes (n / 2) ++ unescape v := by
  simp [expanded, asks?, isEscaped, run, hn, name?, hv, answered, keptSlashes]

/-! ### Plain text -/

@[simp] theorem flatMap_expanded_plain (resolve : Text → Option Text) (s : Text) :
    (plain s).flatMap (expanded resolve) = s := by
  cases s with
  | nil => rfl
  | cons c s => exact List.append_nil _

@[simp] theorem filterMap_name?_plain (s : Text) : (plain s).filterMap name? = [] := by
  cases s <;> rfl

@[simp] theorem any_asks?_plain (s : Text) : ((plain s).any fun p => p.asks?.isSome) = false := by
  cases s <;> rfl

/-- Nothing is taken off a text without an opener. -/
theorem unescape_of_plain {s : Text} (h : ¬ HasOpening s) : unescape s = s := by
  rw [unescape, scan_of_plain h]
  cases s with
  | nil => rfl
  | cons c s => exact List.append_nil _

/-! ### Inert texts -/

theorem hasUnescapedToken_eq_false_iff {s : Text} :
    hasUnescapedToken s = false ↔ ∀ p ∈ scan s, p.asks? = none := by
  simp [hasUnescapedToken]

/-- **A text without an unescaped token asks for nothing**, and no other text does. -/
theorem askedNames_eq_nil_iff {s : Text} : askedNames s = [] ↔ hasUnescapedToken s = false := by
  rw [hasUnescapedToken_eq_false_iff, askedNames, List.filterMap_eq_nil_iff]

/-- Without a closing brace there is no token, escaped or not. -/
theorem inert_of_closing_notMem {s : Text} (h : closing ∉ s) : hasUnescapedToken s = false := by
  rw [hasUnescapedToken_eq_false_iff]
  intro p hp
  rw [← sources_scan s, sources, List.mem_flatMap] at h
  by_contra hasks
  obtain ⟨k, hk⟩ := Option.ne_none_iff_exists'.mp hasks
  obtain ⟨n, rfl, -⟩ := asks?_eq_some_iff.mp hk
  exact h ⟨_, hp, by simp [source, literal]⟩

/-- **An inert text is written out as it is unescaped**, whatever the resolver. -/
theorem expand_of_inert {s : Text} (h : hasUnescapedToken s = false)
    (resolve : Text → Option Text) : expand resolve s = unescape s := by
  rw [expand, unescape]
  refine List.flatMap_congr fun p hp => ?_
  rw [expanded, hasUnescapedToken_eq_false_iff.mp h p hp, Option.bind_none, answered]

/-- **What an inert text leaves behind is inert in the strong sense**: each token of
the unescaped text stands behind an even run. -/
theorem even_run_of_mem_scan_unescape {s : Text} (h : hasUnescapedToken s = false)
    {name : Text} {n : Nat} (hp : token name n ∈ scan (unescape s)) : n % 2 = 0 := by
  rw [scan_unescape, List.mem_map] at hp
  obtain ⟨p, hmem, hpiece⟩ := hp
  have hasks := hasUnescapedToken_eq_false_iff.mp h p hmem
  cases p with
  | text s => cases hpiece
  | token name' m =>
    cases hpiece
    refine even_keptSlashes ?_
    -- a token that is not escaped would ask
    by_contra hesc
    rw [asks?, if_neg hesc] at hasks
    cases hasks
  | opener m => cases hpiece

/-! ### Unescaped tokens, form by form -/

theorem hasUnescapedToken_of_plain {s : Text} (h : ¬ HasOpening s) :
    hasUnescapedToken s = false := by
  rw [hasUnescapedToken, scan_of_plain h, any_asks?_plain]

/-- A first token is not escaped, or what follows it decides. -/
theorem hasUnescapedToken_lead_token {lead name : Text} (hlead : Text.IsLead lead)
    (hname : closing ∉ name) (n : Nat) (rest : Text) :
    hasUnescapedToken (lead ++ ((token name n).source ++ rest)) =
      (!(n % 2 == 1) || hasUnescapedToken rest) := by
  have hasks : (token name n).asks?.isSome = !(n % 2 == 1) := by
    rw [asks?, isEscaped, run]
    cases n % 2 == 1 <;> rfl
  rw [hasUnescapedToken, scan_lead_token hlead hname, List.any_append, any_asks?_plain,
    List.any_cons, hasks, Bool.false_or]
  rfl

/-- An opener that is never closed is no token, and no token follows it. -/
theorem hasUnescapedToken_lead_opener {lead body : Text} (hlead : Text.IsLead lead)
    (hbody : closing ∉ body) (n : Nat) :
    hasUnescapedToken (lead ++ ((opener n).source ++ body)) = false := by
  rw [hasUnescapedToken, scan_lead_opener hlead hbody, List.any_append, any_asks?_plain,
    List.any_cons, asks?_opener, Option.isSome_none, Bool.false_or, Bool.false_or]
  exact inert_of_closing_notMem hbody

/-! ### The questions of an expansion -/

section Memory

variable {σ : Type} (resolve : σ → Text → Option Text × σ)

/-- A piece that asks for nothing leaves the memory alone. -/
theorem expandPieces_cons_of_none {p : Piece} (hp : p.asks? = none) (m : σ) (ps : List Piece) :
    expandPieces resolve m (p :: ps) =
      (p.unescaped ++ (expandPieces resolve m ps).1, (expandPieces resolve m ps).2) := by
  rw [expandPieces, hp]
  rfl

/-- A piece that asks takes the answer, and the others meet the memory behind it. -/
theorem expandPieces_cons_of_some {p : Piece} {name : Text} (hp : p.asks? = some name) (m : σ)
    (ps : List Piece) :
    expandPieces resolve m (p :: ps) =
      (p.answered (resolve m name).1 ++ (expandPieces resolve (resolve m name).2 ps).1,
        (expandPieces resolve (resolve m name).2 ps).2) := by
  rw [expandPieces, hp]

/-- **A resolver that keeps what it is asked** keeps the names that the pieces ask for, the
last one first, whatever its answers are. -/
theorem expandPieces_asked (asked : σ → List Text)
    (h : ∀ m name, asked (resolve m name).2 = name :: asked m) (m : σ) (ps : List Piece) :
    asked (expandPieces resolve m ps).2 = (ps.filterMap asks?).reverse ++ asked m := by
  induction ps generalizing m with
  | nil => rfl
  | cons p ps ih =>
    cases hp : p.asks? with
    | none => rw [expandPieces_cons_of_none resolve hp, ih, List.filterMap_cons_none hp]
    | some name =>
      rw [expandPieces_cons_of_some resolve hp, ih, h, List.filterMap_cons_some hp,
        List.reverse_cons, List.append_assoc, List.singleton_append]

/-- A resolver whose answers do not depend on its memory writes what a plain one writes. -/
theorem expandPieces_of_plain {answer : Text → Option Text}
    (h : ∀ m name, (resolve m name).1 = answer name) (m : σ) (ps : List Piece) :
    (expandPieces resolve m ps).1 = ps.flatMap (expanded answer) := by
  induction ps generalizing m with
  | nil => rfl
  | cons p ps ih =>
    rw [List.flatMap_cons, expanded]
    cases hp : p.asks? with
    | none =>
      rw [expandPieces_cons_of_none resolve hp, ih]
      rfl
    | some name =>
      rw [expandPieces_cons_of_some resolve hp, ih, h]
      rfl

end Memory

/-- **The questions of an expansion** are the names of the unescaped tokens, in the
order of the text and with repetitions, whatever the answers are. -/
theorem expandRecorded_eq (resolve : Text → Option Text) (s : Text) :
    expandRecorded resolve s = (expand resolve s, askedNames s) := by
  let record (asked : List Text) (name : Text) := (resolve name, name :: asked)
  have hout : (expandWith record [] s).1 = expand resolve s :=
    expandPieces_of_plain record (fun _ _ => rfl) [] (scan s)
  have hasked : (expandWith record [] s).2 = (askedNames s).reverse :=
    (expandPieces_asked record id (fun _ _ => rfl) [] (scan s)).trans (List.append_nil _)
  exact Prod.ext hout ((congrArg List.reverse hasked).trans (List.reverse_reverse _))

end Stencil
