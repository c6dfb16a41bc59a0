import Mathlib.Data.List.Infix
import Stencil.Proofs.Engine.Setting

/-!
# An engine is the summary of its history

An engine remembers its history in a few fields. What it holds after any sequence
of operations can be read off the operations and their outcomes, without running
it: the delimiter and the default are the last ones that were set, and a name has
the value of the last entry that was bound to it. If no entry was ever bound to a
name, it may still have a value: compiling writes the default to the names it finds
without one, so the name has the default of the **first** successful compilation of
a text with a token of that name (`Stencil.History.given`). Later compilations
find the name bound and do not touch it, even if the default is another by then.

The invariant (`Stencil.History.Summarizes`) has one part that the result does not
mention: a name that a successful compilation has used has a value. Without it, the
first use of a name could be one that left it without.
-/

namespace Stencil

/-- A sequence of operations with their outcomes, first one first. -/
abbrev History := List Record

namespace History

/-- The last delimiter that was set. -/
def delimiter (h : History) : Text :=
  (h.filterMap Record.delimiter?).getLast?.getD Engine.lineSeparator

/-- The last default that was set and not refused. -/
def fallback (h : History) : Option Text := (h.filterMap Record.fallback?).getLast?

/-- The value of the last entry that was bound to a name. -/
def written (h : History) (k : Text) : Option Text :=
  Entries.get? (h.flatMap Record.writes).reverse k

/-- The fragments joined by the delimiter of the moment. -/
def composed (h : History) (fragments : List Text) : Text :=
  List.intercalate h.delimiter fragments

/-- The history ends in a successful compilation of a text that has a token of the
name, escaped or not. -/
def endsInUse (h : History) (fragments : List Text) (k : Text) : Bool :=
  h.getLast?.any Record.compiled && decide (k ∈ tokenNames (h.composed fragments))

/-- The history up to the first successful compilation that used a name. -/
def firstUse (h : History) (fragments : List Text) (k : Text) : Option History :=
  h.inits.find? fun part => part.endsInUse fragments k

/-- The default that was in force when a name was first used. -/
def given (h : History) (fragments : List Text) (k : Text) : Option Text :=
  (h.firstUse fragments k).bind fallback

/-! ### One more record -/

theorem delimiter_append (h : History) (r : Record) :
    delimiter (h ++ [r]) = r.delimiter?.getD h.delimiter := by
  rw [delimiter, delimiter, List.filterMap_append]
  cases hr : r.delimiter? with
  | none => rw [List.filterMap_cons_none hr, List.filterMap_nil, List.append_nil, Option.getD_none]
  | some d =>
    rw [List.filterMap_cons_some hr, List.filterMap_nil, List.getLast?_concat, Option.getD_some,
      Option.getD_some]

theorem fallback_append (h : History) (r : Record) :
    fallback (h ++ [r]) = r.fallback?.or h.fallback := by
  rw [fallback, fallback, List.filterMap_append]
  cases hr : r.fallback? with
  | none => rw [List.filterMap_cons_none hr, List.filterMap_nil, List.append_nil, Option.none_or]
  | some v =>
    rw [List.filterMap_cons_some hr, List.filterMap_nil, List.getLast?_concat, Option.some_or]

theorem written_append (h : History) (r : Record) (k : Text) :
    written (h ++ [r]) k = (Entries.get? r.writes.reverse k).or (h.written k) := by
  rw [written, written, List.flatMap_append, List.flatMap_singleton, List.reverse_append,
    Entries.get?_append]

theorem firstUse_append (h : History) (r : Record) (fragments : List Text) (k : Text) :
    firstUse (h ++ [r]) fragments k = (h.firstUse fragments k).or
      (if endsInUse (h ++ [r]) fragments k then some (h ++ [r]) else none) := by
  have hinits : (h ++ [r]).inits = h.inits ++ [h ++ [r]] := by
    rw [List.inits_append]
    rfl
  rw [firstUse, firstUse, hinits, List.find?_append, List.find?_singleton]

theorem endsInUse_append (h : History) (r : Record) (fragments : List Text) (k : Text) :
    endsInUse (h ++ [r]) fragments k = true ↔
      r.compiled = true ∧ k ∈ tokenNames (composed (h ++ [r]) fragments) := by
  simp [endsInUse]

/-! ### The invariant -/

/-- **The engine is the summary of the history.** -/
structure Summarizes (h : History) (fragments : List Text) (e : Engine) : Prop where
  /-- The fragments are those of the beginning. -/
  fragments_eq : e.fragments = fragments
  /-- The delimiter is the last one. -/
  delimiter_eq : e.delimiter = h.delimiter
  /-- The default is the last one. -/
  fallback_eq : e.fallback = h.fallback
  /-- A name that was used has a value. -/
  used : ∀ k, h.firstUse fragments k ≠ none → e.binding k ≠ none
  /-- A name has the value that was last written to it, or else the default of its
  first use. -/
  binding_eq : ∀ k, e.binding k = (h.written k).or (h.given fragments k)

theorem summarizes_nil (fragments : List Text) :
    Summarizes [] fragments (Engine.ofFragments fragments) :=
  ⟨rfl, rfl, rfl, fun _ h => absurd rfl h, fun _ => rfl⟩

section Step

variable {h : History} {fragments : List Text} {e : Engine}

/-- What a record writes, on top of the summary. -/
theorem Summarizes.after (hs : Summarizes h fragments e) {r : Record} (hr : r.compiled = false) :
    Summarizes (h ++ [r]) fragments (e.after r) := by
  have hfirst (k : Text) : firstUse (h ++ [r]) fragments k = h.firstUse fragments k := by
    -- a name is used by compilations only
    have hend : ¬ endsInUse (h ++ [r]) fragments k = true := by
      rw [endsInUse_append, hr]
      exact fun hk => Bool.noConfusion hk.1
    rw [firstUse_append, if_neg hend, Option.or_none]
  refine ⟨hs.fragments_eq, ?_, ?_, ?_, ?_⟩
  · rw [delimiter_append, ← hs.delimiter_eq]
    rfl
  · rw [fallback_append, ← hs.fallback_eq]
    rfl
  · intro k hk
    rw [hfirst] at hk
    rw [Engine.binding_after]
    intro hnone
    exact hs.used k hk (Option.or_eq_none_iff.mp hnone).2
  · intro k
    have hgiven : given (h ++ [r]) fragments k = h.given fragments k :=
      congrArg (fun part : Option History => part.bind fallback) (hfirst k)
    rw [Engine.binding_after, hs.binding_eq, written_append, hgiven, Option.or_assoc]

/-- **A successful compilation writes the default of the moment to the names it is
the first to use**, unless something was written to them. -/
theorem Summarizes.filled (hs : Summarizes h fragments e) (he : e.Ready) :
    Summarizes (h ++ [e.record .compile]) fragments e.filled := by
  have hcompiled : (e.record .compile).compiled = true :=
    Engine.compiled_record_iff.mpr ⟨rfl, he⟩
  have hdelimiter : delimiter (h ++ [e.record .compile]) = e.delimiter := by
    rw [delimiter_append, ← hs.delimiter_eq]
    rfl
  have hfallback : fallback (h ++ [e.record .compile]) = e.fallback := by
    rw [fallback_append, ← hs.fallback_eq]
    rfl
  have hend (k : Text) : endsInUse (h ++ [e.record .compile]) fragments k = true ↔ k ∈ e.names := by
    rw [endsInUse_append, composed, hdelimiter, ← hs.fragments_eq]
    exact and_iff_right hcompiled
  refine ⟨?_, ?_, ?_, ?_, ?_⟩
  · rw [Engine.fragments_filled, hs.fragments_eq]
  · rw [Engine.delimiter_filled, hdelimiter]
  · rw [Engine.fallback_filled, hfallback]
  · intro k hk
    rcases Classical.em (k ∈ e.names) with hname | hname
    · exact Option.ne_none_iff_exists'.mpr (he.exists_binding_filled hname)
    · rw [firstUse_append, if_neg ((hend k).not.mpr hname), Option.or_none] at hk
      rw [Engine.binding_filled, if_neg fun hun => hname (Engine.mem_unbound_iff.mp hun).1]
      exact hs.used k hk
  · intro k
    have hwritten : written (h ++ [e.record .compile]) k = h.written k := by
      rw [written_append]
      rfl
    rw [Engine.binding_filled, hwritten, given, firstUse_append]
    split
    · -- the name is used for the first time, since one that was used has a value
      next hun =>
      obtain ⟨hname, hnone⟩ := Engine.mem_unbound_iff.mp hun
      have hfirst : h.firstUse fragments k = none := by
        by_contra hused
        exact hs.used k hused hnone
      have hnotwritten : h.written k = none := by
        have hbinding := hs.binding_eq k
        rw [hnone] at hbinding
        exact (Option.or_eq_none_iff.mp hbinding.symm).1
      rw [hnotwritten, hfirst, if_pos ((hend k).mpr hname), Option.none_or, Option.none_or,
        Option.bind_some, hfallback]
    · -- a first use, if there was one, was earlier
      next hun =>
      rw [hs.binding_eq, given]
      cases hfirst : h.firstUse fragments k with
      | some part => rw [Option.some_or]
      | none =>
        rw [Option.none_or]
        split
        · next hused =>
          rw [Engine.mem_unbound_iff, not_and] at hun
          have hbound := hun ((hend k).mp hused)
          rw [hs.binding_eq, given, hfirst, Option.bind_none, Option.or_none] at hbound
          obtain ⟨v, hv⟩ := Option.ne_none_iff_exists'.mp hbound
          rw [hv, Option.some_or, Option.some_or]
        · rfl

/-- **One operation** keeps the engine the summary of the history. -/
theorem Summarizes.step (hs : Summarizes h fragments e) (op : Operation) :
    Summarizes (h ++ [e.record op]) fragments (e.step op).1 := by
  rcases Classical.em (op = .compile ∧ e.Ready) with ⟨rfl, he⟩ | hnot
  · rw [Engine.step_compile, if_pos (Engine.compiled_record_iff.mpr ⟨rfl, he⟩)]
    exact hs.filled he
  · have hr : (e.record op).compiled = false := by
      rw [← Bool.not_eq_true, Engine.compiled_record_iff]
      exact hnot
    rcases eq_or_ne op .compile with rfl | hop
    · rw [Engine.step_compile, hr]
      exact hs.after hr
    · rw [Engine.step_eq_after e hop]
      exact hs.after hr

end Step

end History

/-! ### Runs -/

namespace Engine

/-- The operations of a run with their outcomes. -/
def history (e : Engine) (ops : List Operation) : History :=
  List.zipWith Record.mk ops (e.run ops).2

theorem history_cons (e : Engine) (op : Operation) (ops : List Operation) :
    e.history (op :: ops) = e.record op :: (e.step op).1.history ops := rfl

theorem run_cons_fst (e : Engine) (op : Operation) (ops : List Operation) :
    (e.run (op :: ops)).1 = ((e.step op).1.run ops).1 := rfl

/-- **A run** keeps the engine the summary of the history. -/
theorem summarizes_run {h : History} {fragments : List Text} {e : Engine}
    (hs : h.Summarizes fragments e) (ops : List Operation) :
    History.Summarizes (h ++ e.history ops) fragments (e.run ops).1 := by
  induction ops generalizing h e with
  | nil =>
    rw [show e.history [] = [] from rfl, List.append_nil]
    exact hs
  | cons op ops ih =>
    rw [history_cons, run_cons_fst, List.append_cons]
    exact ih (hs.step op)

/-- **An engine is the summary of its history**: after any operations, the fragments
are those of the beginning, the delimiter and the default are the last ones that
were set, and a name has the value that was last written to it, or else the default
that was in force when it was first used, or else none. -/
theorem run_eq_summary (fragments : List Text) (ops : List Operation) :
    let e := ((ofFragments fragments).run ops).1
    let h := (ofFragments fragments).history ops
    e.fragments = fragments ∧ e.delimiter = h.delimiter ∧ e.fallback = h.fallback ∧
      ∀ k, e.binding k = (h.written k).or (h.given fragments k) := by
  have hs := summarizes_run (History.summarizes_nil fragments) ops
  exact ⟨hs.fragments_eq, hs.delimiter_eq, hs.fallback_eq, hs.binding_eq⟩

end Engine

end Stencil
