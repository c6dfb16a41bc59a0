import Mathlib.Data.List.ReduceOption
import Stencil.Proofs.Engine.Recompile

/-!
# Compilations put in between

A run of operations may be padded: more compilations are put in, anywhere. Each of
them may bind names to the default of its moment, so the padded run drifts away from
the plain one. Does anyone notice?

Not as long as the default stands. A name that a put-in compilation has bound early is
one without a value in the plain run, and the next compilation there gives it the same
default; or it is bound explicitly in both runs, and the early value is gone; or its
text never comes back. So the two engines stay in one relation
(`Stencil.Engine.Ahead`): the padded one is *ahead*, it has the values of the plain one
and some more, which are its default. Operations of the run answer the same on both
and keep the relation (`Stencil.Engine.Ahead.step`, `Stencil.Engine.Ahead.step_compile`),
and a put-in compilation keeps it (`Stencil.Engine.Ahead.step_put_in`).

The relation would break if another default were set while the padded engine is ahead:
the plain run would then give the new one to the names that the padded run has bound to
the old one. This is what `Stencil.Engine.DefaultStands` excludes.
-/

namespace Stencil

/-! ### Padded runs -/

/-- A run with compilations put in: an operation of the run, or nothing at a place
where a compilation is put in. -/
abbrev Padded := List (Option Operation)

namespace Padded

/-- The operations of the run. -/
def own (calls : Padded) : List Operation := calls.reduceOption

/-- Everything that is done. -/
def performed (calls : Padded) : List Operation := calls.map fun call => call.getD .compile

/-- Of the outcomes of everything that is done, those of the operations of the run. -/
def ownOutcomes : Padded → List Outcome → List Outcome
  | some _ :: calls, outcome :: outcomes => outcome :: ownOutcomes calls outcomes
  | none :: calls, _ :: outcomes => ownOutcomes calls outcomes
  | _, _ => []

end Padded

open Padded

namespace Engine

/-- **The default stands**: where a compilation is put in and a default is in force, no
later operation sets another one. -/
def DefaultStands (e : Engine) : Padded → Prop
  | [] => True
  | call :: calls =>
    (call = none → ∀ value ∈ e.fallback, ∀ r ∈ (e.step .compile).1.history (performed calls),
      ∀ value' ∈ r.fallback?, value' = value) ∧
    DefaultStands (e.step (call.getD .compile)).1 calls

/-! ### Being ahead -/

/-- **One engine is ahead of another**: it differs in values for names that have none in
the other, and these values are the default. -/
structure Ahead (d e : Engine) : Prop where
  /-- The fragments agree. -/
  fragments_eq : d.fragments = e.fragments
  /-- The delimiters agree. -/
  delimiter_eq : d.delimiter = e.delimiter
  /-- The defaults agree. -/
  fallback_eq : d.fallback = e.fallback
  /-- The values agree, or one is missing and the other is the default. -/
  binding_eq : ∀ k, d.binding k = e.binding k ∨ e.binding k = none ∧ d.binding k = d.fallback

theorem Ahead.refl (e : Engine) : Ahead e e := ⟨rfl, rfl, rfl, fun _ => Or.inl rfl⟩

section Ahead

variable {d e : Engine}

theorem Ahead.composed_eq (h : Ahead d e) : d.composed = e.composed := by
  rw [composed, composed, h.delimiter_eq, h.fragments_eq]

/-- Without a default, nobody can be ahead. -/
theorem Ahead.eq_of_fallback (h : Ahead d e) (hnone : d.fallback = none) : d = e := by
  refine ext_binding h.fragments_eq h.delimiter_eq h.fallback_eq fun k => ?_
  rcases h.binding_eq k with heq | ⟨he, hd⟩
  · exact heq
  · exact (hd.trans hnone).trans he.symm

/-- A name of the joined text has its value or the default, once the default is filled in. -/
theorem binding_filled_of_mem_names {k : Text} (hk : k ∈ e.names) :
    e.filled.binding k = (e.binding k).or e.fallback := by
  cases hvalue : e.binding k with
  | none =>
    rw [binding_filled, if_pos (mem_unbound_iff.mpr ⟨hk, hvalue⟩), Option.none_or]
  | some v => rw [binding_filled_of_some hvalue, Option.some_or]

/-- A name that is not in the joined text is left alone. -/
theorem binding_filled_of_notMem_names {k : Text} (hk : k ∉ e.names) :
    e.filled.binding k = e.binding k := by
  rw [binding_filled, if_neg fun hun => hk (mem_unbound_iff.mp hun).1]

/-- **Filling in the default catches up**: on the names of the joined text. -/
theorem Ahead.binding_filled_eq (h : Ahead d e) {k : Text} (hk : k ∈ e.names) :
    d.filled.binding k = e.filled.binding k := by
  have hk' : k ∈ d.names := by rwa [names, h.composed_eq]
  rw [binding_filled_of_mem_names hk, binding_filled_of_mem_names hk', h.fallback_eq]
  rcases h.binding_eq k with heq | ⟨he, hd⟩
  · rw [heq]
  · rw [he, hd, h.fallback_eq, Option.or_self, Option.none_or]

theorem Ahead.filled (h : Ahead d e) : Ahead d.filled e.filled := by
  refine ⟨?_, ?_, ?_, fun k => ?_⟩
  · rw [fragments_filled, fragments_filled, h.fragments_eq]
  · rw [delimiter_filled, delimiter_filled, h.delimiter_eq]
  · rw [fallback_filled, fallback_filled, h.fallback_eq]
  · by_cases hk : k ∈ e.names
    · exact Or.inl (h.binding_filled_eq hk)
    · have hk' : k ∉ d.names := by rwa [names, h.composed_eq]
      rw [binding_filled_of_notMem_names hk, binding_filled_of_notMem_names hk', fallback_filled]
      exact h.binding_eq k

/-- **A compilation of the run** answers the same on both engines, and keeps the one ahead. -/
theorem Ahead.step_compile (h : Ahead d e) :
    (d.step .compile).2 = (e.step .compile).2 ∧
      Ahead (d.step .compile).1 (e.step .compile).1 := by
  by_cases hnone : d.fallback = none
  · obtain rfl := h.eq_of_fallback hnone
    exact ⟨rfl, Ahead.refl _⟩
  · have hnone' : e.fallback ≠ none := h.fallback_eq ▸ hnone
    have hrendered : d.filled.rendered = e.filled.rendered := by
      refine rendered_congr h.filled.composed_eq fun k hk => ?_
      rw [names, composed_filled] at hk
      exact h.binding_filled_eq hk
    simp only [step, compile_of_ready (Or.inr hnone), compile_of_ready (Or.inr hnone')]
    exact ⟨by rw [hrendered], h.filled⟩

/-- **A compilation that is put in** keeps the engine ahead. -/
theorem Ahead.step_put_in (h : Ahead d e) : Ahead (d.step .compile).1 e := by
  rw [Engine.step_compile]
  split
  · refine ⟨?_, ?_, ?_, fun k => ?_⟩
    · rw [fragments_filled, h.fragments_eq]
    · rw [delimiter_filled, h.delimiter_eq]
    · rw [fallback_filled, h.fallback_eq]
    · rw [binding_filled, fallback_filled]
      split
      · -- a name without a value in the engine ahead has none in the other
        next hun =>
        have hd := (mem_unbound_iff.mp hun).2
        refine Or.inr ⟨?_, rfl⟩
        rcases h.binding_eq k with heq | ⟨he, -⟩
        · rw [← heq, hd]
        · exact he
      · exact h.binding_eq k
  · exact h

/-- What is written on both engines keeps the one ahead, unless it is another default. -/
theorem Ahead.after (h : Ahead d e) {r : Record}
    (hstands : ∀ value ∈ r.fallback?, d.fallback = some value) :
    Ahead (d.after r) (e.after r) ∧ (d.after r).fallback = d.fallback := by
  have hfallback : r.fallback?.or d.fallback = d.fallback := by
    cases hr : r.fallback? with
    | none => rw [Option.none_or]
    | some value => rw [Option.some_or, hstands value hr]
  refine ⟨⟨h.fragments_eq, ?_, ?_, fun k => ?_⟩, hfallback⟩
  · rw [Engine.after, Engine.after, h.delimiter_eq]
  · rw [Engine.after, Engine.after, h.fallback_eq]
  · rw [binding_after, binding_after]
    have hahead : (d.after r).fallback = d.fallback := hfallback
    rw [hahead]
    cases hwritten : Entries.get? r.writes.reverse k with
    | some v => exact Or.inl rfl
    | none =>
      rw [Option.none_or, Option.none_or]
      exact h.binding_eq k

/-- **An operation of the run** answers the same on both engines, and keeps the one ahead
unless it sets another default. -/
theorem Ahead.step (h : Ahead d e) {op : Operation}
    (hstands : ∀ value ∈ (d.record op).fallback?, d.fallback = some value) :
    (d.step op).2 = (e.step op).2 ∧ Ahead (d.step op).1 (e.step op).1 ∧
      (d.step op).1.fallback = d.fallback := by
  rcases eq_or_ne op .compile with rfl | hop
  · exact ⟨h.step_compile.1, h.step_compile.2, fallback_step_compile d⟩
  · have hrecord := record_congr e d hop
    rw [step_eq_after d hop, step_eq_after e hop, ← hrecord]
    exact ⟨congrArg Record.outcome hrecord, h.after hstands⟩

end Ahead

/-! ### Runs -/

theorem own_put_in (calls : Padded) : own (none :: calls) = own calls := rfl

theorem run_put_in_fst (e : Engine) (calls : Padded) :
    (e.run (performed (none :: calls))).1 = ((e.step .compile).1.run (performed calls)).1 := rfl

theorem ownOutcomes_put_in (e : Engine) (calls : Padded) :
    ownOutcomes (none :: calls) (e.run (performed (none :: calls))).2 =
      ownOutcomes calls ((e.step .compile).1.run (performed calls)).2 := rfl

/-- The padded run of an engine that is ahead, when no operation sets another default. -/
theorem Ahead.run {d e : Engine} (h : Ahead d e) {calls : Padded}
    (hstands : ∀ r ∈ d.history (performed calls), ∀ value ∈ r.fallback?, d.fallback = some value) :
    ownOutcomes calls (d.run (performed calls)).2 = (e.run (own calls)).2 ∧
      Ahead (d.run (performed calls)).1 (e.run (own calls)).1 ∧
      (d.run (performed calls)).1.fallback = d.fallback := by
  induction calls generalizing d e with
  | nil => exact ⟨rfl, h, rfl⟩
  | cons call calls ih =>
    rw [performed, List.map_cons, ← performed, history_cons, List.forall_mem_cons] at hstands
    obtain ⟨hfirst, hrest⟩ := hstands
    cases call with
    | none =>
      have hfallback : (d.step .compile).1.fallback = d.fallback := fallback_step_compile d
      rw [Option.getD_none, ← hfallback] at hrest
      obtain ⟨houtcomes, hahead, hfinal⟩ := ih h.step_put_in hrest
      exact ⟨houtcomes, hahead, hfinal.trans hfallback⟩
    | some op =>
      obtain ⟨houtcome, hahead, hfallback⟩ := h.step hfirst
      rw [Option.getD_some, ← hfallback] at hrest
      obtain ⟨houtcomes, hahead', hfinal⟩ := ih hahead hrest
      exact ⟨List.cons_eq_cons.mpr ⟨houtcome, houtcomes⟩, hahead', hfinal.trans hfallback⟩

/-- Without a default, compiling leaves an engine as it is. -/
theorem step_compile_of_fallback {e : Engine} (h : e.fallback = none) :
    (e.step .compile).1 = e := by
  have hfilled : e.filled = e := by
    rw [filled, h]
  rw [step_compile, hfilled, ite_self]

/-- The default that a compilation finds which is put into the run. -/
def FoundByPutIn (e : Engine) (calls : Padded) (value : Text) : Prop :=
  ∃ before after, calls = before ++ none :: after ∧
    (e.run (performed before)).1.fallback = some value

theorem FoundByPutIn.cons {e : Engine} {call : Option Operation} {calls : Padded} {value : Text}
    (h : (e.step (call.getD .compile)).1.FoundByPutIn calls value) :
    e.FoundByPutIn (call :: calls) value := by
  obtain ⟨before, after, rfl, hvalue⟩ := h
  exact ⟨call :: before, after, rfl, hvalue⟩

/-- **A padded run**: the two runs go side by side until a put-in compilation finds a
default, and from there on the padded one is ahead with it. -/
theorem run_padded {e : Engine} {calls : Padded} (h : e.DefaultStands calls) :
    ownOutcomes calls (e.run (performed calls)).2 = (e.run (own calls)).2 ∧
      Ahead (e.run (performed calls)).1 (e.run (own calls)).1 ∧
      ∀ k v, (e.run (own calls)).1.binding k = none →
        (e.run (performed calls)).1.binding k = some v → e.FoundByPutIn calls v := by
  induction calls generalizing e with
  | nil =>
    refine ⟨rfl, Ahead.refl _, fun k v hnone hsome => ?_⟩
    exact absurd (hnone.symm.trans hsome) (Option.some_ne_none v).symm
  | cons call calls ih =>
    obtain ⟨hstands, hrest⟩ := h
    cases call with
    | some op =>
      obtain ⟨houtcomes, hahead, hfound⟩ := ih hrest
      exact ⟨List.cons_eq_cons.mpr ⟨rfl, houtcomes⟩, hahead,
        fun k v hnone hsome => (hfound k v hnone hsome).cons⟩
    | none =>
      cases hvalue : e.fallback with
      | none =>
        -- nothing is filled in, and the runs stay side by side
        have hsame : (e.step .compile).1 = e := step_compile_of_fallback hvalue
        obtain ⟨houtcomes, hahead, hfound⟩ := ih hrest
        rw [Option.getD_none, hsame] at houtcomes hahead hfound
        rw [ownOutcomes_put_in, run_put_in_fst, own_put_in, hsame]
        refine ⟨houtcomes, hahead, fun k v hnone hsome => FoundByPutIn.cons ?_⟩
        rw [Option.getD_none, hsame]
        exact hfound k v hnone hsome
      | some value =>
        -- from here on the padded run is ahead, and the default stands
        have hfallback : (e.step .compile).1.fallback = some value := by
          rw [fallback_step_compile, hvalue]
        have hkeeps : ∀ r ∈ (e.step .compile).1.history (performed calls),
            ∀ value' ∈ r.fallback?, (e.step .compile).1.fallback = some value' := by
          intro r hr value' hset
          rw [hfallback, hstands rfl value hvalue r hr value' hset]
        obtain ⟨houtcomes, hahead, hfinal⟩ := (Ahead.refl e).step_put_in.run hkeeps
        refine ⟨houtcomes, hahead, fun k v hnone hsome => ⟨[], calls, rfl, ?_⟩⟩
        rcases hahead.binding_eq k with heq | ⟨-, hdefault⟩
        · exact absurd ((hnone.symm.trans heq.symm).trans hsome) (Option.some_ne_none v).symm
        · exact hvalue.trans ((hfallback.symm.trans hfinal.symm).trans (hdefault.symm.trans hsome))

/-- **Compilations put in are not noticed** as long as the default stands: every operation
of the run answers what it answers in the plain run; in the end the fragments, the
delimiter and the default are the same; every name with a value in the plain run has the
same value in the padded one; and a name with a value in the padded run alone has the
default that a put-in compilation found. -/
theorem padding_unnoticed (e : Engine) (calls : Padded) (h : e.DefaultStands calls) :
    let plain := e.run (own calls)
    let padded := e.run (performed calls)
    ownOutcomes calls padded.2 = plain.2 ∧
      padded.1.fragments = plain.1.fragments ∧ padded.1.delimiter = plain.1.delimiter ∧
      padded.1.fallback = plain.1.fallback ∧
      (∀ k v, plain.1.binding k = some v → padded.1.binding k = some v) ∧
      ∀ k v, plain.1.binding k = none → padded.1.binding k = some v →
        ∃ before after, calls = before ++ none :: after ∧
          (e.run (performed before)).1.fallback = some v := by
  intro plain padded
  obtain ⟨houtcomes, hahead, hfound⟩ := run_padded h
  refine ⟨houtcomes, hahead.fragments_eq, hahead.delimiter_eq, hahead.fallback_eq, ?_, hfound⟩
  intro k v hv
  rcases hahead.binding_eq k with heq | ⟨hnone, -⟩
  · exact heq.trans hv
  · exact absurd (hnone.symm.trans hv) (Option.some_ne_none v).symm

/-- The first compilation that is put in fails, since there is no default yet. The second
one finds a default and a delimiter with a token, which is gone when the run itself
compiles: the name of the token is bound in the padded run alone. -/
theorem padding_unnoticed_by_lost_delimiter :
    let e := ofFragments [['$', '{', 'a', '}'], ['$', '{', 'b', '}']]
    let calls : Padded := [none, some (.setFallback .inPlace ['x']),
      some (.setDelimiter .inPlace ['$', '{', 'd', '}']), none,
      some (.setDelimiter .inPlace [',']),
      some (.bindAll .inPlace [(['a'], ['y']), (['b'], ['$', '{', 'q', '}'])]), some .compile]
    e.DefaultStands calls ∧
      ownOutcomes calls (e.run (performed calls)).2 = (e.run (own calls)).2 ∧
      (e.run (own calls)).2 = [.ok none, .ok none, .ok none,
        .error (.unescapedValue ['$', '{', 'q', '}']), .ok (some ['y', ',', 'x'])] ∧
      (e.run (own calls)).1.binding ['d'] = none ∧
      (e.run (performed calls)).1.binding ['d'] = some ['x'] ∧
      ∃ before after, calls = before ++ none :: after ∧
        (e.run (performed before)).1.fallback = some ['x'] := by
  intro e calls
  have hstands : e.DefaultStands calls :=
    ⟨fun _ => by decide +kernel, nofun, nofun, fun _ => by decide +kernel, nofun, nofun, nofun,
      trivial⟩
  have hnone : (e.run (own calls)).1.binding ['d'] = none := by decide +kernel
  have hsome : (e.run (performed calls)).1.binding ['d'] = some ['x'] := by decide +kernel
  obtain ⟨houtcomes, -, -, -, -, hfound⟩ := padding_unnoticed e calls hstands
  exact ⟨hstands, houtcomes, by decide +kernel, hnone, hsome, hfound _ _ hnone hsome⟩

end Engine

end Stencil
