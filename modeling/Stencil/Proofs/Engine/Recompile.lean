import Stencil.Proofs.Engine.Summary

/-!
# Compiling again

Compiling looks like reading, but it may bind names. The first time it does so on
a text, it leaves an engine in which every name of the text has a value, and the
values are those the text was written out with. From then on nothing is left to
be filled in: compiling again writes the same text and leaves the engine as it is
(`Stencil.Engine.Settled`).

An operation can only disturb this by setting the delimiter or by binding one of the
names. Setting another default does not: a default is for names without a value,
and the text has none (`Stencil.Engine.Settled.run`).

A default has a lasting effect of its own. It can be replaced, and never taken
away, so once there is one, compiling does not fail any more, whatever the text
becomes (`Stencil.Engine.exists_outcome_of_fallback`).
-/

namespace Stencil

namespace Engine

/-! ### Texts that depend on the values of their names -/

/-- Engines with the same joined text and the same values for its names write the
same text. -/
theorem rendered_congr {e d : Engine} (hcomposed : d.composed = e.composed)
    (hbinding : ∀ k ∈ e.names, d.binding k = e.binding k) : d.rendered = e.rendered := by
  rw [rendered, rendered, hcomposed]
  exact expand_congr fun k hk => hbinding k (mem_tokenNames_of_mem_askedNames hk)

/-! ### Settled engines -/

/-- **Nothing is left to be filled in**: the joined text is `s`, every name in it has
a value, and with these values it is written out as `t`. -/
structure Settled (e : Engine) (s t : Text) : Prop where
  /-- The joined text. -/
  composed_eq : e.composed = s
  /-- No name lacks a value. -/
  unbound_eq : e.unbound = []
  /-- The text that is written. -/
  rendered_eq : e.rendered = t

/-- **A successful compilation leaves a settled engine**, with the text that it wrote. -/
theorem settled_of_compile {e e' : Engine} {t : Text} (h : e.compile = .ok (t, e')) :
    e'.Settled e.composed t := by
  obtain ⟨hready, rfl, rfl⟩ := compile_eq_ok_iff.mp h
  refine ⟨composed_filled e, ?_, rfl⟩
  rw [unbound_eq_nil_iff, names, composed_filled]
  intro k hk
  obtain ⟨v, hv⟩ := hready.exists_binding_filled hk
  exact Option.ne_none_iff_exists'.mpr ⟨v, hv⟩

section Settled

variable {e : Engine} {s t : Text}

theorem Settled.compile_eq (h : e.Settled s t) : e.compile = .ok (t, e) :=
  compile_eq_ok_iff.mpr
    ⟨Or.inl h.unbound_eq, (filled_of_unbound_eq_nil h.unbound_eq).symm, by
      rw [filled_of_unbound_eq_nil h.unbound_eq, h.rendered_eq]⟩

/-- Compiling a settled engine changes nothing. -/
theorem Settled.step_compile_eq (h : e.Settled s t) : e.step .compile = (e, .ok (some t)) := by
  rw [step, h.compile_eq]

/-- What is written under other names, and what is set as a default, leaves an engine
settled. -/
theorem Settled.after (h : e.Settled s t) {r : Record} (hdelimiter : r.delimiter? = none)
    (hwrites : ∀ entry ∈ r.writes, entry.1 ∉ tokenNames s) : (e.after r).Settled s t := by
  have hcomposed : (e.after r).composed = e.composed := by
    rw [composed, composed, Engine.after, hdelimiter, Option.getD_none]
  have hbinding (k : Text) (hk : k ∈ e.names) : (e.after r).binding k = e.binding k := by
    refine binding_after_of_notMem fun entry hentry hkey => hwrites entry hentry ?_
    rw [hkey, ← h.composed_eq]
    exact hk
  refine ⟨hcomposed.trans h.composed_eq, ?_, ?_⟩
  · rw [unbound_eq_nil_iff, names, hcomposed]
    intro k hk
    rw [hbinding k hk]
    exact unbound_eq_nil_iff.mp h.unbound_eq k hk
  · rw [rendered_congr hcomposed hbinding, h.rendered_eq]

/-- **One operation** that sets no delimiter and binds none of the names leaves an
engine settled. -/
theorem Settled.step (h : e.Settled s t) {op : Operation}
    (hdelimiter : (e.record op).delimiter? = none)
    (hwrites : ∀ entry ∈ (e.record op).writes, entry.1 ∉ tokenNames s) :
    (e.step op).1.Settled s t := by
  rcases eq_or_ne op .compile with rfl | hop
  · rw [h.step_compile_eq]
    exact h
  · rw [step_eq_after e hop]
    exact h.after hdelimiter hwrites

/-- **A run** of such operations writes the text whenever it compiles. -/
theorem Settled.run (h : e.Settled s t) {ops : List Operation}
    (hkeep : ∀ r ∈ e.history ops,
      r.delimiter? = none ∧ ∀ entry ∈ r.writes, entry.1 ∉ tokenNames s) :
    ∀ r ∈ e.history ops, r.operation = .compile → r.outcome = .ok (some t) := by
  induction ops generalizing e with
  | nil => exact nofun
  | cons op ops ih =>
    rw [history_cons, List.forall_mem_cons] at hkeep ⊢
    obtain ⟨⟨hdelimiter, hwrites⟩, hkeep⟩ := hkeep
    refine ⟨?_, ih (h.step hdelimiter hwrites) hkeep⟩
    rintro rfl
    rw [record, h.step_compile_eq]

/-- Compiling a settled engine any number of times leaves it as it is. -/
theorem Settled.run_compile (h : e.Settled s t) {ops : List Operation}
    (hops : ∀ op ∈ ops, op = .compile) : (e.run ops).1 = e := by
  induction ops with
  | nil => rfl
  | cons op ops ih =>
    obtain ⟨rfl, hrest⟩ := List.forall_mem_cons.mp hops
    rw [run_cons_fst, h.step_compile_eq]
    exact ih hrest

end Settled

/-! ### A default stays -/

/-- No operation takes the default away. -/
theorem fallback_step_ne_none {e : Engine} (h : e.fallback ≠ none) (op : Operation) :
    (e.step op).1.fallback ≠ none := by
  rcases eq_or_ne op .compile with rfl | hop
  · rwa [fallback_step_compile]
  · rw [step_eq_after e hop]
    exact fun hor => h (Option.or_eq_none_iff.mp hor).2

/-- An operation that sets a default leaves one. -/
theorem fallback_step_of_record {e : Engine} {op : Operation}
    (h : (e.record op).fallback? ≠ none) : (e.step op).1.fallback ≠ none := by
  have hop : op ≠ .compile := by
    rintro rfl
    exact h rfl
  rw [step_eq_after e hop]
  exact fun hor => h (Option.or_eq_none_iff.mp hor).1

/-- **With a default, compiling never fails**, whatever is done in between. -/
theorem exists_outcome_of_fallback {e : Engine} (h : e.fallback ≠ none) (ops : List Operation) :
    ∀ r ∈ e.history ops, r.operation = .compile → ∃ t, r.outcome = .ok (some t) := by
  induction ops generalizing e with
  | nil => exact nofun
  | cons op ops ih =>
    rw [history_cons, List.forall_mem_cons]
    refine ⟨?_, ih (fallback_step_ne_none h op)⟩
    rintro rfl
    refine ⟨e.filled.rendered, ?_⟩
    rw [record, step, compile_of_ready (Or.inr h)]

/-- In a run, no compilation behind the setting of a default fails. -/
theorem exists_outcome_of_record {e : Engine} {ops : List Operation} {before later : History}
    {r : Record} (hhistory : e.history ops = before ++ r :: later) (hset : r.fallback? ≠ none) :
    ∀ r' ∈ later, r'.operation = .compile → ∃ t, r'.outcome = .ok (some t) := by
  induction ops generalizing e before with
  | nil =>
    rw [show e.history [] = [] from rfl] at hhistory
    exact absurd hhistory.symm (List.append_ne_nil_of_right_ne_nil _ (List.cons_ne_nil r later))
  | cons op ops ih =>
    rw [history_cons] at hhistory
    cases before with
    | nil =>
      obtain ⟨rfl, rfl⟩ := List.cons.inj hhistory
      exact exists_outcome_of_fallback (fallback_step_of_record hset) ops
    | cons b before => exact ih (List.cons.inj hhistory).2

/-! ### The text stays -/

/-- **A compiled text stays.** After a compilation that wrote `t`, and as long as no
delimiter is set and no name of the joined text is bound, every compilation writes `t`
again, whatever defaults are set, whatever is refused and whatever other names are
bound; and compilations alone leave the engine as it is. And in any run, once a default
is set, no later compilation fails. -/
theorem compiled_text_stays :
    (∀ (e e' : Engine) (t : Text), e.compile = .ok (t, e') → ∀ ops : List Operation,
      ((∀ r ∈ e'.history ops, r.delimiter? = none ∧ ∀ entry ∈ r.writes, entry.1 ∉ e.names) →
        ∀ r ∈ e'.history ops, r.operation = .compile → r.outcome = .ok (some t)) ∧
      ((∀ op ∈ ops, op = .compile) → (e'.run ops).1 = e')) ∧
    ∀ (e : Engine) (ops : List Operation) (before later : History) (r : Record),
      e.history ops = before ++ r :: later → r.fallback? ≠ none →
        ∀ r' ∈ later, r'.operation = .compile → ∃ t, r'.outcome = .ok (some t) := by
  refine ⟨fun e e' t hcompile ops => ?_, fun e ops before later r => exists_outcome_of_record⟩
  have hsettled := settled_of_compile hcompile
  exact ⟨hsettled.run, hsettled.run_compile⟩

/-- The default was given to an escaped name and to one that is not. Another default, and
a list of bindings that stops at a refused value in front of one of the names, leave the
text as it was. -/
theorem compiled_text_stays_under_another_default :
    let e : Engine := ⟨[['$', '{', 'a', '}', '\\', '$', '{', 'b', '}']], ['\n'], ∅, some ['x']⟩
    let set : Operation := .setFallback .inPlace ['y']
    let ops : List Operation :=
      [.bindAll .inPlace [(['c'], ['z']), (['d'], ['$', '{', 'q', '}']), (['a'], ['w'])], .compile]
    e.compile = .ok (['x', '$', '{', 'b', '}'], e.filled) ∧
      (∀ r ∈ e.filled.history (set :: ops),
        r.delimiter? = none ∧ ∀ entry ∈ r.writes, entry.1 ∉ e.names) ∧
      (∀ r ∈ e.filled.history (set :: ops),
        r.operation = .compile → r.outcome = .ok (some ['x', '$', '{', 'b', '}'])) ∧
      (e.filled.run [.compile, .compile]).1 = e.filled ∧
      ∀ r ∈ (e.filled.step set).1.history ops,
        r.operation = .compile → ∃ t, r.outcome = .ok (some t) := by
  intro e set ops
  have hcompile : e.compile = .ok (['x', '$', '{', 'b', '}'], e.filled) := by decide +kernel
  have hkeep : ∀ r ∈ e.filled.history (set :: ops),
      r.delimiter? = none ∧ ∀ entry ∈ r.writes, entry.1 ∉ e.names := by decide +kernel
  have hset : (e.filled.record set).fallback? ≠ none := by decide +kernel
  exact ⟨hcompile, hkeep, (compiled_text_stays.1 e _ _ hcompile _).1 hkeep,
    (compiled_text_stays.1 e _ _ hcompile _).2 (by simp),
    compiled_text_stays.2 e.filled (set :: ops) [] _ _ rfl hset⟩

end Engine

end Stencil
