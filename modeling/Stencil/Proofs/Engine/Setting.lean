import Mathlib.Data.List.TakeWhile
import Stencil.Proofs.Engine.Compile

/-!
# Setting an engine up

Every operation that sets an engine up writes to it in the same way: it may set the
delimiter, it may set the default, and it puts some entries on top of the bindings.
What an operation writes can be read off the operation and its outcome
(`Stencil.Record`), without the engine it works on, because a value is refused for
what it is and not for where it goes.

Two facts carry the rest of the theory. An operation other than compiling leaves the
engine with what its record writes (`Stencil.Engine.step_eq_after`); and what a
record of a run writes is inert (`Stencil.Engine.inert_of_mem_writes`,
`Stencil.Engine.inert_of_fallback?`).
-/

namespace Stencil

/-! ### Entries that are refused -/

namespace Entries

/-- The entries in front of the first that is refused. -/
def accepted (es : Entries Text) : Entries Text := es.takeWhile fun e => !hasUnescapedToken e.2

/-- The first entry that is refused. -/
def refused? (es : Entries Text) : Option (Text × Text) := es.find? fun e => hasUnescapedToken e.2

theorem accepted_cons_of_inert {e : Text × Text} (h : hasUnescapedToken e.2 = false)
    (es : Entries Text) : accepted (e :: es) = e :: accepted es := by
  simp [accepted, h]

theorem accepted_cons_of_refused {e : Text × Text} (h : hasUnescapedToken e.2 = true)
    (es : Entries Text) : accepted (e :: es) = [] := by
  simp [accepted, h]

theorem refused?_cons_of_inert {e : Text × Text} (h : hasUnescapedToken e.2 = false)
    (es : Entries Text) : refused? (e :: es) = refused? es := by
  simp [refused?, h]

theorem refused?_cons_of_refused {e : Text × Text} (h : hasUnescapedToken e.2 = true)
    (es : Entries Text) : refused? (e :: es) = some e := by
  simp [refused?, h]

theorem inert_of_mem_accepted {es : Entries Text} {e : Text × Text} (h : e ∈ accepted es) :
    hasUnescapedToken e.2 = false := by
  simpa using List.mem_takeWhile_imp h

theorem refused?_eq_none_iff {es : Entries Text} :
    refused? es = none ↔ ∀ e ∈ es, hasUnescapedToken e.2 = false := by
  simp [refused?]

/-- If nothing is refused, everything is accepted. -/
theorem accepted_of_refused?_eq_none {es : Entries Text} (h : refused? es = none) :
    accepted es = es := by
  rw [accepted, List.takeWhile_eq_self_iff]
  intro e he
  rw [refused?_eq_none_iff.mp h e he]
  rfl

end Entries

namespace Engine

/-! ### Engines by their look-ups -/

/-- **Two engines are equal** if their parts are, and no look-up tells them apart. -/
theorem ext_binding {d e : Engine} (hfragments : d.fragments = e.fragments)
    (hdelimiter : d.delimiter = e.delimiter) (hfallback : d.fallback = e.fallback)
    (hbinding : ∀ k, d.binding k = e.binding k) : d = e := by
  have hbindings : d.bindings = e.bindings := Dict.ext_get? hbinding
  exact (Engine.mk.injEq ..).mpr ⟨hfragments, hdelimiter, hbindings, hfallback⟩

/-! ### One operation at a time -/

theorem bind_of_inert {e : Engine} {name value : Text} (h : hasUnescapedToken value = false) :
    e.bind name value = .ok { e with bindings := e.bindings.insert name value } := by
  rw [bind, h]
  rfl

theorem bind_of_refused {e : Engine} {name value : Text} (h : hasUnescapedToken value = true) :
    e.bind name value = .error (.unescapedValue value) := by
  rw [bind, h]
  rfl

theorem setFallback_of_inert {e : Engine} {value : Text} (h : hasUnescapedToken value = false) :
    e.setFallback value = .ok { e with fallback := some value } := by
  rw [setFallback, h]
  rfl

theorem setFallback_of_refused {e : Engine} {value : Text} (h : hasUnescapedToken value = true) :
    e.setFallback value = .error (.unescapedDefault value) := by
  rw [setFallback, h]
  rfl

/-- **Binding one after the other** binds the entries in front of the first that is
refused, and fails if there is one, with its value. -/
theorem bindEach_eq (e : Engine) (es : Entries Text) :
    e.bindEach es = ({ e with bindings := e.bindings.overlay es.accepted },
      match es.refused? with
      | none => .ok ()
      | some entry => .error (.unescapedValue entry.2)) := by
  induction es generalizing e with
  | nil => rfl
  | cons entry es ih =>
    obtain ⟨name, value⟩ := entry
    cases hvalue : hasUnescapedToken value with
    | false =>
      rw [bindEach, bind_of_inert hvalue, Entries.accepted_cons_of_inert hvalue,
        Entries.refused?_cons_of_inert hvalue]
      exact ih _
    | true =>
      rw [bindEach, bind_of_refused hvalue, Entries.accepted_cons_of_refused hvalue,
        Entries.refused?_cons_of_refused hvalue]
      rfl

/-- **Binding all or none.** -/
theorem bindAll_eq (e : Engine) (es : Entries Text) :
    e.bindAll es = match es.refused? with
      | none => .ok { e with bindings := e.bindings.overlay es }
      | some entry => .error (.unescapedValue entry.2) := by
  rw [bindAll, bindEach_eq]
  cases hes : es.refused? with
  | none => rw [Entries.accepted_of_refused?_eq_none hes]
  | some entry => rfl

theorem bind_eq_ok_iff {e e' : Engine} {name value : Text} :
    e.bind name value = .ok e' ↔ hasUnescapedToken value = false ∧
      e' = { e with bindings := e.bindings.insert name value } := by
  cases hvalue : hasUnescapedToken value with
  | false => simp [bind_of_inert hvalue, eq_comm]
  | true => simp [bind_of_refused hvalue]

theorem setFallback_eq_ok_iff {e e' : Engine} {value : Text} :
    e.setFallback value = .ok e' ↔ hasUnescapedToken value = false ∧
      e' = { e with fallback := some value } := by
  cases hvalue : hasUnescapedToken value with
  | false => simp [setFallback_of_inert hvalue, eq_comm]
  | true => simp [setFallback_of_refused hvalue]

theorem bindAll_eq_ok_iff {e e' : Engine} {es : Entries Text} :
    e.bindAll es = .ok e' ↔ (∀ entry ∈ es, hasUnescapedToken entry.2 = false) ∧
      e' = { e with bindings := e.bindings.overlay es } := by
  rw [bindAll_eq, ← Entries.refused?_eq_none_iff]
  cases es.refused? with
  | none => simp [eq_comm]
  | some entry => simp

end Engine

namespace Config

/-- The engine with what a configuration has in place of what the engine had. -/
def settle (c : Config) (e : Engine) : Engine :=
  { fragments := e.fragments
    delimiter := c.delimiter.getD e.delimiter
    bindings := e.bindings.overlay c.entries
    fallback := c.fallback.or e.fallback }

/-- A default with an unescaped token is refused first, whatever the bindings are. -/
theorem apply_of_refused {c : Config} {value : Text} (hdefault : c.fallback = some value)
    (hvalue : hasUnescapedToken value = true) (e : Engine) :
    c.apply e = .error (.unescapedDefault value) := by
  rw [apply, hdefault]
  simp only [Engine.setFallback_of_refused hvalue]
  rfl

/-- **A configuration whose default is not refused** binds its entries, all or none. -/
theorem apply_of_inert {c : Config}
    (hdefault : ∀ value, c.fallback = some value → hasUnescapedToken value = false) (e : Engine) :
    c.apply e = match c.entries.refused? with
      | none => .ok (c.settle e)
      | some entry => .error (.unescapedValue entry.2) := by
  obtain ⟨delimiter, fallback, bindings⟩ := c
  -- once the default is let in, only the bindings can fail
  cases fallback with
  | none => cases delimiter <;> exact Engine.bindAll_eq _ _
  | some value =>
    have hvalue := hdefault value rfl
    cases delimiter <;>
      · rw [apply]
        simp only [Engine.setFallback_of_inert hvalue]
        exact Engine.bindAll_eq _ _

theorem apply_eq_ok_iff {c : Config} {e e' : Engine} :
    c.apply e = .ok e' ↔
      (∀ value, c.fallback = some value → hasUnescapedToken value = false) ∧
        (∀ entry ∈ c.entries, hasUnescapedToken entry.2 = false) ∧ e' = c.settle e := by
  rcases Classical.em (∀ value, c.fallback = some value → hasUnescapedToken value = false) with
    hdefault | hdefault
  · rw [apply_of_inert hdefault, ← Entries.refused?_eq_none_iff]
    cases c.entries.refused? with
    | none =>
      exact ⟨fun h => ⟨hdefault, rfl, (Except.ok.inj h).symm⟩, fun h => congrArg _ h.2.2.symm⟩
    | some entry => simp
  · obtain ⟨value, hvalue⟩ := not_forall.mp hdefault
    rw [Classical.not_imp, Bool.not_eq_false] at hvalue
    rw [apply_of_refused hvalue.1 hvalue.2]
    exact ⟨nofun, fun h => absurd h.1 hdefault⟩

end Config

/-! ### Records -/

/-- An operation with its outcome. -/
structure Record where
  /-- What was done. -/
  operation : Operation
  /-- What it answered. -/
  outcome : Outcome

namespace Record

/-- The delimiter that was set. -/
def delimiter? : Record → Option Text
  | ⟨.setDelimiter _ delimiter, _⟩ => some delimiter
  | ⟨.configure config, .ok _⟩ => config.delimiter
  | _ => none

/-- The default that was set, and not refused. -/
def fallback? : Record → Option Text
  | ⟨.setFallback _ value, .ok _⟩ => some value
  | ⟨.configure config, .ok _⟩ => config.fallback
  | _ => none

/-- The entries that were bound, first one first: those of an operation that
succeeded, and those in front of the first that was refused if they were bound in
place. -/
def writes : Record → Entries Text
  | ⟨.bind _ name value, .ok _⟩ => [(name, value)]
  | ⟨.bindAll .inPlace entries, _⟩ => entries.accepted
  | ⟨.bindAll .consuming entries, .ok _⟩ => entries
  | ⟨.configure config, .ok _⟩ => config.entries
  | _ => []

/-- A text was compiled. -/
def compiled : Record → Bool
  | ⟨.compile, .ok _⟩ => true
  | _ => false

end Record

namespace Engine

/-- The engine with what a record writes. -/
def after (e : Engine) (r : Record) : Engine :=
  { fragments := e.fragments
    delimiter := r.delimiter?.getD e.delimiter
    bindings := e.bindings.overlay r.writes
    fallback := r.fallback?.or e.fallback }

/-- What a record writes lies on top of what was there. -/
theorem binding_after (e : Engine) (r : Record) (k : Text) :
    (e.after r).binding k = (Entries.get? r.writes.reverse k).or (e.binding k) :=
  Dict.get?_overlay _ _ _

/-- A name that a record does not write keeps its value. -/
theorem binding_after_of_notMem {e : Engine} {r : Record} {k : Text}
    (h : ∀ entry ∈ r.writes, entry.1 ≠ k) : (e.after r).binding k = e.binding k :=
  Dict.get?_overlay_of_notMem h e.bindings

/-- The record of an operation on an engine. -/
def record (e : Engine) (op : Operation) : Record := ⟨op, (e.step op).2⟩

/-- **An operation other than compiling writes what its record says**, and nothing else. -/
theorem step_eq_after (e : Engine) {op : Operation} (hop : op ≠ .compile) :
    (e.step op).1 = e.after (e.record op) := by
  cases op with
  | setDelimiter form delimiter => rfl
  | bind form name value =>
    simp only [record, step]
    cases hbind : e.bind name value with
    | ok e' =>
      obtain ⟨-, rfl⟩ := bind_eq_ok_iff.mp hbind
      rfl
    | error fault => rfl
  | bindAll form entries =>
    cases form with
    | inPlace =>
      simp only [record, step, bindEach_eq]
      rfl
    | consuming =>
      simp only [record, step]
      cases hbind : e.bindAll entries with
      | ok e' =>
        obtain ⟨-, rfl⟩ := bindAll_eq_ok_iff.mp hbind
        rfl
      | error fault => rfl
  | setFallback form value =>
    simp only [record, step]
    cases hset : e.setFallback value with
    | ok e' =>
      obtain ⟨-, rfl⟩ := setFallback_eq_ok_iff.mp hset
      rfl
    | error fault => rfl
  | configure config =>
    simp only [record, step]
    cases happly : config.apply e with
    | ok e' =>
      obtain ⟨-, -, rfl⟩ := Config.apply_eq_ok_iff.mp happly
      rfl
    | error fault => rfl
  | compile => exact absurd rfl hop

/-- **An operation other than compiling answers the same on every engine.** -/
theorem record_congr (e d : Engine) {op : Operation} (hop : op ≠ .compile) :
    d.record op = e.record op := by
  refine congrArg (Record.mk op) ?_
  cases op with
  | setDelimiter form delimiter => rfl
  | bind form name value =>
    cases hvalue : hasUnescapedToken value with
    | false => simp only [step, bind_of_inert hvalue, commit]
    | true => simp only [step, bind_of_refused hvalue, commit]
  | bindAll form entries =>
    cases form with
    | inPlace => simp only [step, bindEach_eq]
    | consuming =>
      simp only [step, bindAll_eq]
      cases entries.refused? <;> rfl
  | setFallback form value =>
    cases hvalue : hasUnescapedToken value with
    | false => simp only [step, setFallback_of_inert hvalue, commit]
    | true => simp only [step, setFallback_of_refused hvalue, commit]
  | configure config =>
    by_cases hdefault : ∀ value, config.fallback = some value → hasUnescapedToken value = false
    · simp only [step, Config.apply_of_inert hdefault]
      cases config.entries.refused? <;> rfl
    · obtain ⟨value, hvalue⟩ := not_forall.mp hdefault
      rw [Classical.not_imp, Bool.not_eq_false] at hvalue
      simp only [step, Config.apply_of_refused hvalue.1 hvalue.2, commit]
  | compile => exact absurd rfl hop

/-- **Compiling leaves the filled engine if it succeeds**, and the engine as it is if
it fails. -/
theorem step_compile (e : Engine) :
    (e.step .compile).1 = if (e.record .compile).compiled then e.filled else e := by
  rcases Classical.em e.Ready with h | h
  · simp only [record, step, compile_of_ready h]
    rfl
  · simp only [record, step, compile_of_not_ready h]
    rfl

/-- Compiling leaves the default alone. -/
theorem fallback_step_compile (e : Engine) : (e.step .compile).1.fallback = e.fallback := by
  rw [step_compile]
  split
  · exact fallback_filled e
  · rfl

theorem compiled_record_iff {e : Engine} {op : Operation} :
    (e.record op).compiled = true ↔ op = .compile ∧ e.Ready := by
  cases op with
  | compile =>
    rcases Classical.em e.Ready with h | h
    · simp [record, step, compile_of_ready h, h, Record.compiled]
    · simp [record, step, compile_of_not_ready h, h, Record.compiled]
  | _ => simp [record, Record.compiled]

/-! ### What is written is inert -/

/-- **Every door checks**: an entry that an operation binds has no unescaped token. -/
theorem inert_of_mem_writes {e : Engine} {op : Operation} {entry : Text × Text}
    (h : entry ∈ (e.record op).writes) : hasUnescapedToken entry.2 = false := by
  cases op with
  | bind form name value =>
    simp only [record, step] at h
    cases hbind : e.bind name value with
    | ok e' =>
      rw [hbind] at h
      obtain rfl : entry = (name, value) := List.mem_singleton.mp h
      exact (bind_eq_ok_iff.mp hbind).1
    | error fault =>
      rw [hbind] at h
      cases h
  | bindAll form entries =>
    cases form with
    -- the operation may have failed, but what it bound stands in front of what it refused
    | inPlace => exact Entries.inert_of_mem_accepted h
    | consuming =>
      simp only [record, step] at h
      cases hbind : e.bindAll entries with
      | ok e' =>
        rw [hbind] at h
        exact (bindAll_eq_ok_iff.mp hbind).1 entry h
      | error fault =>
        rw [hbind] at h
        cases h
  | configure config =>
    simp only [record, step] at h
    cases happly : config.apply e with
    | ok e' =>
      rw [happly] at h
      exact (Config.apply_eq_ok_iff.mp happly).2.1 entry h
    | error fault =>
      rw [happly] at h
      cases h
  | _ => cases h

/-- **Every door checks**: a default that an operation sets has no unescaped token. -/
theorem inert_of_fallback? {e : Engine} {op : Operation} {value : Text}
    (h : (e.record op).fallback? = some value) : hasUnescapedToken value = false := by
  cases op with
  | setFallback form value' =>
    simp only [record, step] at h
    cases hset : e.setFallback value' with
    | ok e' =>
      rw [hset] at h
      obtain rfl : value' = value := Option.some_inj.mp h
      exact (setFallback_eq_ok_iff.mp hset).1
    | error fault =>
      rw [hset] at h
      cases h
  | configure config =>
    simp only [record, step] at h
    cases happly : config.apply e with
    | ok e' =>
      rw [happly] at h
      exact (Config.apply_eq_ok_iff.mp happly).1 value h
    | error fault =>
      rw [happly] at h
      cases h
  | _ => cases h

end Engine

end Stencil
