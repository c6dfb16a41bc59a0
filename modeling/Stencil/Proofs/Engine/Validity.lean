import Stencil.Proofs.Engine.Summary

/-!
# What an engine inserts is inert

A value may enter an engine by five doors: bound alone, bound with others, set as
the default, read from a configuration, and written by compiling, which copies the
default. Each of the first four refuses a text with an unescaped token, and the
last copies a text that one of them let in. So no engine that operations can reach
holds such a text (`Stencil.Engine.Valid`), not even after a failure.

What that buys is seen where a value is inserted. Unescaping an inert value asks for
nothing, so the names that compiling looks up are the names of the unescaped tokens
of the joined text, and no others. The inserted text may have tokens: each is an
escaped token of the value that lost one backslash, and stands behind an even run.
It would ask if the text were looked through once more, and that does not happen
(`Stencil.Engine.valid_run`).
-/

namespace Stencil

open Piece

namespace Engine

/-- **No stored text has an unescaped token.** -/
structure Valid (e : Engine) : Prop where
  /-- No value that is bound has one. -/
  binding : ∀ k v, e.binding k = some v → hasUnescapedToken v = false
  /-- The default has none. -/
  fallback : ∀ v, e.fallback = some v → hasUnescapedToken v = false

theorem valid_ofFragments (fragments : List Text) : (ofFragments fragments).Valid :=
  ⟨nofun, nofun⟩

/-! ### The invariant, step by step -/

/-- Inert texts may be written. -/
theorem Valid.after {e : Engine} (h : e.Valid) {r : Record}
    (hwrites : ∀ entry ∈ r.writes, hasUnescapedToken entry.2 = false)
    (hfallback : ∀ v, r.fallback? = some v → hasUnescapedToken v = false) : (e.after r).Valid := by
  refine ⟨fun k v hv => ?_, fun v hv => ?_⟩
  · rw [binding_after, Option.or_eq_some_iff] at hv
    rcases hv with hwritten | ⟨-, hold⟩
    · exact hwrites (k, v) (List.mem_reverse.mp (Entries.mem_of_get?_eq_some hwritten))
    · exact h.binding k v hold
  · have hor : r.fallback?.or e.fallback = some v := hv
    rw [Option.or_eq_some_iff] at hor
    rcases hor with hnew | ⟨-, hold⟩
    · exact hfallback v hnew
    · exact h.fallback v hold

/-- Compiling copies the default, which is inert. -/
theorem Valid.filled {e : Engine} (h : e.Valid) : e.filled.Valid := by
  refine ⟨fun k v hv => ?_, fun v hv => ?_⟩
  · rw [binding_filled] at hv
    split at hv
    · exact h.fallback v hv
    · exact h.binding k v hv
  · rw [fallback_filled] at hv
    exact h.fallback v hv

/-- **One operation**, successful or not, lets no unescaped token in. -/
theorem Valid.step {e : Engine} (h : e.Valid) (op : Operation) : (e.step op).1.Valid := by
  rcases eq_or_ne op .compile with rfl | hop
  · rw [step_compile]
    split
    · exact h.filled
    · exact h
  · rw [step_eq_after e hop]
    exact h.after (fun entry => inert_of_mem_writes) fun v => inert_of_fallback?

/-- **A run** lets no unescaped token in. -/
theorem Valid.run {e : Engine} (h : e.Valid) (ops : List Operation) : (e.run ops).1.Valid := by
  induction ops generalizing e with
  | nil => exact h
  | cons op ops ih =>
    rw [run_cons_fst]
    exact ih (h.step op)

/-! ### What is inserted -/

/-- **A value that is inserted quietly.** -/
structure Inserted (v : Text) : Prop where
  /-- Expanding the value is unescaping it, and asks the resolver for nothing. -/
  quiet : ∀ resolve, expandRecorded resolve v = (unescape v, [])
  /-- Every token of the inserted text stands behind an even run. -/
  even : ∀ name n, token name n ∈ scan (unescape v) → n % 2 = 0

theorem inserted_of_inert {v : Text} (h : hasUnescapedToken v = false) : Inserted v := by
  refine ⟨fun resolve => ?_, fun name n hp => even_run_of_mem_scan_unescape h hp⟩
  rw [expandRecorded_eq, expand_of_inert h, askedNames_eq_nil_iff.mpr h]

/-- **No stored text has an unescaped token**, whatever operations were done, and
whether they succeeded or failed. So when such an engine compiles, each piece of the
joined text is written out with the values of the engine that is left; the names
that are looked up are those of the unescaped tokens of the joined text, in order;
and each of them has a value that is inserted quietly. -/
theorem valid_run (fragments : List Text) (ops : List Operation) :
    let e := ((ofFragments fragments).run ops).1
    e.Valid ∧ ∀ out e', e.compile = .ok (out, e') →
      expandRecorded e'.binding e.composed = (out, askedNames e.composed) ∧
      (∃ outs, List.Forall₂ (Writes e'.binding) (scan e.composed) outs ∧ out = outs.flatten) ∧
      ∀ name ∈ askedNames e.composed, ∃ v, e'.binding name = some v ∧ Inserted v := by
  have hvalid := (valid_ofFragments fragments).run ops
  refine ⟨hvalid, fun out e' hcompile => ?_⟩
  obtain ⟨hready, rfl, rfl⟩ := compile_eq_ok_iff.mp hcompile
  refine ⟨?_, hready.compilesTo.written, fun name hname => ?_⟩
  -- the text is written out with the values of the engine that is left
  · rw [expandRecorded_eq, rendered, composed_filled]
  · obtain ⟨p, hp, hasks⟩ := List.mem_filterMap.mp hname
    obtain ⟨n, rfl, -⟩ := asks?_eq_some_iff.mp hasks
    obtain ⟨v, hv⟩ := hready.exists_binding_filled (mem_names_iff.mpr ⟨n, hp⟩)
    exact ⟨v, hv, inserted_of_inert (hvalid.filled.binding name v hv)⟩

/-- After a default with an escaped token and a value that is refused, compiling
turns the token into a token of another name, which is not looked up. -/
theorem valid_run_escaped_default :
    let e : Engine := ⟨[['$', '{', 'a', '}']], ['\n'], ∅, some ['\\', '$', '{', 'b', '}']⟩
    ((ofFragments [['$', '{', 'a', '}']]).run
        [.setFallback .inPlace ['\\', '$', '{', 'b', '}'],
          .bind .consuming ['a'] ['$', '{', 'c', '}']]).1 = e ∧
      e.Valid ∧ e.compile = .ok (['$', '{', 'b', '}'], e.filled) ∧
      expandRecorded e.filled.binding e.composed = (['$', '{', 'b', '}'], [['a']]) := by
  intro e
  have hfragment : scan ['$', '{', 'a', '}'] = [token ['a'] 0] :=
    @scan_sources [token ['a'] 0] (by decide)
  have hdefault : scan ['\\', '$', '{', 'b', '}'] = [token ['b'] 1] :=
    @scan_sources [token ['b'] 1] (by decide)
  have hvalue : scan ['$', '{', 'c', '}'] = [token ['c'] 0] :=
    @scan_sources [token ['c'] 0] (by decide)
  have hinert : hasUnescapedToken ['\\', '$', '{', 'b', '}'] = false := by
    rw [hasUnescapedToken, hdefault]
    rfl
  have hrefused : hasUnescapedToken ['$', '{', 'c', '}'] = true := by
    rw [hasUnescapedToken, hvalue]
    rfl
  have hrun : ((ofFragments [['$', '{', 'a', '}']]).run
      [.setFallback .inPlace ['\\', '$', '{', 'b', '}'],
        .bind .consuming ['a'] ['$', '{', 'c', '}']]).1 = e := by
    simp only [run, step, setFallback_of_inert hinert, commit, bind_of_refused hrefused]
    rfl
  have hcomposed : e.composed = ['$', '{', 'a', '}'] := rfl
  have hrendered : e.filled.rendered = ['$', '{', 'b', '}'] := by
    have hunbound : ['a'] ∈ e.unbound := by
      rw [mem_unbound_iff, mem_names_iff, hcomposed, hfragment]
      exact ⟨⟨0, List.mem_cons_self⟩, rfl⟩
    have hbinding : e.filled.binding ['a'] = some ['\\', '$', '{', 'b', '}'] := by
      rw [binding_filled, if_pos hunbound]
    have hunescape : unescape ['\\', '$', '{', 'b', '}'] = ['$', '{', 'b', '}'] := by
      rw [unescape, hdefault]
      rfl
    rw [rendered, composed_filled, hcomposed, expand, hfragment, List.flatMap_singleton]
    have hasks : (token ['a'] 0).asks? = some ['a'] := rfl
    rw [expanded, hasks, Option.bind_some, hbinding, answered, hunescape]
    rfl
  have hasked : askedNames e.composed = [['a']] := by
    rw [hcomposed, askedNames, hfragment]
    rfl
  have hcompile : e.compile = .ok (['$', '{', 'b', '}'], e.filled) := by
    rw [← hrendered]
    exact compile_of_ready (Or.inr (Option.some_ne_none _))
  have hvalid := valid_run [['$', '{', 'a', '}']]
    [.setFallback .inPlace ['\\', '$', '{', 'b', '}'],
      .bind .consuming ['a'] ['$', '{', 'c', '}']]
  rw [hrun] at hvalid
  refine ⟨hrun, hvalid.1, hcompile, ?_⟩
  rw [(hvalid.2 _ _ hcompile).1, hasked]

end Engine

end Stencil
