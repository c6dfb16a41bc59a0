import Mathlib.Tactic.TFAE
import Stencil.Proofs.Engine.Setting
import Stencil.Proofs.Text.Cut

/-!
# Inert texts

A value is let in if none of its tokens is unescaped. That is a matter of how the value is
written; what it is meant to buy is a matter of what the value does. This file shows the
two to be the same: the texts that are let in are those that ask no resolver for anything,
and those in which no resolver has a say (`Stencil.let_in_iff_inert`).

A resolver may have a memory, so that an answer depends on the questions before it. What it
is asked does not: a resolver that also keeps the names it is asked for
(`Stencil.recording`) writes the same text as without keeping them, and the names are those
of the unescaped tokens, in order (`Stencil.expandWith_recording`).

The way back is where the argument could fail. A text that asks must be shown to *depend*
on what it is told, and an answer might be what stood there anyway, or be made up for by the
answer to another token. So let each token be answered by plain text that is longer than the
token. Then no piece is written out shorter than it would be without an answer, and of two
rows of parts of which one is nowhere shorter than the other, the joins are equal only if
all parts are (`Stencil.flatMap_eq_flatMap_iff`).
-/

namespace Stencil

open Piece

/-! ### Resolvers that keep what they are asked -/

section Memory

variable {σ : Type} (resolve : σ → Text → Option Text × σ)

/-- A resolver with a memory that also keeps the names it is asked for, the last one first. -/
def recording : σ × List Text → Text → Option Text × (σ × List Text) := fun (m, asked) name =>
  ((resolve m name).1, ((resolve m name).2, name :: asked))

/-- The names that an expansion asks a resolver with a memory for, in the order in which it
asks. -/
def questions (m : σ) (s : Text) : List Text :=
  (expandWith (recording resolve) (m, []) s).2.2.reverse

/-- Pieces are expanded as without keeping the names, and the memory is the same. -/
theorem expandPieces_recording (m : σ) (asked : List Text) (ps : List Piece) :
    (expandPieces (recording resolve) (m, asked) ps).1 = (expandPieces resolve m ps).1 ∧
      (expandPieces (recording resolve) (m, asked) ps).2.1 = (expandPieces resolve m ps).2 := by
  induction ps generalizing m asked with
  | nil => exact ⟨rfl, rfl⟩
  | cons p ps ih =>
    cases hp : p.asks? with
    | none =>
      obtain ⟨hout, hmemory⟩ := ih m asked
      rw [expandPieces_cons_of_none _ hp, expandPieces_cons_of_none _ hp]
      exact ⟨congrArg (p.unescaped ++ ·) hout, hmemory⟩
    | some name =>
      obtain ⟨hout, hmemory⟩ := ih (resolve m name).2 (name :: asked)
      rw [expandPieces_cons_of_some _ hp, expandPieces_cons_of_some _ hp]
      exact ⟨congrArg (p.answered (resolve m name).1 ++ ·) hout, hmemory⟩

/-- **What a resolver is asked does not depend on its answers**, and keeping it changes
neither the text nor the memory. -/
theorem expandWith_recording (m : σ) (s : Text) :
    expandWith (recording resolve) (m, []) s =
      ((expandWith resolve m s).1, ((expandWith resolve m s).2, (askedNames s).reverse)) := by
  obtain ⟨hout, hmemory⟩ := expandPieces_recording resolve m [] (scan s)
  have hasked := expandPieces_asked (recording resolve) Prod.snd (fun _ _ => rfl) (m, []) (scan s)
  rw [List.append_nil] at hasked
  exact Prod.ext hout (Prod.ext hmemory hasked)

theorem questions_eq (m : σ) (s : Text) : questions resolve m s = askedNames s := by
  rw [questions, expandWith_recording, List.reverse_reverse]

/-- Pieces that ask for nothing leave the memory alone, and are written out as they are
unescaped. -/
theorem expandPieces_of_inert (m : σ) {ps : List Piece} (h : ∀ p ∈ ps, p.asks? = none) :
    expandPieces resolve m ps = (ps.flatMap unescaped, m) := by
  induction ps with
  | nil => rfl
  | cons p ps ih =>
    rw [List.forall_mem_cons] at h
    rw [expandPieces_cons_of_none resolve h.1, ih h.2, List.flatMap_cons]

/-- **No resolver has a say in an inert text**, with a memory or without. -/
theorem expandWith_of_inert {s : Text} (h : hasUnescapedToken s = false) (m : σ) :
    expandWith resolve m s = (unescape s, m) :=
  expandPieces_of_inert resolve m (hasUnescapedToken_eq_false_iff.mp h)

end Memory

/-- A plain resolver is one whose memory is never used. -/
theorem expandWith_plain (resolve : Text → Option Text) (s : Text) :
    expandWith (fun (m : Unit) name => (resolve name, m)) () s = (expand resolve s, ()) := by
  let plainly (m : Unit) (name : Text) := (resolve name, m)
  have hout : (expandWith plainly () s).1 = expand resolve s :=
    expandPieces_of_plain plainly (fun _ _ => rfl) () (scan s)
  exact Prod.ext hout rfl

/-! ### Answers that show -/

/-- Plain text that is longer than the token with a name. -/
def overlong (name : Text) : Text := List.replicate ((literal name).length + 1) 'x'

theorem unescape_overlong (name : Text) : unescape (overlong name) = overlong name := by
  refine unescape_of_plain (not_hasOpening_of_notMem fun h => ?_)
  exact absurd (List.eq_of_mem_replicate h) (by decide)

/-- The resolver that answers every name by more than the token that asks for it. -/
def outgrow (name : Text) : Option Text := some (overlong name)

/-- A token that is answered in this way is written out longer than without an answer. -/
theorem length_unescaped_lt {p : Piece} {name : Text} (h : p.asks? = some name) :
    p.unescaped.length < (expanded outgrow p).length := by
  obtain ⟨n, rfl, hn⟩ := asks?_eq_some_iff.mp h
  have hkept : (token name n).keptSlashes = n / 2 := by
    simp [keptSlashes, isEscaped, run, hn]
  have hanswer : outgrow name = some (overlong name) := rfl
  rw [expanded_token hn hanswer, unescape_overlong, unescaped, hkept, List.length_append,
    List.length_append, overlong, List.length_replicate]
  omega

/-- **A text that asks depends on the answers**: some resolver makes it something other than
the unescaped text. -/
theorem exists_expand_ne {s : Text} (h : hasUnescapedToken s = true) :
    ∃ resolve, expand resolve s ≠ unescape s := by
  obtain ⟨p, hp, hasks⟩ := List.any_eq_true.mp h
  obtain ⟨name, hname⟩ := Option.isSome_iff_exists.mp hasks
  refine ⟨outgrow, fun heq => ?_⟩
  have hlength : ∀ q ∈ scan s, q.unescaped.length ≤ (expanded outgrow q).length := by
    intro q _
    cases hq : q.asks? with
    | none => rw [expanded, hq, Option.bind_none, answered]
    | some k => exact Nat.le_of_lt (length_unescaped_lt hq)
  have hparts := (flatMap_eq_flatMap_iff hlength).mp heq.symm p hp
  exact absurd (congrArg List.length hparts) (Nat.ne_of_lt (length_unescaped_lt hname))

/-! ### What is let in -/

/-- **The texts that are let in are the inert ones.** That a text is let in as a value, that
it is let in as the default, that it asks no resolver for anything, and that every resolver
makes of it what unescaping makes of it, are one and the same; and of a text that is refused
some resolver, even one without a memory, makes something else. What any text asks any
resolver for are the names of its unescaped tokens, one by one and in their order, and the
text and the memory are as if nobody had kept them. -/
theorem let_in_iff_inert (e : Engine) (name v : Text) :
    List.TFAE [
      ∃ e', e.bind name v = .ok e',
      ∃ e', e.setFallback v = .ok e',
      ∀ (σ : Type) (resolve : σ → Text → Option Text × σ) (m : σ), questions resolve m v = [],
      ∀ (σ : Type) (resolve : σ → Text → Option Text × σ) (m : σ),
        (expandWith resolve m v).1 = unescape v,
      ∀ resolve, expand resolve v = unescape v] ∧
    ((¬ ∃ e', e.bind name v = .ok e') → ∃ resolve, expand resolve v ≠ unescape v) ∧
    ∀ (s : Text) (σ : Type) (resolve : σ → Text → Option Text × σ) (m : σ),
      questions resolve m s = (scan s).filterMap asks? ∧
        expandWith (recording resolve) (m, []) s = ((expandWith resolve m s).1,
          ((expandWith resolve m s).2, (questions resolve m s).reverse)) := by
  have hbind : (∃ e', e.bind name v = .ok e') ↔ hasUnescapedToken v = false := by
    simp only [Engine.bind_eq_ok_iff, exists_and_left, exists_eq, and_true]
  have hfallback : (∃ e', e.setFallback v = .ok e') ↔ hasUnescapedToken v = false := by
    simp only [Engine.setFallback_eq_ok_iff, exists_and_left, exists_eq, and_true]
  refine ⟨?_, ?_, ?_⟩
  · tfae_have 1 ↔ 2 := by rw [hbind, hfallback]
    tfae_have 1 ↔ 3 := by
      simp only [hbind, questions_eq, askedNames_eq_nil_iff]
      exact ⟨fun h _ _ _ => h, fun h => h Unit (fun m _ => (none, m)) ()⟩
    tfae_have 1 → 4 := by
      intro h σ resolve m
      rw [expandWith_of_inert resolve (hbind.mp h)]
    tfae_have 4 → 5 := by
      intro h resolve
      rw [← h Unit _ (), expandWith_plain]
    tfae_have 5 → 1 := by
      intro h
      rw [hbind, ← Bool.not_eq_true]
      intro hasks
      obtain ⟨resolve, hne⟩ := exists_expand_ne hasks
      exact hne (h resolve)
    tfae_finish
  · intro h
    rw [hbind, Bool.not_eq_false] at h
    exact exists_expand_ne h
  · intro s σ resolve m
    rw [questions_eq, expandWith_recording]
    exact ⟨rfl, rfl⟩

/-- The second token of the text is refused for its even run. A resolver that forgets nothing
and answers each name only once is asked for it, and not for the first. -/
theorem let_in_iff_inert_second_token :
    let e := Engine.ofFragments []
    let v : Text := ['\\', '$', '{', 'a', '}', '\\', '\\', '$', '{', 'b', '}']
    let once (seen : List Text) (name : Text) :=
      (if name ∈ seen then none else some name, name :: seen)
    (¬ ∃ e', e.bind ['x'] v = .ok e') ∧ (∃ resolve, expand resolve v ≠ unescape v) ∧
      questions once [] v = [['b']] := by
  intro e v once
  have hscan : scan v = [token ['a'] 1, token ['b'] 2] :=
    @scan_sources [token ['a'] 1, token ['b'] 2] (by decide)
  have hrefused : ¬ ∃ e', e.bind ['x'] v = .ok e' := by
    rintro ⟨e', hbind⟩
    have hinert := (Engine.bind_eq_ok_iff.mp hbind).1
    rw [hasUnescapedToken, hscan] at hinert
    exact absurd hinert (by decide)
  obtain ⟨-, hdiffers, hquestions⟩ := let_in_iff_inert e ['x'] v
  refine ⟨hrefused, hdiffers hrefused, ?_⟩
  rw [(hquestions v _ once []).1, hscan]
  rfl

end Stencil
