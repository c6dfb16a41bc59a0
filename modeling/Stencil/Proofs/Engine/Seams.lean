import Stencil.Proofs.Engine.Compile

/-!
# Tokens at the seams

Take a text whose tokens all have values, with nothing escaped and no opener left open,
and let no value have an opener in it. Nothing that is inserted has a token then, and
neither has the plain text around it. Has the whole?

It may. The parts that are written out stand side by side, and where two of them meet a
dollar sign may come to stand in front of a brace: the text `$${x}` with the value `{x}`
is written out as `${x}` (`Stencil.Engine.compile_leaves_token`). What is written is not
looked through again, so this token stays.

This is the only way (`Stencil.exists_seam`): a part has no opener of its own, so each
opener in the whole has its dollar sign at the end of one part and its brace at the start
of a later one. Hence the output has a token exactly where a seam makes one, with the same
text in front of it and behind it, and no opener at all if no value is empty, begins with a
brace or ends in a dollar sign (`Stencil.Engine.token_iff_seam`).
-/

namespace Stencil

open Piece

/-! ### Openers in a row of parts -/

/-- **An opener in a row of parts without openers lies at a seam**: the dollar sign ends
the parts in front of the seam, and the brace starts those behind it. -/
theorem exists_seam {α : Type} {f : α → Text} {ps : List α} {a b : Text}
    (hparts : ∀ p ∈ ps, ¬ HasOpening (f p)) (h : ps.flatMap f = a ++ (opening ++ b)) :
    ∃ qs rs, ps = qs ++ rs ∧ qs.flatMap f = a ++ ['$'] ∧ rs.flatMap f = '{' :: b := by
  induction ps generalizing a with
  | nil => exact absurd h.symm (by simp [opening])
  | cons p ps ih =>
    have hp : ¬ HasOpening (f p) := hparts p List.mem_cons_self
    have hcut : f p ++ ps.flatMap f = (a ++ ['$']) ++ '{' :: b := by
      rw [← List.flatMap_cons, h]
      simp [opening]
    rcases List.append_eq_append_iff.mp hcut with ⟨c, hfront, hback⟩ | ⟨c, hfront, hback⟩
    · -- the first part ends in front of the brace
      rcases List.eq_nil_or_concat c with rfl | ⟨c, d, rfl⟩
      · exact ⟨[p], ps, rfl, by simpa using hfront.symm, hback⟩
      · rw [List.concat_eq_append, ← List.append_assoc] at hfront
        obtain ⟨rfl, hd⟩ := List.append_inj' hfront rfl
        obtain rfl : '$' = d := by simpa using hd
        obtain ⟨qs, rs, rfl, hqs, hrs⟩ :=
          ih (fun q hq => hparts q (List.mem_cons_of_mem p hq)) (a := c)
            (by simpa [opening] using hback)
        exact ⟨p :: qs, rs, rfl, by rw [List.flatMap_cons, hqs, List.append_assoc], hrs⟩
    · -- the brace is in the first part, and so would be the dollar sign
      cases c with
      | nil => exact ⟨[p], ps, rfl, by simpa using hfront, by simpa using hback.symm⟩
      | cons d c =>
        obtain ⟨rfl, -⟩ := List.cons.inj hback
        exact absurd ⟨a, c, by simpa [opening] using hfront.symm⟩ hp

/-- The places of an opener in the row are the seams that make one. -/
theorem flatMap_eq_append_opening_iff {α : Type} {f : α → Text} {ps : List α} {a b : Text}
    (hparts : ∀ p ∈ ps, ¬ HasOpening (f p)) :
    ps.flatMap f = a ++ (opening ++ b) ↔
      ∃ qs rs, ps = qs ++ rs ∧ qs.flatMap f = a ++ ['$'] ∧ rs.flatMap f = '{' :: b := by
  constructor
  · exact exists_seam hparts
  · rintro ⟨qs, rs, rfl, hqs, hrs⟩
    rw [List.flatMap_append, hqs, hrs]
    simp [opening]

/-! ### What the pieces become -/

namespace Piece

/-- Plain text, or a token that is not escaped. -/
def IsBare : Piece → Prop
  | text _ => True
  | token _ n => n % 2 = 0
  | opener _ => False

instance : DecidablePred IsBare
  | text _ => inferInstanceAs (Decidable True)
  | token _ n => inferInstanceAs (Decidable (n % 2 = 0))
  | opener _ => inferInstanceAs (Decidable False)

end Piece

/-- **A solid value** is not empty, starts with no brace and ends in no dollar sign. -/
structure Text.IsSolid (v : Text) : Prop where
  /-- What stands around the value does not meet. -/
  ne_nil : v ≠ []
  /-- It cannot end an opener. -/
  head?_ne : v.head? ≠ some '{'
  /-- It cannot start an opener. -/
  getLast?_ne : v.getLast? ≠ some '$'

instance : DecidablePred Text.IsSolid := fun v =>
  decidable_of_iff (v ≠ [] ∧ v.head? ≠ some '{' ∧ v.getLast? ≠ some '$')
    ⟨fun h => ⟨h.1, h.2.1, h.2.2⟩, fun h => ⟨h.ne_nil, h.head?_ne, h.getLast?_ne⟩⟩

namespace Engine

/-- **An engine with nothing left to bind**, and nothing escaped. -/
structure FullyBound (e : Engine) : Prop where
  /-- Nothing in the joined text is escaped or left open. -/
  bare : ∀ p ∈ scan e.composed, p.IsBare
  /-- Every name of the joined text has a value. -/
  bound : ∀ k ∈ e.names, e.binding k ≠ none
  /-- No value has an opener. -/
  plain : ∀ k v, e.binding k = some v → ¬ HasOpening v

instance : DecidablePred FullyBound := fun e =>
  decidable_of_iff
    ((∀ p ∈ scan e.composed, p.IsBare) ∧ (∀ k ∈ e.names, e.binding k ≠ none) ∧
      ∀ entry ∈ e.bindings.toList, ¬ HasOpening entry.2)
    ⟨fun h => ⟨h.1, h.2.1, fun k v hv => h.2.2 (k, v) (Dict.get?_eq_some_iff.mp hv)⟩,
      fun h => ⟨h.bare, h.bound, fun entry hentry =>
        h.plain entry.1 entry.2 (Dict.get?_eq_some_iff.mpr hentry)⟩⟩

/-- What some pieces of the joined text are written out as. -/
def written (e : Engine) (ps : List Piece) : Text := ps.flatMap (expanded e.binding)

section FullyBound

variable {e : Engine}

/-- A token is written out as half its run and its value. -/
theorem FullyBound.exists_expanded_token (h : e.FullyBound) {k : Text} {n : Nat}
    (hp : token k n ∈ scan e.composed) :
    ∃ v, e.binding k = some v ∧ k ∈ e.names ∧
      expanded e.binding (token k n) = slashes (n / 2) ++ v := by
  have hk : k ∈ e.names := mem_names_iff.mpr ⟨n, hp⟩
  obtain ⟨v, hv⟩ := Option.ne_none_iff_exists'.mp (h.bound k hk)
  refine ⟨v, hv, hk, ?_⟩
  rw [expanded_token (h.bare _ hp) hv, unescape_of_plain (h.plain k v hv)]

/-- **No piece brings an opener of its own.** -/
theorem FullyBound.not_hasOpening_expanded (h : e.FullyBound) :
    ∀ p ∈ scan e.composed, ¬ HasOpening (expanded e.binding p) := by
  intro p hp
  cases p with
  | text s => exact ((canonical_scan _).proper _ hp).2
  | token k n =>
    obtain ⟨v, hv, -, hout⟩ := h.exists_expanded_token hp
    rw [hout, hasOpening_append_iff]
    rintro (hrun | hvalue | ⟨hlast, -⟩)
    · exact not_hasOpening_of_notMem (notMem_slashes (by decide) _) hrun
    · exact h.plain k v hv hvalue
    · exact notMem_slashes (by decide) _ (List.mem_of_getLast? hlast)
  | opener n => exact (h.bare _ hp).elim

/-- Nothing has to be filled in. -/
theorem FullyBound.compile_eq (h : e.FullyBound) :
    e.compile = .ok (e.written (scan e.composed), e) := by
  have hunbound : e.unbound = [] := unbound_eq_nil_iff.mpr h.bound
  rw [compile_of_ready (Or.inl hunbound), filled_of_unbound_eq_nil hunbound]
  rfl

@[simp] theorem written_nil (e : Engine) : e.written [] = [] := rfl

theorem written_cons (e : Engine) (p : Piece) (ps : List Piece) :
    e.written (p :: ps) = expanded e.binding p ++ e.written ps := rfl

theorem written_append (e : Engine) (ps qs : List Piece) :
    e.written (ps ++ qs) = e.written ps ++ e.written qs := List.flatMap_append

/-! ### Seams without an opener -/

/-- A part that ends in a dollar sign is plain text, if no value ends in one. -/
theorem FullyBound.exists_text_of_getLast? (h : e.FullyBound)
    (hvalues : ∀ k ∈ e.names, ∀ v ∈ e.binding k, v.IsSolid) {p : Piece}
    (hp : p ∈ scan e.composed) (hlast : (expanded e.binding p).getLast? = some '$') :
    ∃ s, p = text s := by
  cases p with
  | text s => exact ⟨s, rfl⟩
  | token k n =>
    obtain ⟨v, hv, hk, hout⟩ := h.exists_expanded_token hp
    have hsolid := hvalues k hk v hv
    rw [hout, List.getLast?_append_of_ne_nil _ hsolid.ne_nil] at hlast
    exact absurd hlast hsolid.getLast?_ne
  | opener n => exact (h.bare _ hp).elim

/-- A part that starts with a brace is plain text, if no value starts with one. -/
theorem FullyBound.exists_text_of_head? (h : e.FullyBound)
    (hvalues : ∀ k ∈ e.names, ∀ v ∈ e.binding k, v.IsSolid) {p : Piece}
    (hp : p ∈ scan e.composed) (hhead : (expanded e.binding p).head? = some '{') :
    ∃ s, p = text s := by
  cases p with
  | text s => exact ⟨s, rfl⟩
  | token k n =>
    obtain ⟨v, hv, hk, hout⟩ := h.exists_expanded_token hp
    rw [hout] at hhead
    cases hrun : n / 2 with
    | zero =>
      rw [hrun, slashes_zero, List.nil_append] at hhead
      exact absurd hhead (hvalues k hk v hv).head?_ne
    | succ m =>
      rw [hrun, slashes_succ] at hhead
      exact absurd hhead (by simp)
  | opener n => exact (h.bare _ hp).elim

theorem FullyBound.expanded_ne_nil (h : e.FullyBound)
    (hvalues : ∀ k ∈ e.names, ∀ v ∈ e.binding k, v.IsSolid) {p : Piece}
    (hp : p ∈ scan e.composed) : expanded e.binding p ≠ [] := by
  cases p with
  | text s => exact ((canonical_scan _).proper _ hp).1
  | token k n =>
    obtain ⟨v, hv, hk, hout⟩ := h.exists_expanded_token hp
    rw [hout]
    exact List.append_ne_nil_of_right_ne_nil _ (hvalues k hk v hv).ne_nil
  | opener n => exact (h.bare _ hp).elim

/-- **Solid values make no seam with an opener**: both parts would be plain text, and no two
plain texts stand side by side. -/
theorem FullyBound.head?_written_ne (h : e.FullyBound)
    (hvalues : ∀ k ∈ e.names, ∀ v ∈ e.binding k, v.IsSolid)
    {qs rs : List Piece} (hps : scan e.composed = qs ++ rs)
    (hlast : (e.written qs).getLast? = some '$') : (e.written rs).head? ≠ some '{' := by
  intro hhead
  obtain rfl | ⟨qs, p, rfl⟩ := List.eq_nil_or_concat' qs
  · exact absurd hlast (by simp)
  cases rs with
  | nil => exact absurd hhead (by simp)
  | cons q rs =>
    rw [List.append_assoc, List.singleton_append] at hps
    have hp : p ∈ scan e.composed := by simp [hps]
    have hq : q ∈ scan e.composed := by simp [hps]
    rw [written_append, written_cons, written_nil, List.append_nil,
      List.getLast?_append_of_ne_nil _ (h.expanded_ne_nil hvalues hp)] at hlast
    rw [written_cons, List.head?_append_of_ne_nil _ (h.expanded_ne_nil hvalues hq)] at hhead
    obtain ⟨s, rfl⟩ := h.exists_text_of_getLast? hvalues hp hlast
    obtain ⟨t, rfl⟩ := h.exists_text_of_head? hvalues hq hhead
    have hcanonical := canonical_scan e.composed
    rw [hps] at hcanonical
    exact hcanonical.adjoins

/-- If all values are solid, nothing that is written has an opener. -/
theorem FullyBound.not_hasOpening_written (h : e.FullyBound)
    (hvalues : ∀ k ∈ e.names, ∀ v ∈ e.binding k, v.IsSolid) :
    ¬ HasOpening (e.written (scan e.composed)) := by
  rintro ⟨a, b, hout⟩
  rw [List.append_assoc] at hout
  obtain ⟨qs, rs, hps, hqs, hrs⟩ := exists_seam h.not_hasOpening_expanded hout.symm
  refine h.head?_written_ne hvalues hps ?_ ?_
  · rw [written, hqs, List.getLast?_concat]
  · rw [written, hrs, List.head?_cons]

end FullyBound

/-- **A fully bound engine may leave a token**: a dollar sign of the text and a brace of the
value meet, and make the token of a name that is bound. -/
theorem compile_leaves_token :
    ¬ ∀ e : Engine, e.FullyBound → ∃ out e', e.compile = .ok (out, e') ∧
      ∀ k, e.binding k ≠ none → ¬ literal k <:+: out := by
  intro h
  let e : Engine :=
    ⟨[['$', '$', '{', 'x', '}']], lineSeparator, (∅ : Dict Text).insert ['x'] ['{', 'x', '}'], none⟩
  have hcompile : e.compile = .ok (['$', '{', 'x', '}'], e) := by decide +kernel
  obtain ⟨out, e', hout, htoken⟩ := h e (by decide +kernel)
  rw [hcompile, Except.ok.injEq, Prod.mk.injEq] at hout
  obtain ⟨rfl, -⟩ := hout
  exact htoken ['x'] (by decide) (by decide)

/-- **Where a fully bound engine writes a token.** Compiling succeeds and leaves the engine
as it is. No piece is written out with an opener of its own. A token stands in the output
exactly where a seam makes it: what the pieces in front of the seam are written out as ends
in the dollar sign, and what the pieces behind it are written out as starts with the brace,
the name and the closing brace. If all values are solid, the output has no opener at all. -/
theorem token_iff_seam (e : Engine) (h : e.FullyBound) :
    ∃ out, e.compile = .ok (out, e) ∧ out = e.written (scan e.composed) ∧
      (∀ p ∈ scan e.composed, ¬ HasOpening (expanded e.binding p)) ∧
      (∀ a k b, out = a ++ literal k ++ b ↔ ∃ qs rs, scan e.composed = qs ++ rs ∧
        e.written qs = a ++ ['$'] ∧ e.written rs = '{' :: (k ++ closing :: b)) ∧
      ((∀ k ∈ e.names, ∀ v ∈ e.binding k, v.IsSolid) → ¬ HasOpening out) := by
  refine ⟨_, h.compile_eq, rfl, h.not_hasOpening_expanded, fun a k b => ?_,
    h.not_hasOpening_written⟩
  have htoken : a ++ literal k ++ b = a ++ (opening ++ (k ++ closing :: b)) := by
    simp [literal]
  rw [htoken]
  exact flatMap_eq_append_opening_iff h.not_hasOpening_expanded

/-- An empty value lets a dollar sign and a brace of the text meet, and the whole output is
the token they make; a value that keeps them apart leaves no opener. -/
theorem token_iff_seam_around_value :
    let text : Text := ['$', '$', '{', 'e', '}', '{', 'e', '}']
    let e : Engine := ⟨[text], lineSeparator, (∅ : Dict Text).insert ['e'] [], none⟩
    let d : Engine := ⟨[text], lineSeparator, (∅ : Dict Text).insert ['e'] ['v'], none⟩
    e.FullyBound ∧ d.FullyBound ∧ e.compile = .ok (literal ['e'], e) ∧
      ∃ out, d.compile = .ok (out, d) ∧ ¬ HasOpening out := by
  intro text e d
  have he : e.FullyBound := by decide +kernel
  have hd : d.FullyBound := by decide +kernel
  have hscan : scan e.composed = [.text ['$'], .token ['e'] 0] ++ [.text ['{', 'e', '}']] := by
    decide +kernel
  obtain ⟨out, hout, -, -, htoken, -⟩ := token_iff_seam e he
  obtain ⟨out', hout', -, -, -, hplain⟩ := token_iff_seam d hd
  obtain rfl : out = literal ['e'] := by
    simpa using (htoken [] ['e'] []).mpr ⟨_, _, hscan, by decide +kernel, by decide +kernel⟩
  exact ⟨he, hd, hout, out', hout', hplain (by decide +kernel)⟩

end Engine

end Stencil
