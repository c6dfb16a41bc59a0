import Stencil.Proofs.Engine.Compile

/-!
# Expanding part by part

An engine joins its fragments first and expands the whole, and there are good reasons for
it: a token may be spread over two fragments, or completed by the delimiter. Where nothing
of the kind happens, the order does not matter.

The pieces of a text are not the pieces of its two halves. Where the halves meet, three
things can go wrong, and each of them may change pieces far away from the seam: an opener
that the first half leaves open is closed by the second; a run of backslashes goes across
the seam, so that its parity changes; a dollar sign and a brace meet and make an opener.

Nothing else can go wrong (`Stencil.Text.Apart.parted`). Two halves for which the three are
excluded are **apart** (`Stencil.Text.Apart`), and the whole is cut at the seam
(`Stencil.Parted`): its pieces are those of the first half and then those of the second,
except that plain text at the end of the first and plain text at the start of the second
become one piece. That exception is harmless to whatever does not tell two plain texts
from their join: the expansion of the join is the join of the expansions, for
every resolver, also for one that remembers what it was asked; the tokens of the join are
those of the two texts, and it has an unescaped one exactly when one of them has.

For an engine the seams are those of the row in which fragments and delimiters alternate.
A part has to be apart from *all* that follows it, and not only from its neighbour: an
opener may be closed, and a run of backslashes may end, many fragments later. If each part
is apart in this sense, the text that is compiled is that of the fragments, each expanded
by itself, joined by the expanded delimiter (`Stencil.Engine.expand_apart`).
-/

namespace Stencil

open Piece Text

/-! ### The seam of two texts -/

/-- **The pieces part at the seam** of two texts: the pieces of the join are those of the
first and those of the second, and plain text that meets at the seam is one piece. -/
def Parted (a b : Text) : Prop :=
  ∃ ps s t qs, scan a = ps ++ plain s ∧ scan b = plain t ++ qs ∧
    scan (a ++ b) = ps ++ (plain (s ++ t) ++ qs)

/-- The first piece of the first text, and the plain text in front of it, have no part in
what happens at the seam. -/
theorem Parted.cons {lead rest b : Text} {p : Piece} (h : Parted rest b)
    (hfirst : scan (lead ++ (p.source ++ rest)) = plain lead ++ p :: scan rest)
    (hboth : scan (lead ++ (p.source ++ (rest ++ b))) = plain lead ++ p :: scan (rest ++ b)) :
    Parted (lead ++ (p.source ++ rest)) b := by
  obtain ⟨ps, s, t, qs, hps, hqs, hjoin⟩ := h
  refine ⟨plain lead ++ p :: ps, s, t, qs, ?_, hqs, ?_⟩
  · rw [hfirst, hps, List.append_assoc, List.cons_append]
  · rw [List.append_assoc, List.append_assoc, hboth, hjoin, List.append_assoc, List.cons_append]

namespace Text

/-- **Two texts that are apart**: none of the three things that can go wrong at their seam
does. -/
structure Apart (a b : Text) : Prop where
  /-- If the first leaves an opener open, the second does not close it. -/
  unclosed : (∀ n, opener n ∉ scan a) ∨ closing ∉ b
  /-- No run of backslashes in front of an opener goes across the seam. -/
  slash : ¬ (a.getLast? = some '\\' ∧ ∃ n, slashes n ++ opening <+: b)
  /-- No dollar sign meets a brace. -/
  meet : ¬ (a.getLast? = some '$' ∧ b.head? = some '{')

/-- What follows the first piece is apart from a text if the whole is. -/
theorem Apart.of_cons {lead rest b : Text} {p : Piece} (h : Apart (lead ++ (p.source ++ rest)) b)
    (hfirst : scan (lead ++ (p.source ++ rest)) = plain lead ++ p :: scan rest) :
    Apart rest b := by
  have hlast {c : Char} (hc : rest.getLast? = some c) :
      (lead ++ (p.source ++ rest)).getLast? = some c := by
    rw [List.getLast?_append, List.getLast?_append, hc, Option.some_or, Option.some_or]
  have hopen {n : Nat} (hn : opener n ∈ scan rest) :
      opener n ∈ scan (lead ++ (p.source ++ rest)) := by
    rw [hfirst]
    exact List.mem_append_right _ (List.mem_cons_of_mem _ hn)
  refine ⟨h.unclosed.imp_left fun hall n hn => hall n (hopen hn), ?_, ?_⟩
  · rintro ⟨hslash, hrun⟩
    exact h.slash ⟨hlast hslash, hrun⟩
  · rintro ⟨hdollar, hbrace⟩
    exact h.meet ⟨hlast hdollar, hbrace⟩

/-- Plain text that is apart from what is behind it belongs to the lead of it. -/
theorem Apart.isLead_append {a lead body : Text} {n : Nat}
    (h : Apart a (lead ++ ((opener n).source ++ body))) (ha : ¬ HasOpening a)
    (hlead : IsLead lead) : IsLead (a ++ lead) := by
  constructor
  · rw [hasOpening_append_iff]
    rintro (hopen | hopen | ⟨hdollar, hbrace⟩)
    · exact ha hopen
    · exact hlead.plain hopen
    · exact h.meet ⟨hdollar, by rw [List.head?_append, hbrace, Option.some_or]⟩
  · rw [List.getLast?_append]
    cases hlast : lead.getLast? with
    | some c =>
      rw [Option.some_or, ← hlast]
      exact hlead.last
    | none =>
      -- without a lead, what is behind starts with the run of the opener
      obtain rfl := List.getLast?_eq_none_iff.mp hlast
      intro hslash
      exact h.slash ⟨hslash, n, body, rfl⟩

/-- **The pieces of texts that are apart part at the seam.** -/
theorem Apart.parted {a b : Text} (h : Apart a b) : Parted a b := by
  induction a using Text.form_induction with
  | plain a ha =>
    -- the first opener of the whole is that of the second text
    rcases forms b with hb | ⟨lead, n, name, rest, hlead, hname, rfl⟩ |
      ⟨lead, n, body, hlead, hbody, rfl⟩
    · have hab : ¬ HasOpening (a ++ b) := by
        rw [hasOpening_append_iff]
        rintro (hopen | hopen | hmeet)
        · exact ha hopen
        · exact hb hopen
        · exact h.meet hmeet
      refine ⟨[], a, b, [], scan_of_plain ha, ?_, ?_⟩
      · rw [scan_of_plain hb, List.append_nil]
      · rw [scan_of_plain hab, List.append_nil, List.nil_append]
    · have hlead' : IsLead (a ++ lead) := by
        rw [source_token_append] at h
        exact h.isLead_append ha hlead
      refine ⟨[], a, lead, token name n :: scan rest, scan_of_plain ha,
        scan_lead_token hlead hname n rest, ?_⟩
      rw [← List.append_assoc, scan_lead_token hlead' hname, List.nil_append]
    · have hlead' : IsLead (a ++ lead) := h.isLead_append ha hlead
      refine ⟨[], a, lead, opener n :: scan body, scan_of_plain ha,
        scan_lead_opener hlead hbody n, ?_⟩
      rw [← List.append_assoc, scan_lead_opener hlead' hbody, List.nil_append]
  | token lead name n rest hlead hname ih =>
    have hfirst := scan_lead_token hlead hname n rest
    exact (ih (h.of_cons hfirst)).cons hfirst (scan_lead_token hlead hname n (rest ++ b))
  | opener lead n body hlead hbody ih =>
    have hfirst := scan_lead_opener hlead hbody n
    have hmem : opener n ∈ scan (lead ++ ((opener n).source ++ body)) := by
      rw [hfirst]
      exact List.mem_append_right _ List.mem_cons_self
    -- the opener is still open at the seam, so nothing behind the seam may close it
    have hboth : closing ∉ body ++ b := by
      rw [List.mem_append, not_or]
      exact ⟨hbody, h.unclosed.resolve_left fun hall => hall n hmem⟩
    exact (ih (h.of_cons hfirst)).cons hfirst (scan_lead_opener hlead hboth n)

/-! ### Rows of parts -/

/-- Nothing can go wrong in front of nothing. -/
theorem apart_nil (a : Text) : Apart a [] :=
  ⟨Or.inr List.not_mem_nil, by simp [Piece.opening], by simp⟩

/-- At each seam of a row of parts, the part in front of the seam is apart from the whole of
what follows it. -/
def AllApart : List Text → Prop
  | part :: next :: rest => Apart part (next :: rest).flatten ∧ AllApart (next :: rest)
  | _ => True

/-- Behind the last part there is no seam, but there might be one. -/
theorem allApart_cons_iff {part : Text} {rest : List Text} :
    AllApart (part :: rest) ↔ Apart part rest.flatten ∧ AllApart rest := by
  cases rest with
  | nil => exact iff_of_true trivial ⟨apart_nil part, trivial⟩
  | cons next rest => exact Iff.rfl

/-! ### Testing a seam -/

/-- A run in front of an opener is no longer than the text. -/
theorem exists_slashes_prefix_iff {b : Text} :
    (∃ n, slashes n ++ opening <+: b) ↔ ∃ n ≤ b.length, slashes n ++ opening <+: b := by
  constructor
  · rintro ⟨n, hn⟩
    have hlength := hn.length_le
    rw [List.length_append, length_slashes] at hlength
    exact ⟨n, by omega, hn⟩
  · rintro ⟨n, -, hn⟩
    exact ⟨n, hn⟩

instance : DecidableRel Apart := fun a b =>
  decidable_of_iff
    (((∀ p ∈ scan a, p ≠ opener p.run) ∨ closing ∉ b) ∧
      ¬ (a.getLast? = some '\\' ∧ ∃ n ≤ b.length, slashes n ++ opening <+: b) ∧
      ¬ (a.getLast? = some '$' ∧ b.head? = some '{'))
    (by
      rw [← exists_slashes_prefix_iff]
      constructor
      · rintro ⟨hopen, hslash, hmeet⟩
        exact ⟨hopen.imp_left fun hall n hn => hall _ hn rfl, hslash, hmeet⟩
      · rintro ⟨hopen, hslash, hmeet⟩
        exact ⟨hopen.imp_left fun hall p hp heq => hall p.run (heq ▸ hp), hslash, hmeet⟩)

instance decidableAllApart : DecidablePred AllApart
  | [] => inferInstanceAs (Decidable True)
  | [_] => inferInstanceAs (Decidable True)
  | part :: next :: rest =>
    have : Decidable (AllApart (next :: rest)) := decidableAllApart (next :: rest)
    inferInstanceAs (Decidable (Apart part (next :: rest).flatten ∧ AllApart (next :: rest)))

end Text

/-! ### Expanding at a seam -/

section Parted

variable {a b : Text}

/-- **Expansion goes part by part.** -/
theorem Parted.expand_append (h : Parted a b) (resolve : Text → Option Text) :
    expand resolve (a ++ b) = expand resolve a ++ expand resolve b := by
  obtain ⟨ps, s, t, qs, hps, hqs, hjoin⟩ := h
  simp only [expand, hps, hqs, hjoin, List.flatMap_append, flatMap_expanded_plain,
    List.append_assoc]

/-- The tokens of the join are those of the two texts. -/
theorem Parted.mem_tokenNames_append_iff (h : Parted a b) {k : Text} :
    k ∈ tokenNames (a ++ b) ↔ k ∈ tokenNames a ∨ k ∈ tokenNames b := by
  obtain ⟨ps, s, t, qs, hps, hqs, hjoin⟩ := h
  simp only [tokenNames, mem_sortedNames_iff, hps, hqs, hjoin, List.filterMap_append,
    filterMap_name?_plain, List.append_nil, List.nil_append, List.mem_append]

theorem Parted.hasUnescapedToken_append (h : Parted a b) :
    hasUnescapedToken (a ++ b) = (hasUnescapedToken a || hasUnescapedToken b) := by
  obtain ⟨ps, s, t, qs, hps, hqs, hjoin⟩ := h
  simp only [hasUnescapedToken, hps, hqs, hjoin, List.any_append, any_asks?_plain,
    Bool.or_false, Bool.false_or]

section Memory

variable {σ : Type} (resolve : σ → Text → Option Text × σ)

/-- Pieces are expanded one after the other, with the memory that those in front leave. -/
theorem expandPieces_append (m : σ) (ps qs : List Piece) :
    expandPieces resolve m (ps ++ qs) =
      ((expandPieces resolve m ps).1 ++ (expandPieces resolve (expandPieces resolve m ps).2 qs).1,
        (expandPieces resolve (expandPieces resolve m ps).2 qs).2) := by
  induction ps generalizing m with
  | nil => rfl
  | cons p ps ih =>
    rw [List.cons_append, expandPieces, expandPieces]
    simp only [ih, List.append_assoc]

/-- Plain text asks nothing. -/
theorem expandPieces_plain (m : σ) (s : Text) : expandPieces resolve m (plain s) = (s, m) := by
  cases s with
  | nil => rfl
  | cons c s => exact Prod.ext (List.append_nil _) rfl

/-- **Expansion goes part by part**, and the second part is expanded with the memory that
the first leaves. -/
theorem Parted.expandWith_append (h : Parted a b) (m : σ) :
    expandWith resolve m (a ++ b) =
      ((expandWith resolve m a).1 ++ (expandWith resolve (expandWith resolve m a).2 b).1,
        (expandWith resolve (expandWith resolve m a).2 b).2) := by
  obtain ⟨ps, s, t, qs, hps, hqs, hjoin⟩ := h
  simp only [expandWith, hps, hqs, hjoin, expandPieces_append, expandPieces_plain,
    List.append_assoc]

end Memory

end Parted

/-! ### Fragments and delimiters -/

/-- The expansion of fragments that are apart, from the first one on. -/
theorem expand_intercalate (resolve : Text → Option Text) {delimiter : Text} :
    ∀ {fragments : List Text}, AllApart (fragments.intersperse delimiter) →
      expand resolve (List.intercalate delimiter fragments) =
        List.intercalate (expand resolve delimiter) (fragments.map (expand resolve))
  | [], _ => by
    rw [expand, List.intercalate_nil, scan_of_plain not_hasOpening_nil]
    rfl
  | [s], _ => by
    rw [List.map_singleton, List.intercalate_singleton, List.intercalate_singleton]
  | s :: t :: fragments, h => by
    rw [List.intersperse_cons_cons, allApart_cons_iff, allApart_cons_iff] at h
    obtain ⟨hfragment, hdelimiter, hrest⟩ := h
    have hcut := hfragment.parted.expand_append resolve
    rw [List.flatten_cons, hdelimiter.parted.expand_append resolve] at hcut
    -- the flattened row behind the delimiter is the join of the other fragments
    have htail := expand_intercalate resolve hrest
    rw [List.intercalate] at htail
    rw [List.map_cons, List.map_cons, List.intercalate_cons_cons, List.intercalate_cons_cons,
      ← List.map_cons, ← htail, List.append_assoc, List.append_assoc]
    exact hcut

namespace Engine

/-- **Expansion goes part by part where the parts are apart.** For two texts that are apart,
the expansion of the join is the join of the expansions, whatever the resolver is and
whatever it remembers; the names of the join are the names of the two, and it has an
unescaped token exactly when one of them has. So an engine all of whose parts are apart
from what follows them compiles to its fragments, each expanded by itself, joined by the
expanded delimiter, all with the values of the engine that is left. -/
theorem expand_apart :
    (∀ a b : Text, Apart a b →
      (∀ resolve, expand resolve (a ++ b) = expand resolve a ++ expand resolve b) ∧
      (∀ (σ : Type) (resolve : σ → Text → Option Text × σ) (m : σ),
        expandWith resolve m (a ++ b) =
          let (out, m) := expandWith resolve m a
          let (out', m) := expandWith resolve m b
          (out ++ out', m)) ∧
      (∀ k, k ∈ tokenNames (a ++ b) ↔ k ∈ tokenNames a ∨ k ∈ tokenNames b) ∧
      (hasUnescapedToken (a ++ b) = true ↔
        hasUnescapedToken a = true ∨ hasUnescapedToken b = true)) ∧
    ∀ e : Engine, AllApart (e.fragments.intersperse e.delimiter) →
      ∀ out e', e.compile = .ok (out, e') →
        out = List.intercalate (expand e'.binding e.delimiter)
          (e.fragments.map (expand e'.binding)) := by
  refine ⟨fun a b h => ?_, fun e h out e' hcompile => ?_⟩
  · have hparted := h.parted
    refine ⟨hparted.expand_append, fun σ resolve m => hparted.expandWith_append resolve m,
      fun k => hparted.mem_tokenNames_append_iff, ?_⟩
    rw [hparted.hasUnescapedToken_append, Bool.or_eq_true]
  · obtain ⟨-, rfl, rfl⟩ := compile_eq_ok_iff.mp hcompile
    rw [rendered, composed_filled, composed, expand_intercalate _ h]

/-- The fragments `${x}$`, a backslash, an escaped token and an opener that is left open,
joined by a dash: each part is apart from what follows it. Without the dashes the backslash
would not be. -/
theorem expand_apart_across_delimiters :
    let a : Text := ['$', '{', 'x', '}', '$']
    let b : Text := ['\\', '-', '\\', '$', '{', 'x', '}', '-', '\\', '\\', '$', '{']
    let e : Engine :=
      ⟨[a, ['\\'], ['\\', '$', '{', 'x', '}'], ['\\', '\\', '$', '{']], ['-'],
        (∅ : Dict Text).insert ['x'] ['v'], none⟩
    let out : Text :=
      ['v', '$', '-', '\\', '-', '$', '{', 'x', '}', '-', '\\', '$', '{']
    Apart a b ∧ (∀ resolve, expand resolve (a ++ b) = expand resolve a ++ expand resolve b) ∧
      AllApart (e.fragments.intersperse e.delimiter) ∧ e.compile = .ok (out, e) ∧
      out = List.intercalate (expand e.binding e.delimiter)
        (e.fragments.map (expand e.binding)) := by
  intro a b e out
  have hapart : Apart a b := by decide +kernel
  have hall : AllApart (e.fragments.intersperse e.delimiter) := by decide +kernel
  have hcompile : e.compile = .ok (out, e) := by decide +kernel
  exact ⟨hapart, (expand_apart.1 a b hapart).1, hall, hcompile,
    expand_apart.2 e hall out e hcompile⟩

end Engine

end Stencil
