import Stencil.Proofs.Piece.Scan
import Stencil.Proofs.Text.Bytes

/-!
# The cursor finds the pieces

A cursor cuts a text by byte offsets, and never looks at a character. This file
shows that it cuts it into the same pieces as the cut on characters
(`Stencil.Cursor.pieces_start`), and that it never cuts a character in two: no run
of a cursor that starts in front of a text is torn.

The invariant is the place of the cursor: its offset is the size of the text
behind it (`Stencil.Cursor.between`). In front of a canonical list of pieces one
step takes off the first piece and keeps the invariant
(`Stencil.Cursor.next_between`); the run follows by induction on the list.

The main result is the correspondence between texts and canonical lists of pieces
(`Stencil.Cursor.pieces_bijective`), for both ways to cut a text.

A cut inside a character would be the end of a cursor. None is made, wherever it may have
come to (`Stencil.Cursor.reached_sound`): by the invariant, all offsets of the next step are
sizes of parts of the text from there on (`Stencil.Cursor.SoundAt`), so they are character
boundaries, and the run, which is counted backwards byte by byte, is the run of backslashes
in front of the first opener. A step moves the cursor by the size of the piece it finds, and
no piece is empty, so there are no more pieces than characters.
-/

namespace Stencil

namespace Cursor

open Piece Text

/-- The cursor behind one part of a text and in front of the rest. -/
def between (before rest : Text) : Cursor := ⟨before ++ rest, utf8Size before⟩

/-! ### One step -/

theorem next_between_nil (before : Text) : (between before []).next = .done := by
  rw [next, between, List.append_nil, if_pos (Nat.le_refl _)]

/-- In front of more text, a step looks at that text alone. -/
theorem next_between_of_ne_nil (before : Text) {rest : Text} (h : rest ≠ []) :
    (between before rest).next = (between before rest).nextOf rest := by
  have hpos : ¬ utf8Size (before ++ rest) ≤ utf8Size before := by
    have := utf8Size_pos h
    rw [utf8Size_append]
    omega
  rw [next, between, if_neg hpos, dropBytes?_append]

theorem nextOf_of_plain (c : Cursor) {rest : Text} (h : ¬ HasOpening rest) :
    c.nextOf rest = .piece (.text rest) ⟨c.input, c.input.utf8Size⟩ := by
  rw [nextOf, Bytes.findOpening_utf8, cutOpening_eq_none h]
  rfl

section Opened

variable (c : Cursor) (n : Nat) (body : Text)

/-- What the search for an opener finds in front of one, and the run it counts. -/
theorem findOpening_lead {lead : Text} (hlead : IsLead lead) :
    Bytes.findOpening (utf8 (lead ++ (slashes n ++ (opening ++ body)))) =
        some (utf8Size lead + n) ∧
      Bytes.trailingSlashes
        ((utf8 (lead ++ (slashes n ++ (opening ++ body)))).take (utf8Size lead + n)) = n := by
  have hplain : ¬ HasOpening (lead ++ slashes n) :=
    (hasOpening_append_slashes_iff lead n).not.mpr hlead.plain
  have hsize : utf8Size lead + n = utf8Size (lead ++ slashes n) := by
    rw [utf8Size_append, utf8Size_slashes]
  rw [← List.append_assoc, hsize, take_utf8_append, Bytes.trailingSlashes_utf8,
    trailingSlashes_append_slashes hlead.last, Bytes.findOpening_utf8, cutOpening_append hplain]
  exact ⟨rfl, rfl⟩

/-- **Plain text in front of an opener** is a step of its own. -/
theorem nextOf_lead {lead : Text} (hlead : IsLead lead) (hne : lead ≠ []) :
    c.nextOf (lead ++ (slashes n ++ (opening ++ body))) =
      .piece (.text lead) ⟨c.input, c.pos + utf8Size lead⟩ := by
  obtain ⟨hfind, hrun⟩ := findOpening_lead n body hlead
  have hpos : 0 < utf8Size lead + n - n := by
    have := utf8Size_pos hne
    omega
  rw [nextOf, hfind]
  dsimp only
  rw [hrun, if_pos hpos, Nat.add_sub_cancel, takeBytes?_append]

/-- Without plain text in front of the run, a step takes the opener, and the token
if the opener is closed. -/
theorem nextOf_run :
    c.nextOf (slashes n ++ (opening ++ body)) =
      match cutClosing body with
      | none => .piece (.opener n) ⟨c.input, c.pos + (n + 2)⟩
      | some (name, _) =>
        .piece (.token name n) ⟨c.input, c.pos + (n + 2 + utf8Size name + 1)⟩ := by
  obtain ⟨hfind, hrun⟩ := findOpening_lead n body isLead_nil
  have hdrop : dropBytes? (slashes n ++ (opening ++ body)) (n + 2) = some body := by
    have hcut := dropBytes?_append (slashes n ++ opening) body
    rwa [utf8Size_append, utf8Size_slashes, utf8Size_opening, List.append_assoc] at hcut
  have hzero : utf8Size [] + n = n := Nat.zero_add n
  rw [List.nil_append, hzero] at hfind hrun
  -- nothing stands in front of the run, so the step starts with the run
  rw [nextOf, hfind]
  dsimp only
  rw [hrun, Nat.sub_self, if_neg (Nat.lt_irrefl 0), hdrop]
  dsimp only
  rw [Bytes.findClosing_utf8]
  cases hclose : cutClosing body with
  | none => rfl
  | some cut =>
    obtain ⟨name, rest⟩ := cut
    rw [eq_of_cutClosing hclose, Option.map_some]
    dsimp only
    rw [takeBytes?_append]

end Opened

/-- A piece with an opener is its run, the opener, and more. -/
theorem exists_source_eq {p : Piece} (hp : p.Opens) :
    ∃ tail, p.source = slashes p.run ++ (opening ++ tail) := by
  cases p with
  | text s => exact hp.elim
  | token name n => exact ⟨name ++ [closing], by simp [source, literal, run]⟩
  | opener n => exact ⟨[], by simp [source, run]⟩

/-- **A step takes off the first piece.** In front of the text of a canonical list,
it finds the first piece of the list, and leaves the cursor between that piece and
the others. -/
theorem next_between {p : Piece} {ps : List Piece} (h : Canonical (p :: ps)) (before : Text) :
    (between before (sources (p :: ps))).next =
      .piece p (between (before ++ p.source) (sources ps)) := by
  have hnext (k : Nat) (hk : k = utf8Size p.source) :
      (⟨(between before (sources (p :: ps))).input,
          (between before (sources (p :: ps))).pos + k⟩ : Cursor) =
        between (before ++ p.source) (sources ps) := by
    rw [between, between, hk, utf8Size_append, List.append_assoc, sources_cons]
  rw [next_between_of_ne_nil]
  · match p, ps with
    | .text s, [] =>
      have hs : sources [text s] = s := List.append_nil s
      rw [hs, nextOf_of_plain _ (canonical_cons_iff.mp h).1.2]
      refine congrArg (Step.piece (text s)) ?_
      rw [between, between, sources_nil, List.append_nil]
      rfl
    | .text s, q :: qs =>
      obtain ⟨hne, hlead, hq⟩ := h.lead
      obtain ⟨tail, hsource⟩ := exists_source_eq hq
      have hs : sources (text s :: q :: qs) =
          s ++ (slashes q.run ++ (opening ++ (tail ++ sources qs))) := by
        rw [sources_cons, sources_cons, hsource]
        simp [source]
      refine Eq.trans ?_ (congrArg (Step.piece (text s)) (hnext (utf8Size s) rfl))
      rw [hs, nextOf_lead _ _ _ hlead hne]
    | .token name n, ps =>
      have hname : closing ∉ name := (canonical_cons_token_iff.mp h).1
      have hs : sources (token name n :: ps) =
          slashes n ++ (opening ++ (name ++ closing :: sources ps)) := by
        simp [source, literal]
      refine Eq.trans ?_
        (congrArg (Step.piece (token name n)) (hnext (n + 2 + utf8Size name + 1) ?_))
      · rw [hs, nextOf_run, cutClosing_append hname]
      · simp only [source, literal, utf8Size_append, utf8Size_slashes, utf8Size_opening]
        have hbrace : utf8Size [closing] = 1 := rfl
        omega
    | .opener n, ps =>
      have hclosing : closing ∉ sources ps := (canonical_cons_opener_iff.mp h).1
      have hs : sources (opener n :: ps) = slashes n ++ (opening ++ sources ps) := by
        simp [source]
      refine Eq.trans ?_ (congrArg (Step.piece (opener n)) (hnext (n + 2) ?_))
      · rw [hs, nextOf_run, cutClosing_eq_none hclosing]
      · rw [source, utf8Size_append, utf8Size_slashes, utf8Size_opening]
  · -- no piece of a canonical list has an empty text
    rw [sources_cons]
    exact List.append_ne_nil_of_left_ne_nil (source_ne_nil (canonical_cons_iff.mp h).1) _

/-! ### The run -/

theorem pieces_of_done {c : Cursor} (h : c.next = .done) : c.pieces = some [] := by
  rw [pieces]
  split
  · rfl
  · next htorn =>
    rw [h] at htorn
    cases htorn
  · next p d hpiece =>
    rw [h] at hpiece
    cases hpiece

theorem pieces_of_piece {c d : Cursor} {p : Piece} (h : c.next = .piece p d) :
    c.pieces = d.pieces.map (p :: ·) := by
  rw [pieces]
  split
  · next hdone =>
    rw [h] at hdone
    cases hdone
  · next htorn =>
    rw [h] at htorn
    cases htorn
  · next q e hpiece =>
    rw [h, Step.piece.injEq] at hpiece
    obtain ⟨rfl, rfl⟩ := hpiece
    rfl

/-- **In front of the text of a canonical list, a cursor finds the list.** -/
theorem pieces_between {ps : List Piece} (h : Canonical ps) (before : Text) :
    (between before (sources ps)).pieces = some ps := by
  induction ps generalizing before with
  | nil => exact pieces_of_done (next_between_nil before)
  | cons p ps ih => rw [pieces_of_piece (next_between h before), ih h.tail, Option.map_some]

/-- **The cursor finds the pieces of a text**, and tears no character. -/
theorem pieces_start (s : Text) : (start s).pieces = some (scan s) := by
  have h := pieces_between (canonical_scan s) []
  rwa [sources_scan] at h

/-- **Texts and canonical lists of pieces correspond.** The pieces of a text, cut
by characters or by byte offsets, are a canonical list that spells the text; and a
canonical list is what the text it spells is cut into. -/
theorem pieces_bijective :
    (∀ s, (start s).pieces = some (scan s) ∧ Canonical (scan s) ∧ sources (scan s) = s) ∧
      ∀ ps, Canonical ps →
        (start (sources ps)).pieces = some ps ∧ scan (sources ps) = ps :=
  ⟨fun s => ⟨pieces_start s, canonical_scan s, sources_scan s⟩,
    fun _ h => ⟨pieces_between h [], scan_sources h⟩⟩

/-- Behind a token whose name has an opener in it, and two backslashes, an opener is
left that nothing closes. -/
theorem pieces_bijective_unclosed :
    let ps := [token ['x', '$', '{'] 3, text ['\\', '$'], opener 2, text ['日']]
    Canonical ps ∧
      (start ['\\', '\\', '\\', '$', '{', 'x', '$', '{', '}', '\\', '$', '\\', '\\', '$', '{',
        '日']).pieces = some ps := by
  intro ps
  have hps : Canonical ps := by decide
  exact ⟨hps, (pieces_bijective.2 ps hps).1⟩

/-! ### Places of a cursor -/

/-- **The places that a cursor comes to** on a text, one step after the other. -/
inductive Reached (s : Text) : Cursor → Prop
  /-- It starts in front of the text. -/
  | start : Reached s (start s)
  /-- It goes on behind the piece that it has found. -/
  | step {c d : Cursor} {p : Piece} : Reached s c → c.next = .piece p d → Reached s d

/-- **A cursor stands between pieces of its text**: what lies in front of it is the text of a
canonical list. -/
theorem Reached.exists_between {s : Text} {c : Cursor} (h : Reached s c) :
    ∃ before ps, Canonical ps ∧ s = before ++ sources ps ∧ c = between before (sources ps) := by
  induction h with
  | start =>
    refine ⟨[], scan s, canonical_scan s, (sources_scan s).symm, ?_⟩
    rw [sources_scan]
    rfl
  | @step c d p _ hnext ih =>
    obtain ⟨before, ps, hps, rfl, rfl⟩ := ih
    cases ps with
    | nil =>
      rw [sources_nil, next_between_nil] at hnext
      cases hnext
    | cons q ps =>
      rw [next_between hps, Step.piece.injEq] at hnext
      obtain ⟨rfl, rfl⟩ := hnext
      exact ⟨before ++ q.source, ps, hps.tail, (List.append_assoc _ _ _).symm, rfl⟩

/-- **A step finds a piece, or the end of the text**: it is never torn. A piece moves the
cursor by its size. -/
theorem Reached.next_cases {s : Text} {c : Cursor} (h : Reached s c) :
    (c.next = .done ∧ c.pos = utf8Size s) ∨
      ∃ p d, c.next = .piece p d ∧ p.source ≠ [] ∧ d.pos = c.pos + utf8Size p.source := by
  obtain ⟨before, ps, hps, rfl, rfl⟩ := h.exists_between
  cases ps with
  | nil => exact .inl ⟨next_between_nil before, by rw [sources_nil, List.append_nil]; rfl⟩
  | cons q ps =>
    exact .inr ⟨q, _, next_between hps before, source_ne_nil (canonical_cons_iff.mp hps).1,
      utf8Size_append _ _⟩

theorem Reached.boundary {s : Text} {c : Cursor} (h : Reached s c) :
    c.input = s ∧ s.Boundary c.pos := by
  obtain ⟨before, ps, -, rfl, rfl⟩ := h.exists_between
  exact ⟨rfl, before, sources ps, rfl, rfl⟩

/-! ### The offsets of one step -/

/-- **The offsets of a step are sound**, where `found` is the offset at which the search has
found an opener in the text from the cursor on, and `run` the number of backslashes that
were counted backwards from there. -/
structure SoundAt (rest : Text) (found run : Nat) : Prop where
  /-- No more backslashes are counted than there are bytes. -/
  run_le : run ≤ found
  /-- The opener is the first one, and the run is all of the run in front of it. -/
  first : ∃ lead body, IsLead lead ∧ rest = lead ++ (slashes run ++ (opening ++ body)) ∧
    utf8Size lead = found - run
  /-- The text may be cut where the run starts. -/
  lead : rest.Boundary (found - run)
  /-- It may be cut where the opener starts. -/
  opener : rest.Boundary found
  /-- It may be cut behind the opener. -/
  body : rest.Boundary (found + 2)
  /-- What follows the opener may be cut in front of the closing brace that is found, and
  behind it. -/
  name : ∀ body stop, rest.dropBytes? (found + 2) = some body →
    Bytes.findClosing body.utf8 = some stop → body.Boundary stop ∧ body.Boundary (stop + 1)

/-- In front of a closing brace that is found, and behind it, no character is cut in two. -/
theorem boundary_of_findClosing {s : Text} {stop : Nat}
    (h : Bytes.findClosing s.utf8 = some stop) : s.Boundary stop ∧ s.Boundary (stop + 1) := by
  rw [Bytes.findClosing_utf8, Option.map_eq_some_iff] at h
  obtain ⟨⟨name, tail⟩, hcut, rfl⟩ := h
  have hs : s = name ++ closing :: tail := eq_of_cutClosing hcut
  refine ⟨⟨name, _, hs, rfl⟩, name ++ [closing], tail, ?_, ?_⟩
  · rw [hs, List.append_assoc, List.singleton_append]
  · rw [utf8Size_append]
    rfl

/-- **Whatever the search finds, the offsets are sound.** -/
theorem soundAt_of_findOpening {rest : Text} {found : Nat}
    (h : Bytes.findOpening rest.utf8 = some found) :
    SoundAt rest found (Bytes.trailingSlashes (rest.utf8.take found)) := by
  have hopening : HasOpening rest := by
    by_contra hplain
    rw [Bytes.findOpening_utf8, cutOpening_eq_none hplain] at h
    cases h
  obtain ⟨before, body, hbefore, rfl⟩ := exists_first_opening hopening
  obtain ⟨lead, n, hlast, rfl⟩ := exists_eq_append_slashes before
  rw [hasOpening_append_slashes_iff] at hbefore
  obtain ⟨hfound, hrun⟩ := findOpening_lead n body ⟨hbefore, hlast⟩
  rw [List.append_assoc] at h ⊢
  rw [hfound, Option.some_inj] at h
  subst h
  rw [hrun]
  exact
    { run_le := Nat.le_add_left n _
      first := ⟨lead, body, ⟨hbefore, hlast⟩, rfl, by omega⟩
      lead := ⟨lead, _, rfl, by omega⟩
      opener := ⟨lead ++ slashes n, opening ++ body, by simp, by
        rw [utf8Size_append, utf8Size_slashes]⟩
      body := ⟨lead ++ slashes n ++ opening, body, by simp, by
        rw [utf8Size_append, utf8Size_append, utf8Size_slashes, utf8Size_opening]⟩
      name := fun _ _ _ => boundary_of_findClosing }

/-! ### All steps -/

/-- **There are no more pieces than characters.** -/
theorem length_scan_le (s : Text) : (scan s).length ≤ s.length := by
  have hparts : ∀ p ∈ scan s, p.source ≠ [] :=
    fun p hp => source_ne_nil ((canonical_scan s).proper p hp)
  have hlength := length_le_length_flatMap hparts
  rwa [← sources, sources_scan] at hlength

/-- **A cursor is safe wherever it comes to, and gets on.** It stands at a character boundary
of its text, and whatever opener it finds from there, the offsets of the step are sound; so no
character is cut in two. A step moves it by the size of the piece that is found, which is at
least one byte, and it stops at the end of the text and nowhere else. What it has found then
are the pieces of the text as they are cut character by character, and no more than there
are characters. -/
theorem reached_sound {s : Text} {c : Cursor} (h : Reached s c) :
    (c.input = s ∧ c.pos ≤ utf8Size s ∧ s.Boundary c.pos) ∧
      (∃ rest, s.dropBytes? c.pos = some rest ∧
        ∀ found, Bytes.findOpening rest.utf8 = some found →
          SoundAt rest found (Bytes.trailingSlashes (rest.utf8.take found))) ∧
      c.next ≠ .torn ∧
      (∀ p d, c.next = .piece p d →
        d.pos = c.pos + utf8Size p.source ∧ 1 ≤ utf8Size p.source) ∧
      (c.next = .done ↔ c.pos = utf8Size s) ∧
      (start s).pieces = some (scan s) ∧ (scan s).length ≤ s.length := by
  obtain ⟨hinput, hboundary⟩ := h.boundary
  obtain ⟨rest, hrest⟩ := Option.isSome_iff_exists.mp (boundary_iff_isSome_dropBytes?.mp hboundary)
  refine ⟨⟨hinput, hboundary.le, hboundary⟩,
    ⟨rest, hrest, fun found hfound => soundAt_of_findOpening hfound⟩, ?_, ?_, ?_,
    pieces_start s, length_scan_le s⟩
  -- what is left is told of a step, and a step is at the end or finds a piece
  all_goals rcases h.next_cases with ⟨hdone, hend⟩ | ⟨p, d, hpiece, hne, hpos⟩
  · rw [hdone]
    exact nofun
  · rw [hpiece]
    exact nofun
  · rw [hdone]
    exact nofun
  · rw [hpiece]
    rintro p' d' ⟨⟩
    exact ⟨hpos, utf8Size_pos hne⟩
  · exact iff_of_true hdone hend
  · have hsize := utf8Size_pos hne
    have hend := (h.step hpiece).boundary.2.le
    rw [hpiece]
    exact iff_of_false nofun (by omega)

/-- Behind a character of three bytes the cursor finds a token with a run of two. -/
theorem reached_sound_three_bytes :
    let s : Text := ['日', '\\', '\\', '$', '{', '語', '}', 'é']
    let c : Cursor := ⟨s, 3⟩
    Reached s c ∧ (∃ d, c.next = .piece (.token ['語'] 2) d ∧ d.pos = 11) ∧
      (∃ rest, s.dropBytes? 3 = some rest ∧ SoundAt rest 2 2) ∧
      (start s).pieces = some [.text ['日'], .token ['語'] 2, .text ['é']] := by
  intro s c
  have hreached : Reached s c := .step .start (p := .text ['日']) rfl
  obtain ⟨-, ⟨rest, hrest, hsound⟩, -, hadvance, -, hpieces, -⟩ := reached_sound hreached
  have hnext : c.next = .piece (.token ['語'] 2) ⟨s, 11⟩ := rfl
  have hfound : Bytes.findOpening rest.utf8 = some 2 := by
    cases hrest
    rfl
  have hrun : Bytes.trailingSlashes (rest.utf8.take 2) = 2 := by
    cases hrest
    rfl
  have hscan : scan s = [.text ['日'], .token ['語'] 2, .text ['é']] :=
    @scan_sources [.text ['日'], .token ['語'] 2, .text ['é']] (by decide)
  refine ⟨hreached, ⟨_, hnext, (hadvance _ _ hnext).1⟩, ⟨rest, hrest, ?_⟩, hscan ▸ hpieces⟩
  have hsafe := hsound 2 hfound
  rwa [hrun] at hsafe

end Cursor

end Stencil
