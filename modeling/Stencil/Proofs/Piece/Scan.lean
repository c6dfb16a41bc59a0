import Stencil.Proofs.Text.Cut

/-!
# The pieces of a text

A list of pieces is canonical by three conditions on the whole of it: on each
piece, on each two neighbours, and on each two pieces. To build such a list, or to
take one apart, one needs them one piece at a time: what the first piece has to
satisfy, given that the rest is canonical
(`Stencil.Piece.canonical_cons_iff`). The condition on openers is the only one that
looks ahead without a bound. It is a condition on the *text* of the rest, and on
nothing else (`Stencil.Piece.leavesOpen_opener_iff`): no closing brace occurs in it.
All conditions can be tested, so a given list can be seen to be canonical or not.

Cutting a text into its pieces is a recursion on what is left of the text, and
what is left depends on the form of the text (`Stencil.Text.forms`). So the
cut is given by three equations, one for each form
(`Stencil.scan_of_plain`, `Stencil.scan_lead_token`, `Stencil.scan_lead_opener`),
and a property of all texts is proved form by form
(`Stencil.Text.form_induction`). Nothing after this file opens `Stencil.scan`.

The two directions of the correspondence between texts and canonical lists follow:

* the pieces of a text are a canonical list that spells the text
  (`Stencil.canonical_scan`, `Stencil.sources_scan`), by induction on the form;
* a canonical list is the list of pieces of the text it spells
  (`Stencil.scan_sources`), by recursion on the list, where each canonical list
  *is* one of the three forms: its first piece, with the plain text in front of
  it, is what the first cut finds.
-/

namespace Stencil

namespace Piece

/-! ### The text of a list -/

@[simp] theorem sources_nil : sources [] = [] := rfl

@[simp] theorem sources_cons (p : Piece) (ps : List Piece) :
    sources (p :: ps) = p.source ++ sources ps := rfl

@[simp] theorem sources_append (ps qs : List Piece) :
    sources (ps ++ qs) = sources ps ++ sources qs := List.flatMap_append

theorem plain_of_ne_nil {s : Text} (h : s ≠ []) : plain s = [text s] := by
  cases s with
  | nil => exact absurd rfl h
  | cons c s => rfl

@[simp] theorem sources_plain (s : Text) : sources (plain s) = s := by
  cases s with
  | nil => rfl
  | cons c s => simp [plain_of_ne_nil, source]

/-- A token starts as an opener with its run does. -/
theorem source_token_append (name : Text) (n : Nat) (rest : Text) :
    (token name n).source ++ rest = (opener n).source ++ (name ++ closing :: rest) := by
  simp [source, literal]

/-! ### Closing braces behind an opener -/

theorem closing_notMem_source_opener (n : Nat) : closing ∉ (opener n).source := by
  rw [source, List.mem_append, not_or]
  exact ⟨notMem_slashes (by decide) n, by decide⟩

/-- A piece may stand behind an opener that is never closed exactly when its text
has no closing brace. -/
theorem leavesOpen_opener_iff {n : Nat} {q : Piece} :
    (opener n).LeavesOpen q ↔ closing ∉ q.source := by
  cases q with
  | text s => exact Iff.rfl
  | token name run => simp [LeavesOpen, source, literal]
  | opener run => exact iff_of_true trivial (closing_notMem_source_opener run)

theorem forall_leavesOpen_opener_iff {n : Nat} {ps : List Piece} :
    (∀ q ∈ ps, (opener n).LeavesOpen q) ↔ closing ∉ sources ps := by
  simp only [leavesOpen_opener_iff, sources, List.mem_flatMap, not_exists, not_and]

/-- Anything may stand behind a token. -/
theorem leavesOpen_token (name : Text) (n : Nat) (q : Piece) : (token name n).LeavesOpen q :=
  trivial

/-- Anything may stand behind plain text. -/
theorem leavesOpen_text (s : Text) (q : Piece) : (text s).LeavesOpen q := trivial

/-! ### Building a canonical list, and taking one apart -/

theorem adjoining_cons_iff {p : Piece} {ps : List Piece} :
    Adjoining (p :: ps) ↔ (∀ q ∈ ps.head?, p.Adjoins q) ∧ Adjoining ps := by
  cases ps with
  | nil => simp [Adjoining]
  | cons q ps => simp [Adjoining]

theorem canonical_nil : Canonical [] := ⟨by simp, trivial, List.Pairwise.nil⟩

/-- **One more piece in front**: it is as cut, goes with its neighbour, and is
not closed by anything behind it. -/
theorem canonical_cons_iff {p : Piece} {ps : List Piece} :
    Canonical (p :: ps) ↔ p.Proper ∧ (∀ q ∈ ps.head?, p.Adjoins q) ∧
      (∀ q ∈ ps, p.LeavesOpen q) ∧ Canonical ps := by
  constructor
  · rintro ⟨hproper, hadj, hopen⟩
    rw [List.forall_mem_cons] at hproper
    rw [adjoining_cons_iff] at hadj
    rw [List.pairwise_cons] at hopen
    exact ⟨hproper.1, hadj.1, hopen.1, hproper.2, hadj.2, hopen.2⟩
  · rintro ⟨hp, hhead, hall, hproper, hadj, hopen⟩
    exact ⟨List.forall_mem_cons.mpr ⟨hp, hproper⟩, adjoining_cons_iff.mpr ⟨hhead, hadj⟩,
      List.pairwise_cons.mpr ⟨hall, hopen⟩⟩

theorem Canonical.tail {p : Piece} {ps : List Piece} (h : Canonical (p :: ps)) : Canonical ps :=
  (canonical_cons_iff.mp h).2.2.2

/-- The end of a canonical list is canonical. -/
theorem Canonical.of_append {ps qs : List Piece} (h : Canonical (ps ++ qs)) : Canonical qs := by
  induction ps with
  | nil => exact h
  | cons p ps ih => exact ih h.tail

/-- Two pieces that meet anywhere in a canonical list may stand side by side. -/
theorem Canonical.adjoins {ps qs : List Piece} {p q : Piece}
    (h : Canonical (ps ++ p :: q :: qs)) : p.Adjoins q :=
  (canonical_cons_iff.mp h.of_append).2.1 q rfl

theorem canonical_cons_token_iff {name : Text} {n : Nat} {ps : List Piece} :
    Canonical (token name n :: ps) ↔ closing ∉ name ∧ Canonical ps := by
  rw [canonical_cons_iff]
  exact ⟨fun h => ⟨h.1, h.2.2.2⟩, fun h =>
    ⟨h.1, fun _ _ => trivial, fun q _ => leavesOpen_token name n q, h.2⟩⟩

theorem canonical_cons_opener_iff {n : Nat} {ps : List Piece} :
    Canonical (opener n :: ps) ↔ closing ∉ sources ps ∧ Canonical ps := by
  rw [canonical_cons_iff, forall_leavesOpen_opener_iff]
  exact ⟨fun h => h.2.2, fun h => ⟨trivial, fun _ _ => trivial, h⟩⟩

/-- Plain text alone. -/
theorem canonical_plain {s : Text} (h : ¬ HasOpening s) : Canonical (plain s) := by
  rcases eq_or_ne s [] with rfl | hne
  · exact canonical_nil
  · rw [plain_of_ne_nil hne, canonical_cons_iff]
    exact ⟨⟨hne, h⟩, by simp, by simp, canonical_nil⟩

/-- The piece has an opener, complete to a token or not. -/
def Opens : Piece → Prop
  | text _ => False
  | _ => True

/-- A lead may stand in front of any piece with an opener. -/
theorem canonical_plain_append {lead : Text} {p : Piece} {ps : List Piece}
    (hlead : Text.IsLead lead) (hp : p.Opens) (h : Canonical (p :: ps)) :
    Canonical (plain lead ++ p :: ps) := by
  rcases eq_or_ne lead [] with rfl | hne
  · exact h
  · rw [plain_of_ne_nil hne, List.singleton_append, canonical_cons_iff]
    refine ⟨⟨hne, hlead.plain⟩, ?_, fun q _ => leavesOpen_text lead q, h⟩
    intro q hq
    rw [List.head?_cons, Option.mem_some_iff] at hq
    subst hq
    cases p with
    | text s => exact hp.elim
    -- what may not stand in front of an opener is a backslash, and a lead ends in none
    | token name n => exact hlead.last
    | opener n => exact hlead.last

/-- Plain text in front of a piece is a lead, and the piece has an opener. -/
theorem Canonical.lead {s : Text} {p : Piece} {ps : List Piece}
    (h : Canonical (text s :: p :: ps)) : s ≠ [] ∧ Text.IsLead s ∧ p.Opens := by
  obtain ⟨⟨hne, hplain⟩, hhead, -, -⟩ := canonical_cons_iff.mp h
  have hadj : (text s).Adjoins p := hhead p rfl
  cases p with
  | text t => exact hadj.elim
  | token name n => exact ⟨hne, ⟨hplain, hadj⟩, trivial⟩
  | opener n => exact ⟨hne, ⟨hplain, hadj⟩, trivial⟩

/-- No piece that is as cut is the piece of an empty text. -/
theorem source_ne_nil {p : Piece} (h : p.Proper) : p.source ≠ [] := by
  cases p with
  | text s => exact h.1
  | token name n => simp [source, literal, opening]
  | opener n => simp [source, opening]

/-! ### Testing a list -/

instance (s : Text) : Decidable (HasOpening s) := inferInstanceAs (Decidable (opening <:+: s))

instance : DecidablePred Proper
  | text _ => inferInstanceAs (Decidable (_ ∧ _))
  | token _ _ => inferInstanceAs (Decidable (_ ∉ _))
  | opener _ => inferInstanceAs (Decidable True)

instance : DecidableRel Adjoins
  | text _, text _ => inferInstanceAs (Decidable False)
  | text _, token _ _ => inferInstanceAs (Decidable (_ ≠ _))
  | text _, opener _ => inferInstanceAs (Decidable (_ ≠ _))
  | token _ _, _ => inferInstanceAs (Decidable True)
  | opener _, _ => inferInstanceAs (Decidable True)

instance : DecidableRel LeavesOpen
  | opener _, token _ _ => inferInstanceAs (Decidable False)
  | opener _, text _ => inferInstanceAs (Decidable (_ ∉ _))
  | opener _, opener _ => inferInstanceAs (Decidable True)
  | token _ _, _ => inferInstanceAs (Decidable True)
  | text _, _ => inferInstanceAs (Decidable True)

instance decidableAdjoining : DecidablePred Adjoining
  | [] => inferInstanceAs (Decidable True)
  | [_] => inferInstanceAs (Decidable True)
  | p :: q :: ps =>
    have : Decidable (Adjoining (q :: ps)) := decidableAdjoining (q :: ps)
    inferInstanceAs (Decidable (p.Adjoins q ∧ Adjoining (q :: ps)))

instance : DecidablePred Canonical := fun ps =>
  decidable_of_iff ((∀ p ∈ ps, p.Proper) ∧ Adjoining ps ∧ ps.Pairwise LeavesOpen)
    ⟨fun h => ⟨h.1, h.2.1, h.2.2⟩, fun h => ⟨h.proper, h.adjoining, h.unclosed⟩⟩

end Piece

open Piece Text

/-! ### The three equations -/

theorem scan_of_plain {s : Text} (h : ¬ HasOpening s) : scan s = plain s := by
  rw [scan]
  split
  · rfl
  · next hcut => simp [cutOpening_eq_none h] at hcut

/-- The cut at a first opener: its lead is plain text, the run belongs to the
opener, and only the closing brace is left to be looked for. -/
theorem scan_lead {lead : Text} (hlead : IsLead lead) (n : Nat) (body : Text) :
    scan (lead ++ (slashes n ++ (opening ++ body))) =
      plain lead ++ match body.cutClosing with
        | some (name, rest) => token name n :: scan rest
        | none => opener n :: scan body := by
  have hplain : ¬ HasOpening (lead ++ slashes n) :=
    (hasOpening_append_slashes_iff lead n).not.mpr hlead.plain
  have htake : (lead ++ slashes n).take ((lead ++ slashes n).length - n) = lead := by simp
  rw [← List.append_assoc, scan]
  split
  · next hcut =>
    rw [cutOpening_append hplain] at hcut
    cases hcut
  · next a b hcut =>
    rw [cutOpening_append hplain, Option.some.injEq, Prod.mk.injEq] at hcut
    obtain ⟨rfl, rfl⟩ := hcut
    dsimp only
    rw [trailingSlashes_append_slashes hlead.last, htake]
    split
    · next name rest hclose => rw [hclose]
    · next hclose => rw [hclose]

/-- **A first opener that is closed** makes a token, and the cut goes on behind it. -/
theorem scan_lead_token {lead name : Text} (hlead : IsLead lead) (hname : closing ∉ name)
    (n : Nat) (rest : Text) :
    scan (lead ++ ((token name n).source ++ rest)) = plain lead ++ token name n :: scan rest := by
  rw [source_token_append, source, List.append_assoc, scan_lead hlead, cutClosing_append hname]

/-- **A first opener that is never closed** is a piece of its own, and the cut goes
on right behind it. -/
theorem scan_lead_opener {lead body : Text} (hlead : IsLead lead) (hbody : closing ∉ body)
    (n : Nat) :
    scan (lead ++ ((opener n).source ++ body)) = plain lead ++ opener n :: scan body := by
  rw [source, List.append_assoc, scan_lead hlead, cutClosing_eq_none hbody]

/-- **Induction on the form of a text**: what holds of plain text, and of a text
whenever it holds of the part behind the first token or the first opener that is
never closed, holds of every text. -/
@[elab_as_elim]
theorem Text.form_induction {motive : Text → Prop}
    (plain : ∀ s, ¬ HasOpening s → motive s)
    (token : ∀ lead name n rest, IsLead lead → closing ∉ name → motive rest →
      motive (lead ++ ((token name n).source ++ rest)))
    (opener : ∀ lead n body, IsLead lead → closing ∉ body → motive body →
      motive (lead ++ ((opener n).source ++ body)))
    (s : Text) : motive s := by
  induction hlen : s.length using Nat.strongRecOn generalizing s with
  | _ len ih =>
    subst hlen
    rcases forms s with hs | ⟨lead, n, name, rest, hlead, hname, rfl⟩ |
      ⟨lead, n, body, hlead, hbody, rfl⟩
    · exact plain s hs
    · refine token lead name n rest hlead hname (ih _ ?_ rest rfl)
      simp [source, literal, opening]
      omega
    · refine opener lead n body hlead hbody (ih _ ?_ body rfl)
      simp [source, opening]
      omega

/-! ### From texts to lists -/

/-- **Nothing is lost**: the pieces of a text spell it. -/
theorem sources_scan (s : Text) : sources (scan s) = s := by
  induction s using Text.form_induction with
  | plain s hs => rw [scan_of_plain hs, sources_plain]
  | token lead name n rest hlead hname ih =>
    rw [scan_lead_token hlead hname, sources_append, sources_plain, sources_cons, ih]
  | opener lead n body hlead hbody ih =>
    rw [scan_lead_opener hlead hbody, sources_append, sources_plain, sources_cons, ih]

/-- Texts with the same pieces are equal. -/
theorem scan_inj {s t : Text} : scan s = scan t ↔ s = t := by
  refine ⟨fun h => ?_, congrArg scan⟩
  rw [← sources_scan s, h, sources_scan]

/-- **The pieces of a text are a canonical list.** -/
theorem canonical_scan (s : Text) : Canonical (scan s) := by
  induction s using Text.form_induction with
  | plain s hs =>
    rw [scan_of_plain hs]
    exact canonical_plain hs
  | token lead name n rest hlead hname ih =>
    rw [scan_lead_token hlead hname]
    exact canonical_plain_append hlead trivial (canonical_cons_token_iff.mpr ⟨hname, ih⟩)
  | opener lead n body hlead hbody ih =>
    rw [scan_lead_opener hlead hbody]
    refine canonical_plain_append hlead trivial (canonical_cons_opener_iff.mpr ⟨?_, ih⟩)
    -- the pieces of the rest spell the rest, in which no brace was found
    rwa [sources_scan]

/-! ### From lists to texts -/

/-- **A canonical list is the list of pieces of the text it spells.** The recursion
takes off a piece with an opener and the plain text in front of it at once, since
the first cut finds both. -/
theorem scan_sources : ∀ {ps : List Piece}, Canonical ps → scan (sources ps) = ps
  | [], _ => scan_of_plain not_hasOpening_nil
  | [text s], h => by
    obtain ⟨hne, hplain⟩ := (canonical_cons_iff.mp h).1
    have hs : sources [text s] = s := List.append_nil s
    rw [hs, scan_of_plain hplain, plain_of_ne_nil hne]
  | token name n :: ps, h => by
    obtain ⟨hname, hps⟩ := canonical_cons_token_iff.mp h
    have hscan := scan_lead_token isLead_nil hname n (sources ps)
    rw [scan_sources hps] at hscan
    exact hscan
  | opener n :: ps, h => by
    obtain ⟨hclosing, hps⟩ := canonical_cons_opener_iff.mp h
    have hscan := scan_lead_opener isLead_nil hclosing n
    rw [scan_sources hps] at hscan
    exact hscan
  | text s :: text t :: ps, h => h.lead.2.2.elim
  | text s :: token name n :: ps, h => by
    obtain ⟨hne, hlead, -⟩ := h.lead
    obtain ⟨hname, hps⟩ := canonical_cons_token_iff.mp h.tail
    have hscan := scan_lead_token hlead hname n (sources ps)
    rw [scan_sources hps, plain_of_ne_nil hne] at hscan
    exact hscan
  | text s :: opener n :: ps, h => by
    obtain ⟨hne, hlead, -⟩ := h.lead
    obtain ⟨hclosing, hps⟩ := canonical_cons_opener_iff.mp h.tail
    have hscan := scan_lead_opener hlead hclosing n
    rw [scan_sources hps, plain_of_ne_nil hne] at hscan
    exact hscan

end Stencil
