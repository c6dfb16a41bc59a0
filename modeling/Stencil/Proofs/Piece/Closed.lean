import Stencil.Proofs.Expansion

/-!
# Openers that are closed

Whether a text has an unescaped token is in general a question about its pieces. For some
texts it is a simpler one. If backslashes come in pairs, or stand in front of something other
than a dollar sign (`Stencil.Text.Paired`), then the run in front of an opener is even,
nothing is escaped, and it only matters whether an opener has a closing brace anywhere behind
it (`Stencil.Piece.HasClosed`). Which opener, and which brace, does not matter: what stands
behind some opener stands behind the first one too.

For a text that is put together from parts, one has to know three things of each part:
whether it has an opener, whether it has a closing brace, and whether it has the one behind
the other (`Stencil.Piece.hasClosed_append_iff`). Parts of which the same is known are
**alike** (`Stencil.Piece.Alike`), and one may stand for the other, as long as no opener is
made at a seam.
-/

namespace Stencil

namespace Piece

/-! ### Closed openers -/

/-- An opener of the text has a closing brace somewhere behind it. -/
def HasClosed (s : Text) : Prop := ∃ a b, s = a ++ (opening ++ b) ∧ closing ∈ b

theorem HasClosed.hasOpening {s : Text} (h : HasClosed s) : HasOpening s := by
  obtain ⟨a, b, rfl, -⟩ := h
  exact ⟨a, b, List.append_assoc a opening b⟩

theorem HasClosed.closing_mem {s : Text} (h : HasClosed s) : closing ∈ s := by
  obtain ⟨a, b, rfl, hb⟩ := h
  simp [hb]

/-- No dollar sign at the end of the first text meets a brace at the start of the second. -/
def Separate (s t : Text) : Prop := ¬ (s.getLast? = some '$' ∧ t.head? = some '{')

theorem separate_of_getLast? {s : Text} (h : s.getLast? ≠ some '$') (t : Text) : Separate s t :=
  fun hmeet => h hmeet.1

theorem separate_of_head? {t : Text} (h : t.head? ≠ some '{') (s : Text) : Separate s t :=
  fun hmeet => h hmeet.2

/-- An opener of the whole is an opener of a part. -/
theorem Separate.hasOpening_append_iff {s t : Text} (h : Separate s t) :
    HasOpening (s ++ t) ↔ HasOpening s ∨ HasOpening t := by
  rw [Piece.hasOpening_append_iff, or_iff_left h]

/-- **Where a closed opener comes from**: from one of two parts, or from an opener of the
first and a closing brace of the second. -/
theorem Separate.hasClosed_append_iff {s t : Text} (h : Separate s t) :
    HasClosed (s ++ t) ↔ HasClosed s ∨ HasClosed t ∨ (HasOpening s ∧ closing ∈ t) := by
  constructor
  · rintro ⟨a, b, heq, hb⟩
    rcases List.append_eq_append_iff.mp heq with ⟨c, rfl, hc⟩ | ⟨c, rfl, hc⟩
    · exact Or.inr (Or.inl ⟨c, b, hc, hb⟩)
    · -- the first part ends behind the opener, in front of it, or between its two characters
      match c, hc with
      | [], hc => exact Or.inr (Or.inl ⟨[], b, hc.symm, hb⟩)
      | [d], hc =>
        obtain ⟨rfl, rfl⟩ := List.cons.inj hc
        exact absurd ⟨by simp, rfl⟩ h
      | d :: d' :: c, hc =>
        obtain ⟨rfl, htail⟩ := List.cons.inj hc
        obtain ⟨rfl, rfl⟩ := List.cons.inj htail
        rcases List.mem_append.mp hb with hb | hb
        · exact Or.inl ⟨a, c, rfl, hb⟩
        · exact Or.inr (Or.inr ⟨⟨a, c, List.append_assoc a opening c⟩, hb⟩)
  · rintro (⟨a, b, rfl, hb⟩ | ⟨a, b, rfl, hb⟩ | ⟨⟨a, b, rfl⟩, ht⟩)
    · exact ⟨a, b ++ t, by simp, List.mem_append_left t hb⟩
    · exact ⟨s ++ a, b, by simp, hb⟩
    · exact ⟨a, b ++ t, by simp, List.mem_append_right b ht⟩

/-! ### Parts that are alike -/

/-- **Nothing that matters tells the two texts apart**: openers, closing braces, and whether
one of the braces stands behind one of the openers. -/
structure Alike (s t : Text) : Prop where
  /-- Both have an opener, or none has. -/
  opening : HasOpening s ↔ HasOpening t
  /-- Both have a closing brace, or none has. -/
  closing : closing ∈ s ↔ closing ∈ t
  /-- Both have an opener that is closed, or none has. -/
  closed : HasClosed s ↔ HasClosed t

theorem Alike.refl (s : Text) : Alike s s := ⟨Iff.rfl, Iff.rfl, Iff.rfl⟩

theorem Alike.symm {s t : Text} (h : Alike s t) : Alike t s :=
  ⟨h.opening.symm, h.closing.symm, h.closed.symm⟩

theorem Alike.trans {s t u : Text} (h : Alike s t) (h' : Alike t u) : Alike s u :=
  ⟨h.opening.trans h'.opening, h.closing.trans h'.closing, h.closed.trans h'.closed⟩

/-- **Parts may be exchanged for parts that are alike.** -/
theorem Alike.append {s s' t t' : Text} (hs : Alike s s') (ht : Alike t t')
    (h : Separate s t) (h' : Separate s' t') : Alike (s ++ t) (s' ++ t') := by
  refine ⟨?_, ?_, ?_⟩
  · rw [h.hasOpening_append_iff, h'.hasOpening_append_iff, hs.opening, ht.opening]
  · rw [List.mem_append, List.mem_append, hs.closing, ht.closing]
  · rw [h.hasClosed_append_iff, h'.hasClosed_append_iff, hs.closed, ht.closed, hs.opening,
      ht.closing]

/-- **Backslashes in front of a text do not matter.** -/
theorem alike_slashes_append (n : Nat) (t : Text) : Alike (slashes n ++ t) t := by
  have hopening : ¬ HasOpening (slashes n) :=
    not_hasOpening_of_notMem (notMem_slashes (by decide) n)
  have hslashes : Alike (slashes n) [] :=
    ⟨iff_of_false hopening not_hasOpening_nil,
      iff_of_false (notMem_slashes (by decide) n) List.not_mem_nil,
      iff_of_false (fun h => hopening h.hasOpening) fun h => not_hasOpening_nil h.hasOpening⟩
  have hlast : (slashes n).getLast? ≠ some '$' :=
    fun h => notMem_slashes (by decide) n (List.mem_of_getLast? h)
  exact hslashes.append (Alike.refl t) (separate_of_getLast? hlast t) (by simp [Separate])

end Piece

/-! ### Paired backslashes -/

namespace Text

open Piece

/-- **No backslash stands alone in front of a dollar sign**: read from the left, each one
takes the next character with it, and this is never a dollar sign. -/
inductive Paired : Text → Prop
  /-- There is none in the empty text. -/
  | nil : Paired []
  /-- A character that is no backslash stands for itself. -/
  | char {c : Char} {s : Text} : c ≠ '\\' → Paired s → Paired (c :: s)
  /-- A backslash and the character behind it. -/
  | pair {c : Char} {s : Text} : c ≠ '$' → Paired s → Paired ('\\' :: c :: s)

theorem Paired.append {s t : Text} (hs : Paired s) (ht : Paired t) : Paired (s ++ t) := by
  induction hs with
  | nil => exact ht
  | char hc _ ih => exact .char hc ih
  | pair hc _ ih => exact .pair hc ih

theorem paired_of_notMem {s : Text} (h : '\\' ∉ s) : Paired s := by
  induction s with
  | nil => exact .nil
  | cons c s ih =>
    rw [List.mem_cons, not_or] at h
    exact .char (Ne.symm h.1) (ih h.2)

theorem paired_flatMap {α : Type} {xs : List α} {f : α → Text} (h : ∀ x ∈ xs, Paired (f x)) :
    Paired (xs.flatMap f) := by
  induction xs with
  | nil => exact .nil
  | cons x xs ih =>
    rw [List.forall_mem_cons] at h
    exact h.1.append (ih h.2)

/-- What stands behind a character that is no backslash is read from its start. -/
theorem Paired.of_append {s t : Text} (h : Paired (s ++ t)) (hlast : s.getLast? ≠ some '\\') :
    Paired t := by
  match s, h with
  | [], h => exact h
  | [c], h =>
    cases h with
    | char _ ht => exact ht
    | pair _ _ => exact absurd rfl hlast
  | c :: d :: s, h =>
    rw [List.getLast?_cons_cons] at hlast
    cases h with
    | char _ ht => exact Paired.of_append ht hlast
    | pair _ ht =>
      cases s with
      | nil => exact ht
      | cons d' s =>
        rw [List.getLast?_cons_cons] at hlast
        exact Paired.of_append ht hlast

/-- **A run in front of a dollar sign is even.** -/
theorem Paired.even_run {s : Text} : ∀ {n : Nat}, Paired (slashes n ++ '$' :: s) → n % 2 = 0
  | 0, _ => rfl
  | 1, h => by
    cases h with
    | char hc _ => exact absurd rfl hc
    | pair hc _ => exact absurd rfl hc
  | n + 2, h => by
    cases h with
    | char hc _ => exact absurd rfl hc
    | pair _ h =>
      rw [Nat.add_mod_right]
      exact Paired.even_run h

/-- **Where backslashes are paired, nothing is escaped**: there is an unescaped token exactly
when some opener has a closing brace behind it. -/
theorem Paired.hasUnescapedToken_iff {s : Text} (h : Paired s) :
    hasUnescapedToken s = true ↔ HasClosed s := by
  rcases forms s with hs | ⟨lead, n, name, rest, hlead, hname, rfl⟩ |
    ⟨lead, n, body, hlead, hbody, rfl⟩
  · rw [hasUnescapedToken_of_plain hs]
    exact iff_of_false nofun fun hclosed => hs hclosed.hasOpening
  · have heven : n % 2 = 0 := by
      have hrun := h.of_append hlead.last
      rw [source, literal, opening, List.append_assoc] at hrun
      exact hrun.even_run
    rw [hasUnescapedToken_lead_token hlead hname]
    refine iff_of_true (by simp [heven]) ⟨lead ++ slashes n, name ++ closing :: rest, ?_, by simp⟩
    simp [source, literal]
  · -- no closing brace stands behind the first opener, hence none behind a later one
    have hopener : ¬ HasClosed ((opener n).source ++ body) := by
      intro hclosed
      have hmem := hclosed.closing_mem
      rw [List.mem_append] at hmem
      exact hmem.elim (closing_notMem_source_opener n) hbody
    have hseparate : Separate lead ((opener n).source ++ body) := by
      refine separate_of_head? ?_ lead
      cases n <;> simp [source, opening, slashes_succ]
    rw [hasUnescapedToken_lead_opener hlead hbody, hseparate.hasClosed_append_iff]
    refine iff_of_false nofun ?_
    rintro (hclosed | hclosed | ⟨hopening, -⟩)
    · exact hlead.plain hclosed.hasOpening
    · exact hopener hclosed
    · exact hlead.plain hopening

end Text

end Stencil
