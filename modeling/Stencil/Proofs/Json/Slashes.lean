import Stencil.Proofs.Json.Number
import Stencil.Proofs.Json.Printer
import Stencil.Proofs.Json.Value
import Stencil.Proofs.Piece.Closed

/-!
# Backslashes in written values

A string of a JSON document may contain any text, and the writer puts a backslash in front of
each quote, each backslash and some control characters. So the backslashes of what is written
are paired (`Stencil.Json.Value.paired_write`): those of the text are doubled, and the others
stand in front of a quote or a letter. A dollar sign is written as it is. Hence a backslash
in a string or a key does not escape an opener behind it, and any number of backslashes
there may be replaced by any other number without changing what a written collection is
(`Stencil.Json.Value.Reslashed.alike`).

For an object it does not even matter where an opener stands. Its own closing brace stands
behind all of them (`Stencil.Json.Value.hasClosed_object_iff`), and the members may change
their order, as they do when a key changes.
-/

namespace Stencil

open Piece Text

/-! ### Numbers have no backslash -/

theorem Text.slash_notMem_ofNat (n : Nat) : '\\' ∉ ofNat n :=
  fun h => absurd (isDigit_of_mem_ofNat h) (by decide)

theorem Text.slash_notMem_ofInt (n : Int) : '\\' ∉ ofInt n := by
  cases n with
  | ofNat n => exact slash_notMem_ofNat n
  | negSucc n =>
    rw [ofInt, List.mem_cons, not_or]
    exact ⟨by decide, slash_notMem_ofNat (n + 1)⟩

namespace Decimal

theorem slash_notMem_positional (d : Decimal) : '\\' ∉ d.positional := by
  have hdigits := slash_notMem_ofNat d.digits
  have htake (n : Nat) : '\\' ∉ (Text.ofNat d.digits).take n := fun h =>
    hdigits (List.mem_of_mem_take h)
  have hdrop (n : Nat) : '\\' ∉ (Text.ofNat d.digits).drop n := fun h =>
    hdigits (List.mem_of_mem_drop h)
  rw [positional]
  split
  · simp [hdigits]
  · split
    · simp [htake, hdrop]
    · simp [hdigits]

theorem slash_notMem_scientific (d : Decimal) : '\\' ∉ d.scientific := by
  unfold scientific
  extract_lets mark e
  have hdigits := slash_notMem_ofNat d.digits
  have hmark : '\\' ∉ mark := by
    unfold mark
    split
    · exact List.not_mem_nil
    · next hc =>
      rw [hc] at hdigits
      exact hdigits
    · next hcs =>
      rw [hcs, List.mem_cons, not_or] at hdigits
      simp [hdigits]
  have hsign : '\\' ≠ if e < 0 then '-' else '+' := by
    split <;> decide
  rw [List.mem_append, List.mem_cons, List.mem_cons, not_or, not_or, not_or]
  exact ⟨hmark, by decide, hsign, slash_notMem_ofNat e.natAbs⟩

/-- A number is written without backslashes if the mark of whole numbers has none. -/
theorem slash_notMem_write {style : Style} (h : '\\' ∉ style.wholeMark) (x : Binary64.Finite) :
    '\\' ∉ style.write x := by
  unfold Style.write
  extract_lets d fixed size
  have hfixed : '\\' ∉ fixed := by
    rw [List.mem_append, not_or]
    refine ⟨slash_notMem_positional d, ?_⟩
    split
    · exact h
    · exact List.not_mem_nil
  have hsize : '\\' ∉ size := by
    unfold size
    split
    · exact hfixed
    · split
      · exact hfixed
      · exact slash_notMem_scientific d
  split
  · rw [List.mem_cons, not_or]
    exact ⟨by decide, hsize⟩
  · exact hsize

end Decimal

namespace Json

/-! ### Strings -/

theorem slash_ne_digitChar : ∀ n < 16, '\\' ≠ Nat.digitChar n := by decide

theorem paired_escapeChar (c : Char) : Paired (escapeChar c) := by
  unfold escapeChar
  -- a backslash and the character behind it: the two that are escaped, and five letters
  iterate 7
    split
    · exact .pair (by decide) .nil
  split
  · next hcontrol =>
    refine .pair (by decide) (paired_of_notMem ?_)
    simp [hexDigit, slash_ne_digitChar (c.toNat / 16) (by omega),
      slash_ne_digitChar (c.toNat % 16) (by omega)]
  · next _ hslash _ _ _ _ _ _ => exact .char hslash .nil

theorem paired_quote (s : Text) : Paired (quote s) := by
  refine Paired.append (.char (by decide) (paired_flatMap fun c _ => paired_escapeChar c)) ?_
  exact .char (by decide) .nil

namespace Value

/-! ### Values -/

theorem paired_writeMember {m : Text × Value} (h : Paired m.2.write) :
    Paired (writeMember m) :=
  (paired_quote m.1).append (.char (by decide) h)

/-- **The backslashes of a written value are paired.** -/
theorem paired_write (v : Value) : Paired v.write := by
  induction v with
  | null => exact paired_of_notMem (by decide)
  | bool b => cases b <;> exact paired_of_notMem (by decide)
  | integer n fits => exact paired_of_notMem (slash_notMem_ofInt n)
  | float x =>
    have hmark : '\\' ∉ numberStyle.wholeMark := by decide
    exact paired_of_notMem (Decimal.slash_notMem_write hmark x)
  | string s => exact paired_quote s
  | array items ih =>
    have hitems : Paired (writeItems items) := by
      cases items with
      | nil => exact .nil
      | cons v vs =>
        rw [List.forall_mem_cons] at ih
        rw [writeItems_cons]
        exact ih.1.append (paired_flatMap fun w hw => .char (by decide) (ih.2 w hw))
    exact Paired.append (.char (by decide) hitems) (.char (by decide) .nil)
  | object members ih =>
    have hmembers : Paired (writeMembers members) := by
      cases members with
      | nil => exact .nil
      | cons m ms =>
        rw [List.forall_mem_cons] at ih
        rw [writeMembers_cons]
        exact (paired_writeMember ih.1).append
          (paired_flatMap fun l hl => .char (by decide) (paired_writeMember (ih.2 l hl)))
    exact Paired.append (.char (by decide) hmembers) (.char (by decide) .nil)

/-! ### Openers in objects -/

/-- A row of parts behind commas has an opener exactly when a part has one. -/
theorem hasOpening_flatMap_comma_iff {α : Type} {xs : List α} {f : α → Text} :
    HasOpening (xs.flatMap fun x => ',' :: f x) ↔ ∃ x ∈ xs, HasOpening (f x) := by
  induction xs with
  | nil => simp [not_hasOpening_nil]
  | cons x xs ih =>
    have hseparate : Separate (',' :: f x) (xs.flatMap fun x => ',' :: f x) := by
      refine separate_of_head? ?_ _
      cases xs <;> simp
    rw [List.flatMap_cons, hseparate.hasOpening_append_iff, ih,
      hasOpening_cons_of_ne (by decide), List.exists_mem_cons_iff]

/-- **An object has an opener** exactly when one of its members has one. -/
theorem hasOpening_object_iff {ms : Entries Value} :
    HasOpening (object ms).write ↔ ∃ m ∈ ms, HasOpening (writeMember m) := by
  have hmembers : HasOpening (writeMembers ms) ↔ ∃ m ∈ ms, HasOpening (writeMember m) := by
    cases ms with
    | nil => simp [writeMembers, not_hasOpening_nil]
    | cons m ms =>
      have hseparate : Separate (writeMember m) (laterMembers ms) := by
        refine separate_of_head? ?_ _
        cases ms <;> simp [laterMembers]
      rw [writeMembers_cons, hseparate.hasOpening_append_iff, laterMembers,
        hasOpening_flatMap_comma_iff, List.exists_mem_cons_iff]
  have hseparate : Separate ('{' :: writeMembers ms) ['}'] := separate_of_head? (by decide) _
  have hbrace : ¬ HasOpening ['}'] := not_hasOpening_of_notMem (by decide)
  rw [write, hseparate.hasOpening_append_iff, hasOpening_cons_of_ne (by decide), hmembers,
    or_iff_left hbrace]

/-- A closing brace ends every object. -/
theorem closing_mem_object (ms : Entries Value) : closing ∈ (object ms).write :=
  List.mem_append_right _ (List.mem_singleton.mpr rfl)

/-- **In an object every opener is closed**, at the latest by the brace of the object. -/
theorem hasClosed_object_iff {ms : Entries Value} :
    HasClosed (object ms).write ↔ HasOpening (object ms).write := by
  have hseparate : Separate ('{' :: writeMembers ms) ['}'] := separate_of_head? (by decide) _
  have hbrace : ¬ HasOpening ['}'] := not_hasOpening_of_notMem (by decide)
  refine ⟨HasClosed.hasOpening, fun h => ?_⟩
  rw [write, hseparate.hasOpening_append_iff, or_iff_left hbrace] at h
  rw [write, hseparate.hasClosed_append_iff]
  exact Or.inr (Or.inr ⟨h, List.mem_singleton.mpr rfl⟩)

end Value

/-! ### Other numbers of backslashes -/

/-- One text is the other with another number of backslashes in front of one opener. -/
inductive ReslashedText : Text → Text → Prop
  /-- In front of the opener stand `n` backslashes instead of `m`. -/
  | mk (a b : Text) (m n : Nat) :
    ReslashedText (a ++ (slashes m ++ (opening ++ b))) (a ++ (slashes n ++ (opening ++ b)))

/-- The backslashes in front of an opener are doubled when they are written, and the opener
stays. -/
theorem quote_slashes_opening (a b : Text) (n : Nat) :
    quote (a ++ (slashes n ++ (opening ++ b))) =
      ('"' :: a.flatMap escapeChar) ++
        (slashes (2 * n) ++ (opening ++ (b.flatMap escapeChar ++ ['"']))) := by
  have hslashes : (slashes n).flatMap escapeChar = slashes (2 * n) := by
    induction n with
    | zero => rfl
    | succ n ih =>
      rw [slashes_succ, List.flatMap_cons, ih, Nat.mul_succ, slashes_succ, slashes_succ]
      rfl
  have hopening : opening.flatMap escapeChar = opening := by decide
  simp only [quote, List.flatMap_append, hslashes, hopening, List.append_assoc, List.cons_append]

/-- **A string is written alike with another number of backslashes** in front of an opener. -/
theorem ReslashedText.alike {s t : Text} (h : ReslashedText s t) :
    Alike (quote s) (quote t) := by
  obtain ⟨a, b, m, n⟩ := h
  have hrest (k : Nat) : Separate ('"' :: a.flatMap escapeChar)
      (slashes k ++ (opening ++ (b.flatMap escapeChar ++ ['"']))) := by
    refine separate_of_head? ?_ _
    cases k <;> simp [opening, slashes_succ]
  rw [quote_slashes_opening, quote_slashes_opening]
  exact (Alike.refl _).append
    ((alike_slashes_append _ _).trans (alike_slashes_append _ _).symm) (hrest _) (hrest _)

namespace Value

/-- **One value is the other with other numbers of backslashes** in front of openers, in its
strings and keys at any depth. The members of an object may have changed their order with
a key. -/
inductive Reslashed : Value → Value → Prop
  /-- Nothing has changed. -/
  | refl (v : Value) : Reslashed v v
  /-- A string has changed. -/
  | string {s t : Text} : ReslashedText s t → Reslashed (string s) (string t)
  /-- An element of a list has changed. -/
  | item {v w : Value} (before after : List Value) : Reslashed v w →
      Reslashed (array (before ++ v :: after)) (array (before ++ w :: after))
  /-- The value of a member has changed. -/
  | value {k : Text} {v w : Value} {rest ms ls : Entries Value} : Reslashed v w →
      ms.Perm ((k, v) :: rest) → ls.Perm ((k, w) :: rest) → Reslashed (object ms) (object ls)
  /-- The key of a member has changed. -/
  | key {k l : Text} {v : Value} {rest ms ls : Entries Value} : ReslashedText k l →
      ms.Perm ((k, v) :: rest) → ls.Perm ((l, v) :: rest) → Reslashed (object ms) (object ls)
  /-- One thing has changed after the other. -/
  | trans {u v w : Value} : Reslashed u v → Reslashed v w → Reslashed u w

theorem hasOpening_writeMember_iff {m : Text × Value} :
    HasOpening (writeMember m) ↔ HasOpening (quote m.1) ∨ HasOpening m.2.write := by
  have hseparate : Separate (quote m.1) (':' :: m.2.write) := separate_of_head? (by simp) _
  rw [writeMember, hseparate.hasOpening_append_iff, hasOpening_cons_of_ne (by decide)]

/-- An element is written between a text that ends in a comma or a bracket and one that
starts with one. -/
theorem exists_write_array_eq (before after : List Value) :
    ∃ p q : Text, p.getLast? ≠ some '$' ∧ q.head? ≠ some '{' ∧
      ∀ v, (array (before ++ v :: after)).write = p ++ (v.write ++ q) := by
  have hafter : (laterItems after ++ [']']).head? ≠ some '{' := by
    cases after <;> simp [laterItems]
  cases before with
  | nil =>
    refine ⟨['['], laterItems after ++ [']'], by decide, hafter, fun v => ?_⟩
    rw [List.nil_append, write, writeItems_cons]
    simp
  | cons w ws =>
    refine ⟨'[' :: w.write ++ laterItems ws ++ [','], laterItems after ++ [']'], ?_, hafter,
      fun v => ?_⟩
    · rw [List.getLast?_concat]
      decide
    · rw [List.cons_append, write, writeItems_cons]
      simp [laterItems]

/-- Objects are written alike if their members have openers alike. -/
theorem alike_object {m l : Text × Value} {rest ms ls : Entries Value}
    (h : HasOpening (writeMember m) ↔ HasOpening (writeMember l)) (hms : ms.Perm (m :: rest))
    (hls : ls.Perm (l :: rest)) : Alike (object ms).write (object ls).write := by
  have hopening : HasOpening (object ms).write ↔ HasOpening (object ls).write := by
    rw [hasOpening_object_iff, hasOpening_object_iff]
    simp only [hms.mem_iff, hls.mem_iff, List.exists_mem_cons_iff, h]
  refine ⟨hopening, iff_of_true (closing_mem_object ms) (closing_mem_object ls), ?_⟩
  rw [hasClosed_object_iff, hasClosed_object_iff, hopening]

/-- **Values are written alike with other numbers of backslashes** in front of openers. -/
theorem Reslashed.alike {v w : Value} (h : v.Reslashed w) : Alike v.write w.write := by
  induction h with
  | refl v => exact Alike.refl _
  | string hst => exact hst.alike
  | @item v w before after _ ih =>
    obtain ⟨p, q, hp, hq, heq⟩ := exists_write_array_eq before after
    rw [heq, heq]
    exact (Alike.refl p).append
      (ih.append (Alike.refl q) (separate_of_head? hq _) (separate_of_head? hq _))
      (separate_of_getLast? hp _) (separate_of_getLast? hp _)
  | value _ hms hls ih =>
    refine alike_object ?_ hms hls
    rw [hasOpening_writeMember_iff, hasOpening_writeMember_iff, ih.opening]
  | key hkl hms hls =>
    refine alike_object ?_ hms hls
    rw [hasOpening_writeMember_iff, hasOpening_writeMember_iff, hkl.alike.opening]
  | trans _ _ ih ih' => exact ih.trans ih'

end Value

end Json

end Stencil
