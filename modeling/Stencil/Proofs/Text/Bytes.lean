import Stencil.Piece.Cursor
import Stencil.Proofs.Text.Cut

/-!
# The bytes of a text

A text may be searched byte by byte as well as character by character, because an
ASCII byte in the encoding of a text *is* a character: every byte of a longer
character is at least `0x80` (`Stencil.Text.le_of_mem_utf8EncodeChar`). So the
byte of an ASCII character occurs in the encoding of that character only, and the
searches for the opener, for the closing brace and for the run of backslashes find
on the bytes what they find on the characters, at the offset that is the size of
the part in front.

Offsets that are sizes of initial parts are character boundaries, and the text may
be cut there (`Stencil.Text.dropBytes?_append`, `Stencil.Text.takeBytes?_append`).
-/

namespace Stencil

namespace Text

open Piece

/-! ### Sizes and encodings of parts -/

@[simp] theorem utf8_append (s t : Text) : utf8 (s ++ t) = utf8 s ++ utf8 t :=
  List.flatMap_append

@[simp] theorem utf8_cons (c : Char) (s : Text) :
    utf8 (c :: s) = String.utf8EncodeChar c ++ utf8 s := rfl

@[simp] theorem utf8Size_cons (c : Char) (s : Text) :
    utf8Size (c :: s) = c.utf8Size + utf8Size s := rfl

@[simp] theorem utf8Size_append (s t : Text) : utf8Size (s ++ t) = utf8Size s + utf8Size t := by
  induction s with
  | nil => exact (Nat.zero_add _).symm
  | cons c s ih => rw [List.cons_append, utf8Size_cons, utf8Size_cons, ih, Nat.add_assoc]

theorem length_utf8 (s : Text) : (utf8 s).length = utf8Size s := by
  induction s with
  | nil => rfl
  | cons c s ih =>
    rw [utf8_cons, List.length_append, String.length_utf8EncodeChar, ih, utf8Size_cons]

theorem utf8Size_pos {s : Text} (h : s ≠ []) : 0 < utf8Size s := by
  cases s with
  | nil => exact absurd rfl h
  | cons c s =>
    rw [utf8Size_cons]
    exact Nat.add_pos_left c.utf8Size_pos _

theorem utf8_slashes (n : Nat) : utf8 (slashes n) = List.replicate n 0x5C := by
  induction n with
  | zero => rfl
  | succ n ih =>
    rw [slashes_succ, utf8_cons, ih]
    rfl

theorem utf8Size_slashes (n : Nat) : utf8Size (slashes n) = n := by
  rw [← length_utf8, utf8_slashes, List.length_replicate]

theorem utf8Size_opening : utf8Size opening = 2 := rfl

/-! ### Cuts at the end of a part -/

theorem dropBytes?_cons_size (c : Char) (s : Text) (n : Nat) :
    dropBytes? (c :: s) (c.utf8Size + n) = dropBytes? s n := by
  obtain ⟨k, hk⟩ := Nat.exists_eq_add_one_of_ne_zero (Nat.ne_of_gt c.utf8Size_pos)
  rw [show c.utf8Size + n = k + n + 1 by omega, dropBytes?, if_pos (by omega)]
  exact congrArg (dropBytes? s) (by omega)

theorem takeBytes?_cons_size (c : Char) (s : Text) (n : Nat) :
    takeBytes? (c :: s) (c.utf8Size + n) = (takeBytes? s n).map (c :: ·) := by
  obtain ⟨k, hk⟩ := Nat.exists_eq_add_one_of_ne_zero (Nat.ne_of_gt c.utf8Size_pos)
  rw [show c.utf8Size + n = k + n + 1 by omega, takeBytes?, if_pos (by omega)]
  exact congrArg (fun m => (takeBytes? s m).map (c :: ·)) (by omega)

/-- **The end of a part is a place where a text may be cut**, to keep what follows. -/
theorem dropBytes?_append (s t : Text) : (s ++ t).dropBytes? (utf8Size s) = some t := by
  induction s with
  | nil => cases t <;> rfl
  | cons c s ih => rw [List.cons_append, utf8Size_cons, dropBytes?_cons_size, ih]

/-- **The end of a part is a place where a text may be cut**, to keep the part. -/
theorem takeBytes?_append (s t : Text) : (s ++ t).takeBytes? (utf8Size s) = some s := by
  induction s with
  | nil => cases t <;> rfl
  | cons c s ih => rw [List.cons_append, utf8Size_cons, takeBytes?_cons_size, ih, Option.map_some]

/-- **Where a text is cut, to keep what follows**: behind a part of the size. -/
theorem dropBytes?_eq_some_iff {s t : Text} {n : Nat} :
    s.dropBytes? n = some t ↔ ∃ a, s = a ++ t ∧ utf8Size a = n := by
  constructor
  · intro h
    fun_induction dropBytes? s n with
    | case1 s => exact ⟨[], Option.some_inj.mp h, rfl⟩
    | case2 n => cases h
    | case3 c s n hle ih =>
      obtain ⟨a, rfl, ha⟩ := ih h
      refine ⟨c :: a, rfl, ?_⟩
      rw [utf8Size_cons, ha]
      omega
    | case4 c s n hlt => cases h
  · rintro ⟨a, rfl, rfl⟩
    exact dropBytes?_append a t

/-- **A character boundary**: the offset is the size of a part that the text starts with. -/
def Boundary (s : Text) (n : Nat) : Prop := ∃ a b, s = a ++ b ∧ utf8Size a = n

theorem Boundary.le {s : Text} {n : Nat} (h : s.Boundary n) : n ≤ utf8Size s := by
  obtain ⟨a, b, rfl, rfl⟩ := h
  rw [utf8Size_append]
  exact Nat.le_add_right _ _

/-- **A text may be cut at its character boundaries**, and nowhere else. -/
theorem boundary_iff_isSome_dropBytes? {s : Text} {n : Nat} :
    s.Boundary n ↔ (s.dropBytes? n).isSome := by
  simp only [Option.isSome_iff_exists, dropBytes?_eq_some_iff]
  exact ⟨fun ⟨a, b, hs, ha⟩ => ⟨b, a, hs, ha⟩, fun ⟨b, a, hs, ha⟩ => ⟨a, b, hs, ha⟩⟩

theorem take_utf8_append (s t : Text) : (utf8 (s ++ t)).take (utf8Size s) = utf8 s := by
  rw [utf8_append, ← length_utf8, List.take_left]

/-! ### ASCII bytes are characters -/

/-- **The bytes of a longer character** are no ASCII bytes. -/
theorem le_of_mem_utf8EncodeChar {c : Char} (hc : 128 ≤ c.toNat) {b : UInt8}
    (hb : b ∈ String.utf8EncodeChar c) : 128 ≤ b.toNat := by
  have hlt : ¬ c.val.toNat ≤ 127 := Nat.not_le.mpr hc
  simp only [String.utf8EncodeChar, if_neg hlt] at hb
  split at hb
  · simp only [List.mem_cons, List.not_mem_nil, or_false] at hb
    rcases hb with rfl | rfl <;> simp <;> omega
  · split at hb
    · simp only [List.mem_cons, List.not_mem_nil, or_false] at hb
      rcases hb with rfl | rfl | rfl <;> simp <;> omega
    · simp only [List.mem_cons, List.not_mem_nil, or_false] at hb
      rcases hb with rfl | rfl | rfl | rfl <;> simp <;> omega

theorem utf8EncodeChar_of_lt {c : Char} (hc : c.toNat < 128) :
    String.utf8EncodeChar c = [UInt8.ofNat c.toNat] :=
  if_pos (Nat.le_of_lt_succ hc)

/-- **An ASCII byte is a character**: it occurs in the encoding of no other one. -/
theorem notMem_utf8EncodeChar {a c : Char} (ha : a.toNat < 128) (h : c ≠ a) :
    UInt8.ofNat a.toNat ∉ String.utf8EncodeChar c := by
  intro hb
  have hbyte : (UInt8.ofNat a.toNat).toNat = a.toNat := by
    rw [UInt8.toNat_ofNat']
    omega
  rcases Nat.lt_or_ge c.toNat 128 with hc | hc
  · rw [utf8EncodeChar_of_lt hc, List.mem_singleton] at hb
    have hnat := congrArg UInt8.toNat hb
    rw [hbyte, UInt8.toNat_ofNat'] at hnat
    exact h (Char.toNat_inj.mp (by omega))
  · have := le_of_mem_utf8EncodeChar hc hb
    omega

theorem head?_utf8_eq_some_iff (s : Text) : (utf8 s).head? = some 0x7B ↔ s.head? = some '{' := by
  cases s with
  | nil => simp [utf8]
  | cons c s =>
    obtain ⟨b, bs, hbs⟩ := List.exists_cons_of_ne_nil (String.utf8EncodeChar_ne_nil (c := c))
    rw [List.head?_cons]
    constructor
    · intro hhead
      by_contra hc
      refine notMem_utf8EncodeChar (a := '{') (by decide) (fun h => hc (congrArg some h)) ?_
      rw [utf8_cons, hbs, List.cons_append, List.head?_cons, Option.some_inj] at hhead
      rw [hbs, hhead]
      exact List.mem_cons_self
    · intro hc
      cases hc
      rfl

theorem getLast?_utf8_ne {s : Text} (h : s.getLast? ≠ some '\\') :
    (utf8 s).getLast? ≠ some 0x5C := by
  rcases List.eq_nil_or_concat s with rfl | ⟨t, c, rfl⟩
  · simp [utf8]
  · have hc : c ≠ '\\' := by simpa using h
    have hbytes : utf8 (t.concat c) = utf8 t ++ String.utf8EncodeChar c := by
      rw [List.concat_eq_append, utf8_append]
      exact congrArg (utf8 t ++ ·) (List.append_nil _)
    rw [hbytes, List.getLast?_append, List.getLast?_eq_some_getLast String.utf8EncodeChar_ne_nil,
      Option.some_or]
    intro hlast
    rw [Option.some_inj] at hlast
    have hmem := List.getLast_mem (String.utf8EncodeChar_ne_nil (c := c))
    rw [hlast] at hmem
    exact notMem_utf8EncodeChar (a := '\\') (by decide) hc hmem

end Text

/-! ### The searches on bytes -/

namespace Bytes

open Text Piece

theorem findOpening_cons (b : UInt8) (bs : List UInt8) :
    findOpening (b :: bs) =
      if b = 0x24 ∧ bs.head? = some 0x7B then some 0 else (findOpening bs).map (· + 1) := by
  cases bs with
  | nil => simp [findOpening]
  | cons c bs => simp [findOpening]

theorem findOpening_append {bs : List UInt8} (h : 0x24 ∉ bs) (cs : List UInt8) :
    findOpening (bs ++ cs) = (findOpening cs).map (· + bs.length) := by
  induction bs with
  | nil => simp
  | cons b bs ih =>
    rw [List.mem_cons, not_or] at h
    rw [List.cons_append, findOpening_cons, if_neg fun hb => h.1 hb.1.symm, ih h.2, Option.map_map]
    exact congrArg (fun f => (findOpening cs).map f) (funext fun n => by simp [Nat.add_assoc])

theorem findClosing_append {bs : List UInt8} (h : 0x7D ∉ bs) (cs : List UInt8) :
    findClosing (bs ++ cs) = (findClosing cs).map (· + bs.length) := by
  induction bs with
  | nil => simp
  | cons b bs ih =>
    rw [List.mem_cons, not_or] at h
    rw [List.cons_append, findClosing, if_neg fun hb => h.1 hb.symm, ih h.2, Option.map_map]
    exact congrArg (fun f => (findClosing cs).map f) (funext fun n => by simp [Nat.add_assoc])

/-- **The search for an opener in the bytes** finds the end of the part in front of
the first opener of the text. -/
theorem findOpening_utf8 (s : Text) :
    findOpening (utf8 s) = s.cutOpening.map fun cut => utf8Size cut.1 := by
  induction s with
  | nil => rfl
  | cons c s ih =>
    rcases eq_or_ne c '$' with rfl | hc
    · -- both searches look at what follows the dollar sign: a byte here, a character there
      have hbytes : utf8 ('$' :: s) = 0x24 :: utf8 s := rfl
      rw [hbytes, findOpening_cons]
      rcases Classical.em (s.head? = some '{') with hhead | hhead
      · obtain ⟨t, rfl⟩ := List.head?_eq_some_iff.mp hhead
        rw [if_pos ⟨rfl, (head?_utf8_eq_some_iff _).mpr rfl⟩]
        rfl
      · rw [if_neg fun h => hhead ((head?_utf8_eq_some_iff s).mp h.2),
          cutOpening_cons fun h => hhead h.2, ih, Option.map_map, Option.map_map]
        refine congrArg (fun f => (cutOpening s).map f) (funext fun cut => ?_)
        exact Nat.add_comm _ 1
    · -- no byte of another character is the byte of a dollar sign, so all of them are passed
      rw [utf8_cons, findOpening_append (notMem_utf8EncodeChar (a := '$') (by decide) hc),
        cutOpening_cons fun h => hc h.1, ih, Option.map_map, Option.map_map,
        String.length_utf8EncodeChar]
      refine congrArg (fun f => (cutOpening s).map f) (funext fun cut => ?_)
      exact (Nat.add_comm _ _).trans (utf8Size_cons c cut.1).symm

/-- **The search for a closing brace in the bytes** finds the end of the part in
front of the first one. -/
theorem findClosing_utf8 (s : Text) :
    findClosing (utf8 s) = s.cutClosing.map fun cut => utf8Size cut.1 := by
  induction s with
  | nil => rfl
  | cons c s ih =>
    rcases eq_or_ne c closing with rfl | hc
    · rfl
    · rw [utf8_cons, findClosing_append (notMem_utf8EncodeChar (a := closing) (by decide) hc),
        cutClosing.eq_3 c s hc, ih, Option.map_map, Option.map_map, String.length_utf8EncodeChar]
      refine congrArg (fun f => (cutClosing s).map f) (funext fun cut => ?_)
      exact (Nat.add_comm _ _).trans (utf8Size_cons c cut.1).symm

/-- **The backslashes counted backwards in the bytes** are the run that the text
ends in. -/
theorem trailingSlashes_utf8 (s : Text) : trailingSlashes (utf8 s) = s.trailingSlashes := by
  obtain ⟨t, n, ht, rfl⟩ := exists_eq_append_slashes s
  rw [trailingSlashes_append_slashes ht, utf8_append, utf8_slashes]
  exact length_takeWhile_reverse_append_replicate (getLast?_utf8_ne ht) n

end Bytes

end Stencil
