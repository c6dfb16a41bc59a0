import Stencil.Json.Printer
import Stencil.Proofs.Text.Cut

/-!
# The shape of what is written

The elements of a collection are written with commas between them, which is the first
element and then, for each other one, a comma and the element
(`Stencil.Json.Value.writeItems_cons`, `Stencil.Json.Value.writeMembers_cons`). The
later elements are a row of like parts, and what is written for a collection is longer
than the collection and longer than each of its elements.

A string is read as the text that it was written for, whatever follows
(`Stencil.Json.unquote?_written`).
-/

namespace Stencil

/-! ### Strings read back

A text may have any character. The reader takes one character at a time, so it is enough that
what is written for a character is read as this character. A character that is written by its
code is below U+0020: its code is no surrogate, and two digits are enough for it. -/

/-- The digits up to sixteen have their values. -/
theorem Text.hexValue?_digitChar : ∀ n < 16, Text.hexValue? (Nat.digitChar n) = some n := by
  decide

namespace Json

/-- A character below U+0020 is read from its code. -/
theorem codeChar?_control {c : Char} (h : c.toNat < 0x20) (rest : Text) :
    codeChar? ('0' :: '0' :: hexDigit (c.toNat / 16) :: hexDigit (c.toNat % 16) :: rest) =
      some (c, rest) := by
  have hzero : Text.hexValue? '0' = some 0 := Text.hexValue?_digitChar 0 (by decide)
  have hhigh := Text.hexValue?_digitChar (c.toNat / 16) (by omega)
  have hlow := Text.hexValue?_digitChar (c.toNat % 16) (by omega)
  have hcode : ((0 * 16 + 0) * 16 + c.toNat / 16) * 16 + c.toNat % 16 = c.toNat := by omega
  have hfour : hexFour? ('0' :: '0' :: hexDigit (c.toNat / 16) :: hexDigit (c.toNat % 16) ::
      rest) = some (c.toNat, rest) := by
    simp only [hexFour?, hexDigit, hzero, hhigh, hlow, Option.bind_eq_bind, Option.bind_some, hcode]
  have hhighSurrogate : ¬ (0xD800 ≤ c.toNat ∧ c.toNat < 0xDC00) := by omega
  have hlowSurrogate : ¬ (0xDC00 ≤ c.toNat ∧ c.toNat < 0xE000) := by omega
  simp only [codeChar?, hfour, Option.bind_eq_bind, Option.bind_some, if_neg hhighSurrogate,
    if_neg hlowSurrogate, Char.ofNat_toNat]

/-- **Every character is read back**, whatever follows what is written for it. -/
theorem nextChar?_escapeChar (c : Char) (rest : Text) :
    nextChar? (escapeChar c ++ rest) = some (some c, rest) := by
  unfold escapeChar
  -- the two characters with a meaning of their own, and the five with a letter
  iterate 7
    split
    · next h => rw [h]; rfl
  split
  · next h => simp [nextChar?, codeChar?_control h rest]
  · next hquote hslash _ _ _ _ _ hcontrol =>
    rw [List.singleton_append, nextChar?.eq_def]
    split <;> simp_all

theorem escapeChar_ne_nil (c : Char) : escapeChar c ≠ [] := by
  unfold escapeChar
  repeat' split
  all_goals exact List.cons_ne_nil _ _

theorem unquoteFrom?_written (s rest : Text) {fuel : Nat} (h : s.length < fuel) :
    unquoteFrom? fuel (s.flatMap escapeChar ++ '"' :: rest) = some (s, rest) := by
  induction s generalizing fuel with
  | nil =>
    cases fuel with
    | zero => cases h
    | succ fuel => rfl
  | cons c s ih =>
    cases fuel with
    | zero => cases h
    | succ fuel =>
      rw [List.flatMap_cons, List.append_assoc, unquoteFrom?, nextChar?_escapeChar]
      simp only [ih (Nat.lt_of_succ_lt_succ h), Option.map_some]

/-- **Every text is read back** from the string that is written for it. -/
theorem unquote?_written (s rest : Text) :
    unquote? (s.flatMap escapeChar ++ '"' :: rest) = some (s, rest) := by
  have : s.length ≤ (s.flatMap escapeChar).length :=
    length_le_length_flatMap fun c _ => escapeChar_ne_nil c
  refine unquoteFrom?_written s rest ?_
  rw [List.length_append, List.length_cons]
  omega

/-- A string begins with its opening quote. -/
theorem quote_append (s rest : Text) :
    quote s ++ rest = '"' :: (s.flatMap escapeChar ++ '"' :: rest) := by
  simp [quote]

/-! ### Collections -/

namespace Value

/-- A member as it is written. -/
def writeMember (m : Text × Value) : Text := quote m.1 ++ ':' :: m.2.write

/-- The elements of a list that stand behind another one, each behind its comma. -/
def laterItems (vs : List Value) : Text := vs.flatMap fun v => ',' :: v.write

/-- The members of an object that stand behind another one, each behind its comma. -/
def laterMembers (ms : Entries Value) : Text := ms.flatMap fun m => ',' :: writeMember m

theorem writeItems_cons (v : Value) (vs : List Value) :
    writeItems (v :: vs) = v.write ++ laterItems vs := by
  induction vs generalizing v with
  | nil => simp [writeItems, laterItems]
  | cons w ws ih => simp only [writeItems, ih, laterItems, List.flatMap_cons, List.cons_append]

theorem writeMembers_cons (m : Text × Value) (ms : Entries Value) :
    writeMembers (m :: ms) = writeMember m ++ laterMembers ms := by
  induction ms generalizing m with
  | nil => simp [writeMembers, laterMembers, writeMember]
  | cons l ls ih =>
    simp only [writeMembers, ih, laterMembers, writeMember, List.flatMap_cons, List.cons_append]

theorem write_array_append (items : List Value) (rest : Text) :
    (array items).write ++ rest = '[' :: (writeItems items ++ ']' :: rest) := by
  simp [write]

theorem write_object_append (members : Entries Value) (rest : Text) :
    (object members).write ++ rest = '{' :: (writeMembers members ++ '}' :: rest) := by
  simp [write]

/-! ### Lengths -/

/-- The brackets outweigh the comma that the first element does not have. -/
theorem length_laterItems_lt (vs : List Value) :
    (laterItems vs).length < (array vs).write.length := by
  cases vs with
  | nil => exact Nat.zero_lt_succ _
  | cons v vs =>
    simp only [write, writeItems_cons, laterItems, List.flatMap_cons, List.length_append,
      List.length_cons]
    omega

theorem length_laterMembers_lt (ms : Entries Value) :
    (laterMembers ms).length < (object ms).write.length := by
  cases ms with
  | nil => exact Nat.zero_lt_succ _
  | cons m ms =>
    simp only [write, writeMembers_cons, laterMembers, List.flatMap_cons, List.length_append,
      List.length_cons]
    omega

/-- **A list has fewer elements than characters.** -/
theorem length_items_lt (vs : List Value) : vs.length < (array vs).write.length :=
  Nat.lt_of_le_of_lt (length_le_length_flatMap fun _ _ => List.cons_ne_nil _ _)
    (length_laterItems_lt vs)

/-- **An object has fewer members than characters.** -/
theorem length_members_lt (ms : Entries Value) : ms.length < (object ms).write.length :=
  Nat.lt_of_le_of_lt (length_le_length_flatMap fun _ _ => List.cons_ne_nil _ _)
    (length_laterMembers_lt ms)

/-- An element takes less than its list. -/
theorem length_write_lt_of_mem_items {v : Value} {vs : List Value} (h : v ∈ vs) :
    v.write.length < (array vs).write.length := by
  have hpart : (',' :: v.write).length ≤ (laterItems vs).length :=
    length_le_flatMap_of_mem (fun v => ',' :: v.write) h
  have := length_laterItems_lt vs
  rw [List.length_cons] at hpart
  omega

/-- A value takes less than its object. -/
theorem length_write_lt_of_mem_members {m : Text × Value} {ms : Entries Value} (h : m ∈ ms) :
    m.2.write.length < (object ms).write.length := by
  have hpart : (',' :: writeMember m).length ≤ (laterMembers ms).length :=
    length_le_flatMap_of_mem (fun m => ',' :: writeMember m) h
  have := length_laterMembers_lt ms
  rw [List.length_cons, writeMember, List.length_append, List.length_cons] at hpart
  omega

end Value

end Json

end Stencil
