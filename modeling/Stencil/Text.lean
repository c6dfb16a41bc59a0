/-!
# Texts

A text is the list of its characters. Everything the library reads or writes
is a text in this sense, so that an induction over a text is an induction over
a list.

Two views of a text matter elsewhere. Its **order** is the order by code point,
first difference first, which is the lexicographic order of the list; it sorts
names. Its **bytes** are its UTF-8 encoding; offsets into the bytes that fall
between two characters are the only places where a text may be cut.
-/

namespace Stencil

/-- A text: its characters, in order. -/
abbrev Text := List Char

/-- A run of `n` backslashes. -/
def slashes (n : Nat) : Text := List.replicate n '\\'

@[simp] theorem slashes_zero : slashes 0 = [] := rfl

theorem slashes_succ (n : Nat) : slashes (n + 1) = '\\' :: slashes n := rfl

@[simp] theorem length_slashes (n : Nat) : (slashes n).length = n := by
  simp [slashes]

namespace Text

/-- The decimal digits of a natural number, without leading zeros. -/
def ofNat (n : Nat) : Text := Nat.toDigits 10 n

/-- An integer in decimal, with a minus sign in front of a negative one. -/
def ofInt : Int → Text
  | .ofNat n => ofNat n
  | .negSucc n => '-' :: ofNat (n + 1)

/-- The value of a hexadecimal digit, in capitals or small letters. -/
def hexValue? (c : Char) : Option Nat :=
  if c.isDigit then some (c.toNat - '0'.toNat)
  else if 'a' ≤ c ∧ c ≤ 'f' then some (c.toNat - 'a'.toNat + 10)
  else if 'A' ≤ c ∧ c ≤ 'F' then some (c.toNat - 'A'.toNat + 10)
  else none

/-- How many backslashes a text ends in. -/
def trailingSlashes (s : Text) : Nat := (s.reverse.takeWhile (· == '\\')).length

/-! ### Bytes -/

/-- The UTF-8 encoding of a text. -/
def utf8 (s : Text) : List UInt8 := s.flatMap String.utf8EncodeChar

/-- The length of a text in bytes. -/
def utf8Size (s : Text) : Nat := s.foldr (fun c size => c.utf8Size + size) 0

/-- The text that starts at byte offset `n`, if a character starts there or the
text ends there. -/
def dropBytes? : Text → Nat → Option Text
  | s, 0 => some s
  | [], _ + 1 => none
  | c :: s, n + 1 => if c.utf8Size ≤ n + 1 then dropBytes? s (n + 1 - c.utf8Size) else none

/-- The text that stops at byte offset `n`, if a character ends there or the
text starts there. -/
def takeBytes? : Text → Nat → Option Text
  | _, 0 => some []
  | [], _ + 1 => none
  | c :: s, n + 1 =>
    if c.utf8Size ≤ n + 1 then (takeBytes? s (n + 1 - c.utf8Size)).map (c :: ·) else none

end Text

end Stencil
