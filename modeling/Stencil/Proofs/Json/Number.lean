import Mathlib.Data.List.Basic
import Stencil.Json.Reader

/-!
# Integers read back

An integer of at most 64 bits is written in decimal and read as itself
(`Stencil.Json.readNumber_ofInt`). A number has no end of its own: the reader takes
digits as long as there are any and then looks for a point or an exponent. So it matters
what follows, and behind a value of a document this is a comma, a closing bracket or
nothing (`Stencil.Json.AfterValue`).

The reader refuses a zero in front of other digits, and it takes a minus sign in front
of a zero for a binary64 number. Neither is ever written: the digits of a number start
with a zero only if the number is zero (`Stencil.Text.head?_ofNat_ne_zero`), and zero has
no minus sign.
-/

namespace Stencil

/-! ### Digits -/

namespace Text

/-- **The digits of a number spell it.** -/
theorem toNat_ofNat (n : Nat) : toNat (ofNat n) = n :=
  Nat.ofDigitChars_toDigits (by decide) (by decide)

theorem ofNat_ne_nil (n : Nat) : ofNat n ≠ [] := Nat.toDigits_ne_nil

theorem isDigit_of_mem_ofNat {n : Nat} {c : Char} (h : c ∈ ofNat n) : c.isDigit = true :=
  Nat.isDigit_of_mem_toDigits (by decide) (by decide) h

/-- A number starts with a digit. -/
theorem exists_ofNat_eq_cons (n : Nat) : ∃ d ds, ofNat n = d :: ds ∧ d.isDigit = true := by
  obtain ⟨d, ds, hds⟩ := List.exists_cons_of_ne_nil (ofNat_ne_nil n)
  exact ⟨d, ds, hds, isDigit_of_mem_ofNat (hds ▸ List.mem_cons_self)⟩

/-- A number that is not zero does not start with the digit zero. -/
theorem head?_ofNat_ne_zero {n : Nat} (h : n ≠ 0) : (ofNat n).head? ≠ some '0' := by
  induction n using Nat.strongRecOn with
  | ind n ih =>
    rcases Nat.lt_or_ge n 10 with hsmall | hlarge
    · rw [ofNat, Nat.toDigits_of_lt_base hsmall]
      intro hzero
      have hchar : n.digitChar = '0' := by simpa using hzero
      have hcode := Nat.toNat_digitChar_of_lt_ten hsmall
      rw [hchar] at hcode
      exact h (by simpa using hcode)
    · -- the first digit is that of a tenth of the number
      have htenth : (ofNat (n / 10)).head? ≠ some '0' := ih (n / 10) (by omega) (by omega)
      obtain ⟨d, ds, hds⟩ := List.exists_cons_of_ne_nil (ofNat_ne_nil (n / 10))
      have hcut : ofNat n = ofNat (n / 10) ++ [(n % 10).digitChar] :=
        Nat.toDigits_of_base_le (by decide) hlarge
      rw [hds] at htenth hcut
      rw [hcut]
      exact htenth

end Text

namespace Json

/-! ### What follows -/

/-- **What may stand behind a value** in a document without blanks. -/
inductive AfterValue : Text → Prop
  /-- The document ends. -/
  | nothing : AfterValue []
  /-- Another element or member follows. -/
  | comma (s : Text) : AfterValue (',' :: s)
  /-- The list ends. -/
  | bracket (s : Text) : AfterValue (']' :: s)
  /-- The object ends. -/
  | brace (s : Text) : AfterValue ('}' :: s)

namespace Numeral

/-- Digits are taken off up to what follows the value. -/
theorem digits?_append {ds rest : Text} (hne : ds ≠ []) (hds : ∀ c ∈ ds, c.isDigit = true)
    (hrest : AfterValue rest) : digits? (ds ++ rest) = some (ds, rest) := by
  have hstop : rest.takeWhile Char.isDigit = [] ∧ rest.dropWhile Char.isDigit = rest := by
    cases hrest <;> exact ⟨rfl, rfl⟩
  have htake : (ds ++ rest).takeWhile Char.isDigit = ds := by
    rw [List.takeWhile_append_of_pos hds, hstop.1, List.append_nil]
  have hdrop : (ds ++ rest).dropWhile Char.isDigit = rest := by
    rw [List.dropWhile_append_of_pos hds, hstop.2]
  obtain ⟨d, ds, rfl⟩ := List.exists_cons_of_ne_nil hne
  rw [digits?, htake, hdrop]

theorem readWhole?_ofNat (n : Nat) {rest : Text} (hrest : AfterValue rest) :
    readWhole? (Text.ofNat n ++ rest) = some (Text.ofNat n, rest) := by
  have hdigits : digits? (Text.ofNat n ++ rest) = some (Text.ofNat n, rest) :=
    digits?_append (Text.ofNat_ne_nil n) (fun c => Text.isDigit_of_mem_ofNat) hrest
  rw [readWhole?, hdigits]
  split
  · -- a zero in front of another digit: the number would be zero, and that is one digit
    next d ds _ heq =>
    obtain ⟨hds, -⟩ := Prod.mk.inj (Option.some.inj heq)
    rcases eq_or_ne n 0 with rfl | hn
    · cases hds
    · exact absurd (by rw [hds]; rfl) (Text.head?_ofNat_ne_zero hn)
  · rfl

/-- An integer is taken off with its sign. -/
theorem read?_ofInt (n : Int) {rest : Text} (hrest : AfterValue rest) :
    read? (Text.ofInt n ++ rest) =
      some (⟨decide (n < 0), Text.ofNat n.natAbs, none, none⟩, rest) := by
  have hfraction : readFraction? rest = some (none, rest) := by cases hrest <;> rfl
  have hexponent : readExponent? rest = some (none, rest) := by cases hrest <;> rfl
  cases n with
  | ofNat n =>
    obtain ⟨d, ds, hds, hdigit⟩ := Text.exists_ofNat_eq_cons n
    have hsign : d ≠ '-' := fun h => absurd hdigit (by rw [h]; decide)
    have hwhole := readWhole?_ofNat n hrest
    rw [hds, List.cons_append] at hwhole
    simp [read?, Text.ofInt, hds, hwhole, hfraction, hexponent, hsign]
  | negSucc n =>
    have hwhole := readWhole?_ofNat (n + 1) hrest
    simp [read?, Text.ofInt, hwhole, hfraction, hexponent, Int.negSucc_lt_zero]

/-- A numeral of an integer has the integer as its value. -/
theorem value?_ofInt {n : Int} (h : Fits n) :
    value? ⟨decide (n < 0), Text.ofNat n.natAbs, none, none⟩ = some (.integer n h) := by
  have hvalue : (if decide (n < 0) = true then -(n.natAbs : Int) else n.natAbs) = n := by
    by_cases hn : n < 0
    · rw [if_pos (decide_eq_true hn)]
      omega
    · rw [if_neg (fun h => hn (of_decide_eq_true h))]
      omega
  have hzero : ¬ (decide (n < 0) = true ∧ n = 0) := fun hneg => by
    have := of_decide_eq_true hneg.1
    omega
  simp only [value?, Text.toNat_ofNat, hvalue]
  rw [dif_pos ⟨trivial, trivial, h, hzero⟩]

end Numeral

/-- **Every integer is read back**, whatever follows it in a document. -/
theorem readNumber_ofInt {n : Int} (h : Fits n) {rest : Text} (hrest : AfterValue rest) :
    readNumber (Text.ofInt n ++ rest) = .ok (.integer n h, rest) := by
  rw [readNumber, Numeral.read?_ofInt n hrest]
  simp only [Numeral.value?_ofInt h]

end Json

end Stencil
