import Stencil.Text

/-!
# Binary64 numbers

A finite binary64 number is `± m · 2 ^ q` with natural `m` and integer `q`, in
its canonical form: `q` is at least `-1074` and at most `971`, `m` has at most
53 bits, and has exactly 53 unless `q` is `-1074`. Everything here is exact
arithmetic on natural numbers: a quotient is rounded once, to the nearest
number, and of two nearest ones to the one whose `m` is even
(`Binary64.ofRatio`).

A number is written with the fewest decimal digits that are rounded to it again
(`Binary64.Finite.shortest`), laid out in one of several styles (`Decimal.Style`).
-/

namespace Stencil

/-- A finite binary64 number, `mantissa · 2 ^ exponent` with a sign. Zero has a sign too. -/
structure Binary64.Finite where
  /-- The number is below zero, or the zero that stands for the numbers just below it. -/
  negative : Bool
  /-- The size of the number in units of `2 ^ exponent`. -/
  mantissa : Nat
  /-- The scale of the mantissa. -/
  exponent : Int
  deriving DecidableEq

/-- A binary64 value. -/
inductive Binary64 where
  /-- A number. -/
  | finite (x : Binary64.Finite)
  /-- One of the two infinities. -/
  | infinite (negative : Bool)
  /-- Not a number. -/
  | nan
  deriving DecidableEq

namespace Binary64

/-- The least exponent of a finite number. -/
def leastExponent : Int := -1074

/-- The greatest exponent of a finite number. -/
def greatestExponent : Int := 971

/-- The least mantissa that has all its 53 bits. -/
def leastMantissa : Nat := 0x10000000000000

/-- The quotient of two natural numbers, rounded to the nearest natural number,
and halfway to the even one. -/
def roundDiv (num den : Nat) : Nat :=
  let quotient := num / den
  let twice := 2 * (num % den)
  if twice < den ∨ twice = den ∧ quotient % 2 = 0 then quotient else quotient + 1

/-- The numerator and the denominator of `num / den · 2 ^ e`. -/
def scale2 (num den : Nat) (e : Int) : Nat × Nat :=
  (num * Nat.pow 2 e.toNat, den * Nat.pow 2 (-e).toNat)

/-- The exponent of the greatest power of two that is at most `num / den`. -/
def floorLog2 (num den : Nat) : Int :=
  let guess : Int := num.log2 - den.log2
  let (n, d) := scale2 num den (-guess)
  if d ≤ n then guess else guess - 1

/-- The binary64 value nearest to `num / den`, with a sign. -/
def ofRatio (negative : Bool) (num den : Nat) : Binary64 :=
  if num = 0 then .finite ⟨negative, 0, leastExponent⟩
  else
    let q := max (floorLog2 num den - 52) leastExponent
    let (n, d) := scale2 num den (-q)
    let m := roundDiv n d
    let (m, q) := if m = 2 * leastMantissa then (leastMantissa, q + 1) else (m, q)
    if greatestExponent < q then .infinite negative else .finite ⟨negative, m, q⟩

/-- The binary64 value nearest to `digits · 10 ^ e`, with a sign, for a natural
number of at most `width` decimal digits. Sizes that are far beyond all numbers,
or far below them, are decided by `width` and `e` alone. -/
def ofDecimal (negative : Bool) (digits width : Nat) (e : Int) : Binary64 :=
  if digits = 0 then ofRatio negative 0 1
  else if 310 < e then .infinite negative
  else if e + width < -330 then ofRatio negative 0 1
  else ofRatio negative (digits * Nat.pow 10 e.toNat) (Nat.pow 10 (-e).toNat)

/-- The number that a value is, if it is one. -/
def toFinite? : Binary64 → Option Finite
  | .finite x => some x
  | _ => none

namespace Finite

/-- The size of a number as a quotient of natural numbers. -/
def ratio (x : Finite) : Nat × Nat := scale2 x.mantissa 1 x.exponent

/-- The number is zero, of either sign. -/
def isZero (x : Finite) : Bool := x.mantissa == 0

/-- The numbers are the same number: the two zeros are. -/
def equal (x y : Finite) : Bool := x.isZero && y.isZero || x == y

/-- The product of two numbers, rounded. -/
def mul (x y : Finite) : Binary64 :=
  let (a, b) := x.ratio
  let (c, d) := y.ratio
  ofRatio (x.negative != y.negative) (a * c) (b * d)

/-- The quotient of two numbers, rounded. The divisor is not zero. -/
def div (x y : Finite) : Binary64 :=
  let (a, b) := x.ratio
  let (c, d) := y.ratio
  ofRatio (x.negative != y.negative) (a * d) (b * c)

end Finite

end Binary64

/-! ### The shortest decimal that reads back

Of the decimals with the fewest digits that are rounded to a number, the nearest is
taken. The decimals that are rounded to a number form an interval around it, ends
included exactly when its mantissa is even. On the grid of the multiples of a power
of ten the two neighbours of the number are the only candidates, and the coarsest
grid that has a candidate in the interval gives the fewest digits.

Two neighbours may be in the interval and equally near; which one is taken is
left open (`Tie`). -/

/-- The decimal number `digits · 10 ^ exponent`. -/
structure Decimal where
  /-- The digits, read as a natural number. -/
  digits : Nat
  /-- The place of the last digit. -/
  exponent : Int

/-- Which of two equally near decimals is taken. -/
inductive Tie where
  /-- The greater one. -/
  | up
  /-- The one whose last digit is even. -/
  | even

namespace Binary64.Finite

/-- Four times the size of a number and of the two ends of the interval of what
is rounded to it, in units of `2 ^ (exponent - 2)`. Below the least
mantissa the interval is narrower. -/
def bounds (x : Finite) : Nat × Nat × Nat :=
  let below := if x.mantissa = leastMantissa ∧ leastExponent < x.exponent then 1 else 2
  (4 * x.mantissa - below, 4 * x.mantissa, 4 * x.mantissa + 2)

/-- The candidate on the grid of the multiples of `10 ^ e`, if there is one. -/
def onGrid? (tie : Tie) (x : Finite) (e : Int) : Option Nat :=
  let (low, size, high) := x.bounds
  let num := Nat.pow 2 (x.exponent - 2).toNat * Nat.pow 10 (-e).toNat
  let den := Nat.pow 2 (2 - x.exponent).toNat * Nat.pow 10 e.toNat
  let inside (k : Nat) : Bool :=
    if x.mantissa % 2 = 0 then low * num ≤ k * den ∧ k * den ≤ high * num
    else low * num < k * den ∧ k * den < high * num
  let floor := size * num / den
  let twice := 2 * (size * num % den)
  match 0 < floor && inside floor, inside (floor + 1) with
  | true, true =>
    if twice < den then some floor
    else if den < twice then some (floor + 1)
    else
      match tie with
      | .up => some (floor + 1)
      | .even => some (if floor % 2 = 0 then floor else floor + 1)
  | true, false => some floor
  | false, true => some (floor + 1)
  | false, false => none

/-- The first candidate on the grids from `10 ^ e` down, of which at most `fuel` are tried. -/
def firstOnGrid (tie : Tie) (x : Finite) : Nat → Int → Decimal
  | 0, e => ⟨0, e⟩
  | fuel + 1, e =>
    match x.onGrid? tie e with
    | some k => ⟨k, e⟩
    | none => firstOnGrid tie x fuel (e - 1)

/-- The size of a number as the nearest of the shortest decimals that are rounded
to it. The search starts at a power of ten above the number and ends within the
seventeen digits that always suffice. -/
def shortest (tie : Tie) (x : Finite) : Decimal :=
  if x.isZero then ⟨0, 0⟩
  else
    let (num, den) := x.ratio
    firstOnGrid tie x 20 ((Text.ofNat num).length - (Text.ofNat den).length + 1)

end Binary64.Finite

namespace Decimal

/-- How many digits stand in front of the point when there is no exponent; zero
or less if the first digit stands behind it. -/
def point (d : Decimal) : Int := (Text.ofNat d.digits).length + d.exponent

/-- No digit stands behind the point. -/
def isWhole (d : Decimal) : Bool := 0 ≤ d.exponent

/-- The decimal without an exponent. -/
def positional (d : Decimal) : Text :=
  let ds := Text.ofNat d.digits
  if d.isWhole then ds ++ List.replicate d.exponent.toNat '0'
  else if 0 < d.point then ds.take d.point.toNat ++ '.' :: ds.drop d.point.toNat
  else '0' :: '.' :: List.replicate (-d.point).toNat '0' ++ ds

/-- The decimal with one digit in front of the point, and an exponent with a sign. -/
def scientific (d : Decimal) : Text :=
  let mark : Text := match Text.ofNat d.digits with
    | [] => []
    | [c] => [c]
    | c :: cs => c :: '.' :: cs
  let e := d.point - 1
  mark ++ 'e' :: (if e < 0 then '-' else '+') :: Text.ofNat e.natAbs

/-- How a number is laid out. -/
structure Style where
  /-- Which of two equally near decimals is written. -/
  tie : Tie
  /-- The least and the greatest place of the point that are written without an
  exponent; all are if there is none. -/
  range : Option (Int × Int)
  /-- What follows the digits of a whole number that has no exponent. -/
  wholeMark : Text

/-- A finite number in a style. -/
def Style.write (style : Style) (x : Binary64.Finite) : Text :=
  let d := x.shortest style.tie
  let fixed := d.positional ++ if d.isWhole then style.wholeMark else []
  let size := match style.range with
    | none => fixed
    | some (least, greatest) => if least ≤ d.point ∧ d.point ≤ greatest then fixed else d.scientific
  if x.negative then '-' :: size else size

end Decimal

end Stencil
