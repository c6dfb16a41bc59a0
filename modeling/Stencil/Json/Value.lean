import Stencil.Binary64.Reading
import Stencil.Dict

/-!
# JSON values

A number is an integer of at most 64 bits, with or without a sign, or a finite
binary64 number; the two kinds stay apart, so `1` and `1.0` differ. The members
of an object are a list of entries; reading a document makes it a sorted one
without repetitions (`Json.Value.Regular`).

The written form of a number has a value of one of the two kinds, unless it is
too large (`Json.Numeral.value?`).
-/

namespace Stencil

namespace Json

/-- The integers that fit into 64 bits, with or without a sign. -/
def Fits (n : Int) : Prop := -0x8000000000000000 ≤ n ∧ n < 0x10000000000000000

instance (n : Int) : Decidable (Fits n) := inferInstanceAs (Decidable (_ ∧ _))

/-- A JSON value. -/
inductive Value where
  /-- No value. -/
  | null
  /-- A truth value. -/
  | bool (b : Bool)
  /-- An integer of at most 64 bits. -/
  | integer (n : Int) (fits : Fits n)
  /-- A number that is not written as an integer, or too large for one. -/
  | float (x : Binary64.Finite)
  /-- A text. -/
  | string (s : Text)
  /-- Values in order. -/
  | array (items : List Value)
  /-- Values by key. -/
  | object (members : List (Text × Value))

instance : Inhabited Value := ⟨.null⟩

namespace Value

mutual

/-- The members of every object in a value stand in strictly ascending order of their keys. -/
def Regular : Value → Prop
  | array items => RegularItems items
  | object members => Entries.Sorted members ∧ RegularMembers members
  | _ => True

/-- All values of a list are regular. -/
def RegularItems : List Value → Prop
  | [] => True
  | v :: vs => Regular v ∧ RegularItems vs

/-- The values of all entries of a list are regular. -/
def RegularMembers : List (Text × Value) → Prop
  | [] => True
  | (_, v) :: ms => Regular v ∧ RegularMembers ms

end

mutual

/-- How deeply arrays and objects are nested in a value. -/
def depth : Value → Nat
  | array items => depthItems items + 1
  | object members => depthMembers members + 1
  | _ => 0

/-- The greatest depth in a list of values. -/
def depthItems : List Value → Nat
  | [] => 0
  | v :: vs => max (depth v) (depthItems vs)

/-- The greatest depth in a list of entries. -/
def depthMembers : List (Text × Value) → Nat
  | [] => 0
  | (_, v) :: ms => max (depth v) (depthMembers ms)

end

mutual

/-- Two values are equal: of the same kind, numbers as numbers, and everything
else part by part. -/
def equal : Value → Value → Bool
  | null, null => true
  | bool a, bool b => a == b
  | integer a _, integer b _ => a == b
  | float x, float y => x.equal y
  | string s, string t => s == t
  | array xs, array ys => equalItems xs ys
  | object xs, object ys => equalMembers xs ys
  | _, _ => false

/-- Two lists of values are equal part by part. -/
def equalItems : List Value → List Value → Bool
  | [], [] => true
  | v :: vs, w :: ws => equal v w && equalItems vs ws
  | _, _ => false

/-- Two lists of entries are equal part by part. -/
def equalMembers : List (Text × Value) → List (Text × Value) → Bool
  | [], [] => true
  | (k, v) :: vs, (l, w) :: ws => k == l && equal v w && equalMembers vs ws
  | _, _ => false

end

end Value

/-! ### Numbers

A number without a fraction and an exponent that fits into 64 bits is an
integer. Any other is a binary64 number: the digits are gathered into a
significand of at most 64 bits, the digits that do not fit are dropped, and the
significand is multiplied or divided by a power of ten, each step rounded on
its own. A result beyond all binary64 numbers is refused. -/

/-- Numbers are written without an exponent from `1e-5` to below `1e16`, whole
ones with `.0`, and of two equally near shortest decimals the even one is written. -/
def numberStyle : Decimal.Style := ⟨.even, some (-4, 16), ['.', '0']⟩

/-- The parts of the written form of a number. -/
structure Numeral where
  /-- There is a minus sign. -/
  negative : Bool
  /-- The digits in front of the point. -/
  whole : Text
  /-- The digits behind the point, if there is one. -/
  fraction : Option Text
  /-- The sign and the digits of the exponent, if there is one. -/
  exponent : Option (Bool × Text)

namespace Numeral

/-- Decimal digits at the start of a text, at least one, and the text behind them. -/
def digits? (s : Text) : Option (Text × Text) :=
  match s.takeWhile Char.isDigit with
  | [] => none
  | ds => some (ds, s.dropWhile Char.isDigit)

/-- The digits in front of the point: a zero, or digits that start with another one. -/
def readWhole? (s : Text) : Option (Text × Text) :=
  match digits? s with
  | some ('0' :: _ :: _, _) => none
  | r => r

/-- The point and the digits behind it, if there is a point. -/
def readFraction? : Text → Option (Option Text × Text)
  | '.' :: s => (digits? s).map fun (ds, s) => (some ds, s)
  | s => some (none, s)

/-- The letter, the sign and the digits of an exponent, if there is the letter. -/
def readExponent? : Text → Option (Option (Bool × Text) × Text)
  | [] => some (none, [])
  | c :: s =>
    if c = 'e' ∨ c = 'E' then
      let (negative, s) := Text.splitSign s
      (digits? s).map fun (ds, s) => (some (negative, ds), s)
    else some (none, c :: s)

/-- The number at the start of a text, and the text behind it. -/
def read? (s : Text) : Option (Numeral × Text) := do
  let (negative, s) := match s with
    | '-' :: s => (true, s)
    | s => (false, s)
  let (whole, s) ← readWhole? s
  let (fraction, s) ← readFraction? s
  let (exponent, s) ← readExponent? s
  some (⟨negative, whole, fraction, exponent⟩, s)

/-! ### The value of a numeral -/

/-- Digits appended to a significand as long as it fits into 64 bits, and the
digits from the first that does not fit. -/
def gather (significand : Nat) : Text → Nat × Text
  | [] => (significand, [])
  | d :: ds =>
    let next := 10 * significand + Text.digitValue d
    if next < 0x10000000000000000 then gather next ds else (significand, d :: ds)

/-- The number `10 ^ k`, rounded. -/
def tenPower? (k : Nat) : Option Binary64.Finite :=
  (Binary64.ofRatio false (Nat.pow 10 k) 1).toFinite?

/-- The exponent of the greatest power of ten that is a binary64 number. -/
def greatestTen : Nat := 308

/-- A number divided by `10 ^ k`, rounded. -/
def divideByTen? (x : Binary64.Finite) (k : Nat) : Option Binary64.Finite := do
  (x.div (← tenPower? k)).toFinite?

/-- A significand divided by `10 ^ k`, in two steps if there is no such power of
ten, and zero where two steps would not do: they leave nothing of 64 bits. -/
def divideByTens? (x : Binary64.Finite) (k : Nat) : Option Binary64.Finite :=
  if k ≤ greatestTen then divideByTen? x k
  else if k ≤ 2 * greatestTen then do divideByTen? (← divideByTen? x greatestTen) (k - greatestTen)
  else (Binary64.ofRatio false 0 1).toFinite?

/-- The number `significand · 10 ^ e`, if it is not too large. -/
def scale? (significand : Nat) (e : Int) : Option Binary64.Finite := do
  let x ← (Binary64.ofRatio false significand 1).toFinite?
  if e < 0 then divideByTens? x e.natAbs
  else if e ≤ greatestTen then (x.mul (← tenPower? e.toNat)).toFinite?
  else if x.isZero then some x
  else none

/-- The greatest exponent that is taken into account. -/
def exponentLimit : Nat := 0x7FFFFFFF

/-- The size of a numeral that is not an integer, if it is not too large. -/
def size? (n : Numeral) : Option Binary64.Finite :=
  let (significand, dropped) := gather 0 n.whole
  let fraction := n.fraction.getD []
  let (significand, rest) := gather significand fraction
  let e : Int := dropped.length - (fraction.length - rest.length : Nat)
  match n.exponent with
  | none => scale? significand e
  | some (negative, ds) =>
    let k := Text.toNat ds
    if exponentLimit < k then
      if significand ≠ 0 ∧ !negative then none else scale? 0 0
    else scale? significand (if negative then e - k else e + k)

/-- The value of a numeral, if it is not too large. -/
def value? (n : Numeral) : Option Value :=
  let m : Int := if n.negative then -(Text.toNat n.whole) else Text.toNat n.whole
  if h : n.fraction = none ∧ n.exponent = none ∧ Fits m ∧ ¬ (n.negative ∧ m = 0) then
    some (.integer m h.2.2.1)
  else n.size?.map fun x => .float { x with negative := n.negative }

end Numeral

end Json

end Stencil
