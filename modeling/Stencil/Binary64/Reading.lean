import Stencil.Binary64

/-!
# Reading a binary64 value

The written forms of a binary64 value: a sign or none, then decimal digits with
at most one point among them and at least one digit in all, then an exponent or
none. Infinity is `inf` or `infinity` and not-a-number is `nan`, in capitals or
small letters and behind a sign or none.
-/

namespace Stencil

namespace Text

/-- The value of a decimal digit. -/
def digitValue (c : Char) : Nat := c.toNat - '0'.toNat

/-- The number that decimal digits spell. -/
def toNat (digits : Text) : Nat := digits.foldl (fun n c => 10 * n + digitValue c) 0

/-- A sign in front of a text, and the text without it. -/
def splitSign : Text → Bool × Text
  | '-' :: s => (true, s)
  | '+' :: s => (false, s)
  | s => (false, s)

/-- The text in small letters, as far as it is in the Latin letters of ASCII. -/
def lower (s : Text) : Text := s.map Char.toLower

end Text

namespace Binary64

/-- The exponent behind the digits of a number: the letter `e`, a sign or none,
and digits. No text at all is the exponent zero. -/
def readExponent? : Text → Option Int
  | [] => some 0
  | c :: s =>
    if c = 'e' ∨ c = 'E' then
      let (negative, ds) := Text.splitSign s
      if ds ≠ [] ∧ ds.all Char.isDigit then
        some (if negative then -(Text.toNat ds) else Text.toNat ds)
      else none
    else none

/-- The value of an unsigned decimal number, given the sign it has. -/
def readUnsigned? (negative : Bool) (s : Text) : Option Binary64 :=
  let whole := s.takeWhile Char.isDigit
  let (fraction, tail) := match s.dropWhile Char.isDigit with
    | '.' :: rest => (rest.takeWhile Char.isDigit, rest.dropWhile Char.isDigit)
    | rest => ([], rest)
  let ds := whole ++ fraction
  if ds = [] then none
  else
    (readExponent? tail).map fun e =>
      ofDecimal negative (Text.toNat ds) ds.length (e - fraction.length)

/-- The value that a text is a written form of. -/
def read? (s : Text) : Option Binary64 :=
  let (negative, size) := Text.splitSign s
  match readUnsigned? negative size with
  | some x => some x
  | none =>
    let word := Text.lower size
    if word = ['i', 'n', 'f'] ∨ word = ['i', 'n', 'f', 'i', 'n', 'i', 't', 'y'] then
      some (.infinite negative)
    else if word = ['n', 'a', 'n'] then some .nan
    else none

end Binary64

end Stencil
