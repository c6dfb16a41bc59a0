import Stencil.Json.Value

/-!
# Writing JSON values

The compact form of a value: no blanks, members in the order of the value.

A string is written between double quotes. The quote and the backslash stand
behind a backslash, five control characters have a letter, the other characters
below U+0020 are written by their code, and all others stand for themselves.
Reading also takes the solidus behind a backslash and any character by its code,
those beyond U+FFFF as a pair of surrogates.
-/

namespace Stencil

/-! ### Strings -/

namespace Json

/-- A hexadecimal digit, in small letters. -/
def hexDigit (n : Nat) : Char := Nat.digitChar n

/-- A character as it is written in a string. -/
def escapeChar (c : Char) : Text :=
  if c = '"' then ['\\', '"']
  else if c = '\\' then ['\\', '\\']
  else if c = '\x08' then ['\\', 'b']
  else if c = '\x0c' then ['\\', 'f']
  else if c = '\n' then ['\\', 'n']
  else if c = '\r' then ['\\', 'r']
  else if c = '\t' then ['\\', 't']
  else if c.toNat < 0x20 then
    ['\\', 'u', '0', '0', hexDigit (c.toNat / 16), hexDigit (c.toNat % 16)]
  else [c]

/-- A text as a string. -/
def quote (s : Text) : Text := '"' :: s.flatMap escapeChar ++ ['"']

/-- The number of four hexadecimal digits, and the text behind them. -/
def hexFour? : Text → Option (Nat × Text)
  | a :: b :: c :: d :: s => do
    let a ← Text.hexValue? a
    let b ← Text.hexValue? b
    let c ← Text.hexValue? c
    let d ← Text.hexValue? d
    some (((a * 16 + b) * 16 + c) * 16 + d, s)
  | _ => none

/-- The character that a code stands for, with the text behind the code. A high
surrogate is followed by the code of a low one, and neither stands alone. -/
def codeChar? (s : Text) : Option (Char × Text) := do
  let (n, s) ← hexFour? s
  if 0xD800 ≤ n ∧ n < 0xDC00 then
    match s with
    | '\\' :: 'u' :: s =>
      let (m, s) ← hexFour? s
      if 0xDC00 ≤ m ∧ m < 0xE000 then
        some (Char.ofNat (0x10000 + (n - 0xD800) * 0x400 + (m - 0xDC00)), s)
      else none
    | _ => none
  else if 0xDC00 ≤ n ∧ n < 0xE000 then none
  else some (Char.ofNat n, s)

/-- The character that a letter behind a backslash stands for. -/
def escaped? (c : Char) : Option Char :=
  match c with
  | '"' => some '"'
  | '\\' => some '\\'
  | '/' => some '/'
  | 'b' => some '\x08'
  | 'f' => some '\x0c'
  | 'n' => some '\n'
  | 'r' => some '\r'
  | 't' => some '\t'
  | _ => none

/-- The next character of a string, `none` at the quote that ends it, with the
text behind. -/
def nextChar? : Text → Option (Option Char × Text)
  | '"' :: s => some (none, s)
  | '\\' :: 'u' :: s => (codeChar? s).map fun (c, s) => (some c, s)
  | '\\' :: c :: s => (escaped? c).map fun c => (some c, s)
  | c :: s => if c = '\\' ∨ c.toNat < 0x20 then none else some (some c, s)
  | [] => none

/-- The text of a string and the text behind it, from behind its opening quote;
`fuel` bounds its length. -/
def unquoteFrom? : Nat → Text → Option (Text × Text)
  | 0, _ => none
  | fuel + 1, s =>
    match nextChar? s with
    | none => none
    | some (none, rest) => some ([], rest)
    | some (some c, rest) => (unquoteFrom? fuel rest).map fun (cs, rest) => (c :: cs, rest)

/-- The text of a string and the text behind it, from behind its opening quote. -/
def unquote? (s : Text) : Option (Text × Text) := unquoteFrom? s.length s

/-! ### Values -/

namespace Value

mutual

/-- The compact form of a value. -/
def write : Value → Text
  | null => ['n', 'u', 'l', 'l']
  | bool b => if b then ['t', 'r', 'u', 'e'] else ['f', 'a', 'l', 's', 'e']
  | integer n _ => Text.ofInt n
  | float x => numberStyle.write x
  | string s => quote s
  | array items => '[' :: writeItems items ++ [']']
  | object members => '{' :: writeMembers members ++ ['}']

/-- The compact forms of values, with commas between them. -/
def writeItems : List Value → Text
  | [] => []
  | [v] => write v
  | v :: w :: vs => write v ++ ',' :: writeItems (w :: vs)

/-- The compact forms of entries, with commas between them. -/
def writeMembers : List (Text × Value) → Text
  | [] => []
  | [(k, v)] => quote k ++ ':' :: write v
  | (k, v) :: m :: ms => quote k ++ ':' :: write v ++ ',' :: writeMembers (m :: ms)

end

end Value

end Json

end Stencil
