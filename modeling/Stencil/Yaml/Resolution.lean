import Stencil.Binary64.Reading
import Stencil.Yaml.Tag

/-!
# What a scalar stands for

A scalar with a tag that all documents share is of the kind that the tag tells,
and must be written like one. Any other scalar that is not plain is a text. A
plain scalar is what it looks like: nothing, a truth value, an integer in one of
four bases, a number, and a text if nothing else. Digits behind a leading zero
do not look like a number.
-/

namespace Stencil

namespace Yaml

/-- What a scalar stands for. -/
inductive Meaning where
  /-- No value. -/
  | null
  /-- A truth value. -/
  | boolean (b : Bool)
  /-- An integer of at most 64 bits. -/
  | integer (n : Int)
  /-- An integer of at most 128 bits, and more than 64. -/
  | wideInteger (n : Int)
  /-- A number. -/
  | float (x : Binary64)
  /-- A text. -/
  | string (s : Text)

/-- The kinds that a tag can tell. -/
inductive TaggedKind where
  /-- A truth value. -/
  | boolean
  /-- An integer. -/
  | integer
  /-- A number. -/
  | float
  /-- No value. -/
  | null
  deriving DecidableEq

namespace Meaning

/-- The scalar looks like no value. -/
def isNull (s : Text) : Bool :=
  s == "null".toList || s == "Null".toList || s == "NULL".toList || s == ['~']

/-- The truth value that a scalar looks like. -/
def boolean? (s : Text) : Option Bool :=
  if s == "true".toList || s == "True".toList || s == "TRUE".toList then some true
  else if s == "false".toList || s == "False".toList || s == "FALSE".toList then some false
  else none

/-- The scalar has a leading zero and digits only behind it. -/
def isZeroPadded (s : Text) : Bool :=
  match (Text.splitSign s).2 with
  | '0' :: d :: ds => (d :: ds).all Char.isDigit
  | _ => false

/-- The number that digits to a base spell. -/
def digits? (base : Nat) (s : Text) : Option Nat :=
  if s.isEmpty then none
  else s.foldlM (fun n c => do
    let d ← Text.hexValue? c
    if d < base then some (base * n + d) else none) 0

/-- The number behind the two characters that tell its base, if they do. -/
def based? : Text → Option Nat
  | '0' :: 'x' :: s => digits? 16 s
  | '0' :: 'o' :: s => digits? 8 s
  | '0' :: 'b' :: s => digits? 2 s
  | _ => none

/-- The size of the integer that a scalar looks like, apart from its sign. -/
def size? (scalar unsigned : Text) : Option Nat :=
  match based? unsigned with
  | some n => some n
  | none => if isZeroPadded scalar then none else digits? 10 unsigned

/-- The integer that a scalar looks like. -/
def integer? (s : Text) : Option Int :=
  match s with
  | '-' :: u => (size? s u).map fun n => -(n : Int)
  | '+' :: u => (size? s u).map Int.ofNat
  | _ => (size? s s).map Int.ofNat

/-- The meaning of an integer, if it has at most 128 bits. -/
def ofInteger? (n : Int) : Option Meaning :=
  if -0x8000000000000000 ≤ n ∧ n < 0x10000000000000000 then some (.integer n)
  else if -0x80000000000000000000000000000000 ≤ n ∧
      n < 0x100000000000000000000000000000000 then some (.wideInteger n)
  else none

/-- The infinity that a scalar looks like, apart from its sign. -/
def isInfinity (s : Text) : Bool :=
  s == ".inf".toList || s == ".Inf".toList || s == ".INF".toList

/-- The number that a scalar looks like. -/
def float? (s : Text) : Option Binary64 :=
  let unsigned := match s with
    | '+' :: u => u
    | _ => s
  if unsigned.length < s.length ∧ unsigned.head?.any (fun c => c == '+' || c == '-') then none
  else if isInfinity unsigned then some (.infinite false)
  else if s.head? = some '-' ∧ isInfinity (s.drop 1) then some (.infinite true)
  else if s == ".nan".toList || s == ".NaN".toList || s == ".NAN".toList then some .nan
  else
    match Binary64.read? unsigned with
    | some (.finite x) => some (.finite x)
    | _ => none

/-- What a plain scalar without a tag stands for. -/
def ofPlain (s : Text) : Meaning :=
  if s.isEmpty || isNull s then .null
  else
    match boolean? s, (integer? s).bind ofInteger? with
    | some b, _ => .boolean b
    | none, some m => m
    | none, none => if isZeroPadded s then .string s else ((float? s).map .float).getD (.string s)

/-- The kind that a tag tells, if it tells one. -/
def kindOfTag? (t : Tag) : Option TaggedKind :=
  let shared (name : String) : Tag := Tag.ofText ("tag:yaml.org,2002:" ++ name).toList
  if t = shared "bool" then some .boolean
  else if t = shared "int" then some .integer
  else if t = shared "float" then some .float
  else if t = shared "null" then some .null
  else none

/-- What a scalar of a kind stands for, if it is written like one. -/
def ofKind? (kind : TaggedKind) (s : Text) : Option Meaning :=
  match kind with
  | .boolean => (boolean? s).map .boolean
  | .integer => (integer? s).bind ofInteger?
  | .float => (float? s).map .float
  | .null => if isNull s then some .null else none

/-- What a scalar stands for, or the kind that its tag tells if it is not written
like one. -/
def ofScalar (tag : Option Tag) (plain : Bool) (s : Text) : Except TaggedKind Meaning :=
  match tag with
  | none => .ok (if plain then ofPlain s else .string s)
  | some t =>
    match kindOfTag? t with
    | some kind => ((ofKind? kind s).map Except.ok).getD (.error kind)
    | none => .ok (if plain && t.isLocal then ofPlain s else .string s)

end Meaning

end Yaml

end Stencil
