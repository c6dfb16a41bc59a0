import Stencil.Config.Problem
import Stencil.Json.Printer

/-!
# Reading JSON

A reader takes what it reads off the front of a text and stops at the first
problem. Collections are read element by element, so a problem inside an element
comes before anything behind that element, and a key is judged before its value
is looked at.

A limit on the nesting is part of the rules. The readers recurse on how many
more collections may be opened; the elements of one collection are counted down
from the length of the document, which they cannot exceed.
-/

namespace Stencil

namespace Json

open Config (Problem Found Wanted)

/-- A problem, and the text in front of which reading stopped. -/
structure Halt where
  /-- What is wrong. -/
  problem : Problem
  /-- What had not been read. -/
  rest : Text

/-- A way to take something off the front of a text: what has been read and the
text behind it, or why reading stopped. -/
abbrev Reader (α : Type) := Text → Except Halt (α × Text)

/-- Stop in front of a text. -/
def halt {α : Type} (problem : Problem) (rest : Text) : Except Halt α := .error ⟨problem, rest⟩

/-- The characters that may stand between the parts of a document. -/
def isBlank (c : Char) : Bool := c == ' ' || c == '\n' || c == '\t' || c == '\r'

/-- A text from its first character on that is not blank. -/
def skipBlanks (s : Text) : Text := s.dropWhile isBlank

/-- The text behind a word that must stand at the front. -/
def expectWord (word s : Text) : Except Halt Text :=
  if word.isPrefixOf s then .ok (s.drop word.length) else halt .malformed s

/-! ### Collections -/

/-- The text from the next element of a list on, or `none` in front of the
bracket that ends the list. All elements but the first have a comma in front. -/
def nextItem (first : Bool) (s : Text) : Except Halt (Option Text) :=
  match skipBlanks s with
  | ']' :: _ => .ok none
  | ',' :: rest =>
    if first then .ok (some (',' :: rest))
    else
      match skipBlanks rest with
      | ']' :: tail => halt .malformed (']' :: tail)
      | item => .ok (some item)
  | item => if first then .ok (some item) else halt .malformed item

/-- The text behind the bracket that ends a list. -/
def endList (s : Text) : Except Halt Text :=
  match skipBlanks s with
  | ']' :: rest => .ok rest
  | rest => halt .malformed rest

/-- The elements of a list from behind its opening bracket, each read by `item`. -/
def readItems {α : Type} (item : Reader α) : Nat → Bool → Reader (List α)
  | 0, _, s => halt .malformed s
  | fuel + 1, first, s => do
    match ← nextItem first s with
    | none =>
      let rest ← endList s
      .ok ([], rest)
    | some s =>
      let (v, s) ← item s
      let (vs, s) ← readItems item fuel false s
      .ok (v :: vs, s)

/-- The text from the next key of an object on, behind its quote, or `none` in
front of the brace that ends the object. -/
def nextKey (first : Bool) (s : Text) : Except Halt (Option Text) :=
  match skipBlanks s with
  | '}' :: _ => .ok none
  | ',' :: rest =>
    if first then halt .malformed (',' :: rest)
    else
      match skipBlanks rest with
      | '"' :: key => .ok (some key)
      | other => halt .malformed other
  | '"' :: key => if first then .ok (some key) else halt .malformed ('"' :: key)
  | other => halt .malformed other

/-- The text behind the brace that ends an object. -/
def endObject (s : Text) : Except Halt Text :=
  match skipBlanks s with
  | '}' :: rest => .ok rest
  | rest => halt .malformed rest

/-- The text behind the colon that follows a key. -/
def expectColon (s : Text) : Except Halt Text :=
  match skipBlanks s with
  | ':' :: rest => .ok rest
  | rest => halt .malformed rest

/-- The text of a string from behind its opening quote. -/
def readQuoted (s : Text) : Except Halt (Text × Text) :=
  match unquote? s with
  | some r => .ok r
  | none => halt .malformed s

/-- The members of an object from behind its opening brace. What has been read is
kept in an accumulator, which `member` extends by the key that has been read and
the value behind it. -/
def readMembers {σ : Type} (member : σ → Text → Reader σ) : Nat → Bool → σ → Reader σ
  | 0, _, _, s => halt .malformed s
  | fuel + 1, first, acc, s => do
    match ← nextKey first s with
    | none =>
      let rest ← endObject s
      .ok (acc, rest)
    | some s =>
      let (key, s) ← readQuoted s
      let (acc, s) ← member acc key s
      readMembers member fuel false acc s

/-! ### Values -/

/-- A number. -/
def readNumber (s : Text) : Except Halt (Value × Text) :=
  match Numeral.read? s with
  | none => halt .malformed s
  | some (n, rest) =>
    match n.value? with
    | some v => .ok (v, rest)
    | none => halt .outOfRange rest

/-- A value that is not a collection. -/
def readScalar (s : Text) : Except Halt (Value × Text) :=
  match s with
  | 'n' :: _ => do .ok (.null, ← expectWord ['n', 'u', 'l', 'l'] s)
  | 't' :: _ => do .ok (.bool true, ← expectWord ['t', 'r', 'u', 'e'] s)
  | 'f' :: _ => do .ok (.bool false, ← expectWord ['f', 'a', 'l', 's', 'e'] s)
  | '"' :: rest => do
    let (t, rest) ← readQuoted rest
    .ok (.string t, rest)
  | c :: _ => if c = '-' ∨ c.isDigit then readNumber s else halt .malformed s
  | [] => halt .malformed s

/-- A value in which at most `depth` collections are nested; `fuel` is at least
the number of elements of any of them. -/
def readValue (fuel : Nat) : Nat → Reader Value
  | depth, s =>
    match skipBlanks s with
    | '[' :: rest =>
      match depth with
      | 0 => halt .tooDeep rest
      | depth + 1 => do
        let (items, rest) ← readItems (readValue fuel depth) fuel true rest
        .ok (.array items, rest)
    | '{' :: rest =>
      match depth with
      | 0 => halt .tooDeep rest
      | depth + 1 => do
        let member (acc : Entries Value) (key s : Text) : Except Halt (Entries Value × Text) := do
          let s ← expectColon s
          let (v, s) ← readValue fuel depth s
          .ok (acc.insert key v, s)
        let (members, rest) ← readMembers member fuel true [] rest
        .ok (.object members, rest)
    | s => readScalar s

/-! ### Values of a certain kind -/

/-- What a value that is not a collection is told as when another was wanted. -/
def foundOf : Value → Found
  | .null => .null
  | .bool b => .boolean b
  | .integer n _ => .integer n
  | .float x => .float (numberStyle.write x)
  | .string s => .string s
  | .array _ => .sequence
  | .object _ => .map

/-- Refuse the value at the front of a text, which is not of the kind that is
wanted. Of a collection nothing is read. -/
def refuse {α : Type} (wanted : Wanted) (s : Text) : Except Halt α :=
  match s with
  | '[' :: _ => halt (.invalidType .sequence wanted) s
  | '{' :: _ => halt (.invalidType .map wanted) s
  | _ => do
    let (v, rest) ← readScalar s
    halt (.invalidType (foundOf v) wanted) rest

/-- A string, or nothing for `null`. -/
def readOptionalString (s : Text) : Except Halt (Option Text × Text) :=
  match skipBlanks s with
  | 'n' :: rest => do .ok (none, ← expectWord ['n', 'u', 'l', 'l'] ('n' :: rest))
  | '"' :: rest => do
    let (t, rest) ← readQuoted rest
    .ok (some t, rest)
  | s => refuse .string s

end Json

end Stencil
