import Stencil.Engine
import Stencil.Json.Printer

/-!
# What an engine is set up with

A configuration carries what an engine is set up with besides its fragments. Any
part may be missing, and what is missing leaves the engine as it is. A value is
any JSON value; what is bound is its text: a string is itself, nothing is the
empty text, and a collection is its compact form.

A name may also be given a flag, a number or a character, which stands for the
text it is shown as (`Datum.display`).
-/

namespace Stencil

/-! ### Data that can be bound -/

/-- Numbers are shown without an exponent, whole ones without a point, and of two
equally near shortest decimals the greater one is shown. -/
def Datum.style : Decimal.Style := ⟨.up, none, []⟩

/-- Something that can be given as a value. -/
inductive Datum where
  /-- A text. -/
  | text (s : Text)
  /-- A truth value. -/
  | flag (b : Bool)
  /-- An integer. -/
  | integer (n : Int)
  /-- A binary64 value. -/
  | float (x : Binary64)
  /-- A single character. -/
  | character (c : Char)

namespace Datum

/-- The text of a truth value. -/
def ofFlag (b : Bool) : Text := if b then "true".toList else "false".toList

/-- The text of a binary64 value. -/
def ofFloat : Binary64 → Text
  | .finite x => style.write x
  | .infinite negative => if negative then "-inf".toList else "inf".toList
  | .nan => "NaN".toList

/-- The text that a datum is shown as. -/
def display : Datum → Text
  | text s => s
  | flag b => ofFlag b
  | integer n => Text.ofInt n
  | float x => ofFloat x
  | character c => [c]

end Datum

/-! ### Configurations -/

/-- What an engine is set up with. -/
structure Config where
  /-- What stands between two fragments. -/
  delimiter : Option Text
  /-- The value of the names that have none. -/
  fallback : Option Text
  /-- The values of names. -/
  bindings : Dict Json.Value

namespace Config

/-- The configuration that sets nothing. -/
def empty : Config := ⟨none, none, ∅⟩

instance : Inhabited Config := ⟨empty⟩

/-- The text that a value is bound as. -/
def bindingText : Json.Value → Text
  | .string s => s
  | .null => []
  | v => v.write

/-- The entries to be bound, by ascending name. -/
def entries (c : Config) : Entries Text := c.bindings.toList.map fun (k, v) => (k, bindingText v)

/-- Set an engine up: first the delimiter, then the default, then the bindings by
ascending name, up to the first that is refused. -/
def apply (c : Config) (e : Engine) : Except Fault Engine := do
  let e := match c.delimiter with
    | some delimiter => e.setDelimiter delimiter
    | none => e
  let e ← match c.fallback with
    | some value => e.setFallback value
    | none => .ok e
  e.bindAll c.entries

/-- The configuration as a JSON object: the parts that are not missing, and the
bindings if there are any. -/
def toValue (c : Config) : Json.Value :=
  let field (name : String) (v : Option Text) : List (Text × Json.Value) :=
    match v with
    | some s => [(name.toList, .string s)]
    | none => []
  .object (field "delimiter" c.delimiter ++ field "default" c.fallback ++
    if c.bindings.isEmpty then [] else [("bindings".toList, .object c.bindings.toList)])

/-- The compact form of a configuration. -/
def write (c : Config) : Text := c.toValue.write

/-- Two configurations are equal part by part, values as JSON values. -/
def equal (c d : Config) : Bool :=
  c.delimiter == d.delimiter && c.fallback == d.fallback &&
    Json.Value.equalMembers c.bindings.toList d.bindings.toList

end Config

end Stencil
