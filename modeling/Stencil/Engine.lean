import Stencil.Expansion

/-!
# Engines

An engine joins its fragments by its delimiter and expands the tokens of the
whole. It holds a value for some names, and possibly a default for all others.
Values and defaults with an unescaped token are refused, so that what is
inserted asks for nothing.

Compiling needs a value for the name of every token, escaped or not. With a
default in force the names without a value are first bound to it, and stay bound
to it afterwards: compiling returns the text and the engine that remembers. An
engine is a value; what an operation leaves behind is the engine it returns.

What goes wrong is a fault, one of four causes, each with what is needed to tell
it: three arise when an engine is set up, the last when a text is compiled. The
wording of a fault is a function of the cause (`Fault.message`).
-/

namespace Stencil

/-! ### What can go wrong -/

/-- Why an engine could not be set up or a text not be compiled. -/
inductive Fault where
  /-- A value with an unescaped token was to be bound. -/
  | unescapedValue (value : Text)
  /-- A text with an unescaped token was to be the default. -/
  | unescapedDefault (value : Text)
  /-- A document is not a configuration; the text says why. -/
  | configuration (text : Text)
  /-- Names without a value. -/
  | missingKeys (names : List Text)
  deriving DecidableEq

namespace Fault

/-- The wording of a fault. -/
def message : Fault → Text
  | unescapedValue value =>
    "unescaped token passed as replacement value: ".toList ++ value
  | unescapedDefault value => "unescaped token passed as default value: ".toList ++ value
  | configuration text => "invalid configuration: ".toList ++ text
  | missingKeys names =>
    "keys not found in bindings: ".toList ++ List.intercalate ", ".toList names

/-- The fault arose while an engine was set up. -/
def isConfiguration : Fault → Bool
  | missingKeys _ => false
  | _ => true

/-- The fault arose because names had no value. -/
def isMissingKeys : Fault → Bool
  | missingKeys _ => true
  | _ => false

end Fault

/-! ### The engine -/

/-- A text to be composed and expanded, with what is to be inserted. -/
structure Engine where
  /-- The parts of the text. -/
  fragments : List Text
  /-- What stands between two parts. -/
  delimiter : Text
  /-- The values of the names that have one. -/
  bindings : Dict Text
  /-- The value of the names that have none. -/
  fallback : Option Text
  deriving DecidableEq

namespace Engine

/-- The delimiter of an engine that has been given none: the end of a line. This is the
separator of every build but the one for Windows, where a carriage return stands in front
of the line feed. -/
def lineSeparator : Text := ['\n']

/-- An engine over some fragments, with nothing bound. -/
def ofFragments (fragments : List Text) : Engine := ⟨fragments, lineSeparator, ∅, none⟩

/-! ### What an engine holds -/

/-- The fragments joined by the delimiter. -/
def composed (e : Engine) : Text := List.intercalate e.delimiter e.fragments

/-- The names of the tokens of the joined text, in ascending order. -/
def names (e : Engine) : List Text := tokenNames e.composed

/-- The value bound to a name. -/
def binding (e : Engine) (name : Text) : Option Text := e.bindings.get? name

/-- The names of the joined text that have no value, in ascending order. -/
def unbound (e : Engine) : List Text := e.names.filter fun name => !e.bindings.contains name

/-! ### Setting an engine up -/

/-- Join the fragments by another delimiter. -/
def setDelimiter (e : Engine) (delimiter : Text) : Engine := { e with delimiter }

/-- Give a name a value. -/
def bind (e : Engine) (name value : Text) : Except Fault Engine :=
  if hasUnescapedToken value then .error (.unescapedValue value)
  else .ok { e with bindings := e.bindings.insert name value }

/-- Give all names without a value a default. -/
def setFallback (e : Engine) (value : Text) : Except Fault Engine :=
  if hasUnescapedToken value then .error (.unescapedDefault value)
  else .ok { e with fallback := some value }

/-- Bind entries one after the other up to the first that is refused. The entries
in front of that one stay bound. -/
def bindEach (e : Engine) : Entries Text → Engine × Except Fault Unit
  | [] => (e, .ok ())
  | (name, value) :: entries =>
    match e.bind name value with
    | .ok e => e.bindEach entries
    | .error fault => (e, .error fault)

/-- Bind entries, all or none. -/
def bindAll (e : Engine) (entries : Entries Text) : Except Fault Engine :=
  match e.bindEach entries with
  | (e, .ok ()) => .ok e
  | (_, .error fault) => .error fault

/-! ### Compiling -/

/-- The engine with the names that have no value bound to a text. -/
def fill (e : Engine) (value : Text) : Engine :=
  { e with bindings := e.bindings.overlay (e.unbound.map fun name => (name, value)) }

/-- The joined text expanded by the bindings. -/
def rendered (e : Engine) : Text := expand e.binding e.composed

/-- The text of an engine, and the engine that remembers where the default was used. -/
def compile (e : Engine) : Except Fault (Text × Engine) :=
  match e.unbound, e.fallback with
  | [], _ => .ok (e.rendered, e)
  | _ :: _, some value => .ok ((e.fill value).rendered, e.fill value)
  | missing, none => .error (.missingKeys missing)

end Engine

end Stencil
