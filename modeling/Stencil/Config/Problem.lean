import Stencil.Text.Shown

/-!
# Why a document is refused

A document may be refused because it is broken as a document, or because it is
a good document of the wrong shape: a field that a configuration does not have,
a field given twice, or a value of the wrong kind. A problem is one cause, with
what is needed to tell it.
-/

namespace Stencil

namespace Config

/-- What a document holds at a place, as far as a message tells. -/
inductive Found where
  /-- No value. -/
  | null
  /-- No value, in the words of a document without a word for it. -/
  | unit
  /-- A truth value. -/
  | boolean (b : Bool)
  /-- An integer of at most 64 bits. -/
  | integer (n : Int)
  /-- An integer of at most 128 bits, and more than 64. -/
  | wideInteger (n : Int)
  /-- A number that is not an integer, as it is shown. -/
  | float (shown : Text)
  /-- A text. -/
  | string (s : Text)
  /-- A list of values. -/
  | sequence
  /-- A list of keys with their values. -/
  | map
  /-- A value with a tag of its own. -/
  | tagged
  deriving DecidableEq

/-- What is wanted at a place. -/
inductive Wanted where
  /-- A text. -/
  | string
  /-- A text, as the first key of a map. -/
  | stringKey
  /-- The name of a field. -/
  | fieldName
  /-- A list of keys with their values. -/
  | map
  /-- The configuration. -/
  | configuration
  /-- Any value without a tag of its own. -/
  | plainValue
  /-- A truth value. -/
  | boolean
  /-- An integer. -/
  | integer
  /-- A number. -/
  | float
  /-- No value. -/
  | null
  deriving DecidableEq

/-- A name or a number between back quotes. -/
def ticked (s : Text) : Text := '\x60' :: s ++ ['\x60']

/-- The wording of what is found. -/
def Found.describe : Found → Text
  | null => "null".toList
  | unit => "unit value".toList
  | boolean b => "boolean ".toList ++ ticked (if b then "true".toList else "false".toList)
  | integer n => "integer ".toList ++ ticked (Text.ofInt n)
  | wideInteger n =>
    "integer ".toList ++ ticked (Text.ofInt n) ++
      if n < 0 then " as i128".toList else " as u128".toList
  | float shown => "floating point ".toList ++ ticked shown
  | string s => "string ".toList ++ s.shown
  | sequence => "sequence".toList
  | map => "map".toList
  | tagged => "enum".toList

/-- The wording of what is wanted. -/
def Wanted.describe : Wanted → Text
  | string => "a string".toList
  | stringKey => "a string key".toList
  | fieldName => "field identifier".toList
  | map => "a map".toList
  | configuration => "struct EscapeConfig".toList
  | plainValue => "any valid JSON value".toList
  | boolean => "a boolean".toList
  | integer => "an integer".toList
  | float => "a float".toList
  | null => "null".toList

/-- A field of a configuration. -/
inductive Field where
  /-- What stands between two fragments. -/
  | delimiter
  /-- The value of the names that have none. -/
  | default
  /-- The values of names. -/
  | bindings
  deriving DecidableEq

namespace Field

/-- The name of a field in a document. -/
def name : Field → Text
  | delimiter => "delimiter".toList
  | default => "default".toList
  | bindings => "bindings".toList

/-- All fields, in the order in which they are written. -/
def all : List Field := [delimiter, default, bindings]

/-- The field with a name. -/
def ofName? (s : Text) : Option Field := all.find? fun f => f.name == s

end Field

/-- Why a document is refused. -/
inductive Problem where
  /-- The document does not follow the grammar. -/
  | malformed
  /-- A number is too large. -/
  | outOfRange
  /-- Collections are nested too deeply. -/
  | tooDeep
  /-- Something follows the value that the document should be. -/
  | trailing
  /-- A reference to something that the document does not define. -/
  | undefinedReference
  /-- References to references have made the document too large. -/
  | tooManyReferences
  /-- A configuration has no field of that name. -/
  | unknownField (name : Text)
  /-- A field is given again. -/
  | duplicateField (field : Field)
  /-- A value is of another kind than the one that is wanted. -/
  | invalidType (found : Found) (wanted : Wanted)
  /-- A value is of the wanted kind by its tag, and not by its text. -/
  | invalidValue (found : Found) (wanted : Wanted)
  deriving DecidableEq

/-- The wording of a problem. -/
def Problem.describe : Problem → Text
  | malformed => "malformed document".toList
  | outOfRange => "JSON number out of range".toList
  | tooDeep => "recursion limit exceeded".toList
  | trailing => "trailing characters".toList
  | undefinedReference => "unknown anchor".toList
  | tooManyReferences => "repetition limit exceeded".toList
  | unknownField name =>
    "unknown field ".toList ++ ticked name ++ ", expected one of ".toList ++
      List.intercalate ", ".toList (Field.all.map fun f => ticked f.name)
  | duplicateField field => "duplicate field ".toList ++ ticked field.name
  | invalidType found wanted =>
    "invalid type: ".toList ++ found.describe ++ ", expected ".toList ++ wanted.describe
  | invalidValue found wanted =>
    "invalid value: ".toList ++ found.describe ++ ", expected ".toList ++ wanted.describe

/-- A line and a column, both counted from one. -/
structure Place where
  /-- The number of the line. -/
  line : Nat
  /-- The number of the character in its line. -/
  column : Nat

/-- The wording of a place, as it follows a problem. -/
def Place.describe (p : Place) : Text :=
  " at line ".toList ++ Text.ofNat p.line ++ " column ".toList ++ Text.ofNat p.column

/-- The place behind a text that stands at the start of a document. -/
def Place.behind (s : Text) : Place :=
  ⟨s.count '\n' + 1, (s.reverse.takeWhile (· != '\n')).length⟩

end Config

end Stencil
