import Stencil.Dict
import Stencil.Piece

/-!
# Expansion

Expanding a text replaces its unescaped tokens by values and takes one level of
escaping off the rest. Plain text stays as it is. An escaped token or opener
loses the backslash that escapes it. In front of any other token or opener, two
backslashes become one. A value is itself unescaped before it is inserted, and
is not looked through for tokens.

A resolver answers the names that unescaped tokens ask for, and may refuse: the
token then stays. Resolvers come in two kinds, a plain function (`expand`), and
one with a memory that each question may change (`expandWith`).
-/

namespace Stencil

namespace Piece

/-- A piece with one level of escaping taken off, its token left as it is. -/
def unescaped : Piece → Text
  | text s => s
  | token name run => slashes (token name run).keptSlashes ++ literal name
  | opener run => slashes (opener run).keptSlashes ++ opening

end Piece

/-- One level of escaping taken off a text, its tokens left as they are. -/
def unescape (s : Text) : Text := (scan s).flatMap Piece.unescaped

/-- The names of the tokens of a text, escaped or not, each once, in ascending order. -/
def tokenNames (s : Text) : List Text := sortedNames ((scan s).filterMap Piece.name?)

/-- The names that the tokens of a text ask for, in the order of the text. -/
def askedNames (s : Text) : List Text := (scan s).filterMap Piece.asks?

/-- Some token of the text is not escaped. -/
def hasUnescapedToken (s : Text) : Bool := (scan s).any fun p => p.asks?.isSome

namespace Piece

/-- What a piece becomes, given the answer to the name it asks for. -/
def answered (p : Piece) : Option Text → Text
  | some value => slashes p.keptSlashes ++ unescape value
  | none => p.unescaped

/-- What a piece becomes under a resolver. -/
def expanded (resolve : Text → Option Text) (p : Piece) : Text :=
  p.answered (p.asks?.bind resolve)

end Piece

/-- A text with its unescaped tokens replaced by the values a resolver knows. -/
def expand (resolve : Text → Option Text) (s : Text) : Text :=
  (scan s).flatMap (Piece.expanded resolve)

section Memory

variable {σ : Type}

/-- Expansion of pieces by a resolver with a memory: the text, and the memory
after the last question. -/
def expandPieces (resolve : σ → Text → Option Text × σ) (m : σ) : List Piece → Text × σ
  | [] => ([], m)
  | p :: ps =>
    let (answer, m) := match p.asks? with
      | none => (none, m)
      | some name => resolve m name
    let (out, m) := expandPieces resolve m ps
    (p.answered answer ++ out, m)

/-- A text expanded by a resolver with a memory. -/
def expandWith (resolve : σ → Text → Option Text × σ) (m : σ) (s : Text) : Text × σ :=
  expandPieces resolve m (scan s)

end Memory

/-- A text expanded by a plain resolver, with the names it was asked for, in order. -/
def expandRecorded (resolve : Text → Option Text) (s : Text) : Text × List Text :=
  let (out, asked) := expandWith (fun asked name => (resolve name, name :: asked)) [] s
  (out, asked.reverse)

end Stencil
