import Stencil.Text

/-!
# Pieces of a text

A text is cut at its *openers* `${` into pieces. A piece is a stretch of plain
text, a **token** (an opener, a name and the first closing brace after it), or
an opener that no closing brace follows. The whole run of backslashes directly
in front of an opener belongs to the piece of that opener, so the parity of the
run alone decides whether the piece is escaped.

Nothing is lost: a piece knows the text it stands for (`Piece.source`). The
lists of pieces that a text can have are the canonical ones
(`Piece.Canonical`): no piece could have been cut otherwise, and no two could
have been one.

`scan` cuts a text at its first opener, gives the backslashes in front of it to
the piece of the opener, and goes on behind the closing brace, or behind the
opener itself when it is never closed.
-/

namespace Stencil

/-- A piece of a text. -/
inductive Piece where
  /-- Plain text. -/
  | text (s : Text)
  /-- A complete token, behind a run of backslashes. -/
  | token (name : Text) (run : Nat)
  /-- An opener without a closing brace anywhere behind it. -/
  | opener (run : Nat)
  deriving DecidableEq

namespace Piece

/-- What opens a token. -/
def opening : Text := ['$', '{']

/-- What closes a token. -/
def closing : Char := '}'

/-- The literal form of the token with a name. -/
def literal (name : Text) : Text := opening ++ name ++ [closing]

/-- The text a piece stands for. -/
def source : Piece → Text
  | text s => s
  | token name run => slashes run ++ literal name
  | opener run => slashes run ++ opening

/-- The backslashes directly in front of the opener of a piece. -/
def run : Piece → Nat
  | text _ => 0
  | token _ run => run
  | opener run => run

/-- An odd run escapes the opener it stands in front of. -/
def isEscaped (p : Piece) : Bool := p.run % 2 == 1

/-- The backslashes that are left of the run once the piece is written out: an
escaped piece loses the one that escapes it, in any other run two backslashes
stand for one. -/
def keptSlashes (p : Piece) : Nat := if p.isEscaped then p.run - 1 else p.run / 2

/-- The name of a token. -/
def name? : Piece → Option Text
  | token name _ => some name
  | _ => none

/-- The name that a piece asks for a value: that of a token which is not escaped. -/
def asks? (p : Piece) : Option Text := if p.isEscaped then none else p.name?

/-! ### Canonical lists -/

/-- The text has an opener somewhere. -/
def HasOpening (s : Text) : Prop := opening.IsInfix s

/-- A piece that is as cut: plain text is not empty and hides no opener, and a
name stops before the first closing brace. -/
def Proper : Piece → Prop
  | text s => s ≠ [] ∧ ¬ HasOpening s
  | token name _ => closing ∉ name
  | opener _ => True

/-- Two pieces that may stand side by side: no two plain texts, and no plain text
that ends in a backslash in front of an opener, which would own the backslash. -/
def Adjoins : Piece → Piece → Prop
  | text _, text _ => False
  | text s, _ => s.getLast? ≠ some '\\'
  | _, _ => True

/-- The second piece may stand anywhere behind the first: behind an opener that
is never closed there is no closing brace, hence no token and no plain text
that has one. -/
def LeavesOpen : Piece → Piece → Prop
  | opener _, token _ _ => False
  | opener _, text s => closing ∉ s
  | _, _ => True

/-- Every two neighbours may stand side by side. -/
def Adjoining : List Piece → Prop
  | p :: q :: ps => p.Adjoins q ∧ Adjoining (q :: ps)
  | _ => True

/-- A list of pieces that is the list of pieces of a text. -/
structure Canonical (ps : List Piece) : Prop where
  /-- Each piece is as cut. -/
  proper : ∀ p ∈ ps, p.Proper
  /-- Neighbours may stand side by side. -/
  adjoining : Adjoining ps
  /-- Nothing behind an unclosed opener closes it. -/
  unclosed : ps.Pairwise LeavesOpen

/-- The text of a list of pieces. -/
def sources (ps : List Piece) : Text := ps.flatMap source

end Piece

/-! ### Cutting a text into its pieces -/

namespace Text

/-- The text in front of the first opener and the text behind it. -/
def cutOpening : Text → Option (Text × Text)
  | [] => none
  | '$' :: '{' :: s => some ([], s)
  | c :: s => (cutOpening s).map fun (a, b) => (c :: a, b)

/-- The text in front of the first closing brace and the text behind it. -/
def cutClosing : Text → Option (Text × Text)
  | [] => none
  | '}' :: s => some ([], s)
  | c :: s => (cutClosing s).map fun (a, b) => (c :: a, b)

theorem eq_of_cutOpening {s a b : Text} (h : s.cutOpening = some (a, b)) :
    s = a ++ Piece.opening ++ b := by
  fun_induction cutOpening s generalizing a b with
  | case1 => simp at h
  | case2 s =>
    simp only [Option.some.injEq, Prod.mk.injEq] at h
    obtain ⟨rfl, rfl⟩ := h
    rfl
  | case3 c s _ ih =>
    obtain ⟨⟨a', b'⟩, hab, heq⟩ := Option.map_eq_some_iff.mp h
    simp only [Prod.mk.injEq] at heq
    obtain ⟨rfl, rfl⟩ := heq
    simpa using ih hab

theorem eq_of_cutClosing {s a b : Text} (h : s.cutClosing = some (a, b)) :
    s = a ++ Piece.closing :: b := by
  fun_induction cutClosing s generalizing a b with
  | case1 => simp at h
  | case2 s =>
    simp only [Option.some.injEq, Prod.mk.injEq] at h
    obtain ⟨rfl, rfl⟩ := h
    rfl
  | case3 c s _ ih =>
    obtain ⟨⟨a', b'⟩, hab, heq⟩ := Option.map_eq_some_iff.mp h
    simp only [Prod.mk.injEq] at heq
    obtain ⟨rfl, rfl⟩ := heq
    simpa using ih hab

theorem length_lt_of_cutOpening {s a b : Text} (h : s.cutOpening = some (a, b)) :
    b.length < s.length := by
  simp [eq_of_cutOpening h, Piece.opening]
  omega

theorem length_lt_of_cutClosing {s a b : Text} (h : s.cutClosing = some (a, b)) :
    b.length < s.length := by
  simp [eq_of_cutClosing h]
  omega

end Text

/-- Plain text as a list of pieces: none if it is empty. -/
def Piece.plain : Text → List Piece
  | [] => []
  | s => [.text s]

/-- The pieces of a text, in order. -/
def scan (s : Text) : List Piece :=
  match _hopen : s.cutOpening with
  | none => Piece.plain s
  | some (lead, body) =>
    let run := lead.trailingSlashes
    Piece.plain (lead.take (lead.length - run)) ++
      match _hclose : body.cutClosing with
      | some (name, rest) => .token name run :: scan rest
      | none => .opener run :: scan body
termination_by s.length
decreasing_by
  · have := Text.length_lt_of_cutOpening _hopen
    have := Text.length_lt_of_cutClosing _hclose
    omega
  · exact Text.length_lt_of_cutOpening _hopen

end Stencil
