import Stencil.Piece

/-!
# Cutting a text by byte offsets

The second way to cut a text into its pieces: a cursor is a byte offset into
the text, the opener and the closing brace are searched for in the bytes, and
the backslashes in front of an opener are counted backwards byte by byte. The
text itself is only ever cut at an offset, and a cut inside a character is
reported as such (`Cursor.Step.torn`) instead of being rounded.

Each step moves the offset forward and never beyond the last byte
(`Cursor.pos_lt_of_next`), so running the cursor ends.
-/

namespace Stencil

namespace Bytes

/-- The offset of the first opener in a list of bytes. -/
def findOpening : List UInt8 → Option Nat
  | b :: c :: bs => if b = 0x24 ∧ c = 0x7B then some 0 else (findOpening (c :: bs)).map (· + 1)
  | _ => none

/-- The offset of the first closing brace in a list of bytes. -/
def findClosing : List UInt8 → Option Nat
  | [] => none
  | b :: bs => if b = 0x7D then some 0 else (findClosing bs).map (· + 1)

/-- How many backslash bytes a list of bytes ends in. -/
def trailingSlashes (bs : List UInt8) : Nat := (bs.reverse.takeWhile (· == 0x5C)).length

end Bytes

/-- A place in a text, as a byte offset. -/
structure Cursor where
  /-- The whole text. -/
  input : Text
  /-- How many bytes lie behind. -/
  pos : Nat

namespace Cursor

/-- What one step of a cursor finds. -/
inductive Step where
  /-- The text is used up. -/
  | done
  /-- A cut would fall inside a character. -/
  | torn
  /-- A piece, and the cursor behind it. -/
  | piece (p : Piece) (next : Cursor)

/-- The cursor in front of a text. -/
def start (input : Text) : Cursor := ⟨input, 0⟩

/-- The piece at a cursor, when `rest` is the text from the cursor on. -/
def nextOf (c : Cursor) (rest : Text) : Step :=
  match Bytes.findOpening rest.utf8 with
  | none => .piece (.text rest) ⟨c.input, c.input.utf8Size⟩
  | some found =>
    let run := Bytes.trailingSlashes (rest.utf8.take found)
    if 0 < found - run then
      match rest.takeBytes? (found - run) with
      | none => .torn
      | some lead => .piece (.text lead) ⟨c.input, c.pos + (found - run)⟩
    else
      match rest.dropBytes? (found + 2) with
      | none => .torn
      | some body =>
        match Bytes.findClosing body.utf8 with
        | none => .piece (.opener run) ⟨c.input, c.pos + (found + 2)⟩
        | some stop =>
          match body.takeBytes? stop with
          | none => .torn
          | some name => .piece (.token name run) ⟨c.input, c.pos + (found + 2 + stop + 1)⟩

/-- The piece at a cursor and the cursor behind it. -/
def next (c : Cursor) : Step :=
  if c.input.utf8Size ≤ c.pos then .done
  else
    match c.input.dropBytes? c.pos with
    | none => .torn
    | some rest => c.nextOf rest

theorem input_nextOf {c d : Cursor} {rest : Text} {p : Piece} (h : c.nextOf rest = .piece p d)
    (hpos : c.pos < c.input.utf8Size) : d.input = c.input ∧ c.pos < d.pos := by
  unfold nextOf at h
  split at h
  · cases h
    exact ⟨rfl, hpos⟩
  · dsimp only at h
    split at h
    · split at h
      · cases h
      · cases h
        exact ⟨rfl, by dsimp only; omega⟩
    · split at h
      · cases h
      · split at h
        · cases h
          exact ⟨rfl, by dsimp only; omega⟩
        · split at h
          · cases h
          · cases h
            exact ⟨rfl, by dsimp only; omega⟩

/-- A step stays in the text and moves forward from an offset inside it. -/
theorem pos_lt_of_next {c d : Cursor} {p : Piece} (h : c.next = .piece p d) :
    d.input = c.input ∧ c.pos < c.input.utf8Size ∧ c.pos < d.pos := by
  unfold next at h
  split at h
  · simp at h
  · next hpos =>
    split at h
    · simp at h
    · have := input_nextOf h (by omega)
      exact ⟨this.1, by omega, this.2⟩

/-- The pieces from a cursor on, or nothing if a cut would fall inside a character. -/
def pieces (c : Cursor) : Option (List Piece) :=
  match _h : c.next with
  | .done => some []
  | .torn => none
  | .piece p d => (pieces d).map (p :: ·)
termination_by c.input.utf8Size - c.pos
decreasing_by
  have := pos_lt_of_next _h
  rw [this.1]
  omega

end Cursor

end Stencil
