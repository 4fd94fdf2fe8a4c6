import Siren.Text

/-!
# Positions in a source text

A position names a byte of the source by its offset and, for messages, by its
line and column.  Columns count bytes.
-/

namespace Siren

/-- A place in a source text: a line and a column counted from one, and the
number of bytes before it. -/
structure Position where
  line : Int
  column : Int
  offset : Nat
  deriving DecidableEq, Repr, Inhabited

namespace Position

/-- The position of the first byte. -/
def start : Position := ⟨1, 1, 0⟩

/-- The position of no token. -/
def nowhere : Position := ⟨0, 0, 0⟩

/-- The position after one byte. -/
def step (position : Position) (byte : UInt8) : Position :=
  if byte = Text.lineFeed then
    ⟨position.line + 1, 1, position.offset + 1⟩
  else
    ⟨position.line, position.column + 1, position.offset + 1⟩

/-- The position after a run of bytes. -/
def advance (position : Position) (bytes : Text) : Position :=
  bytes.foldl step position

/-- The position as `line:column`. -/
def text (position : Position) : Text :=
  Text.ofInt position.line ++ ":" ++ Text.ofInt position.column

@[simp] theorem offset_step (position : Position) (byte : UInt8) :
    (position.step byte).offset = position.offset + 1 := by
  unfold step
  split <;> rfl

@[simp] theorem advance_nil (position : Position) :
    position.advance [] = position := rfl

@[simp] theorem advance_cons (position : Position) (byte : UInt8) (rest : Text) :
    position.advance (byte :: rest) = (position.step byte).advance rest := rfl

/-- Advancing over two runs is advancing over the first and then the second. -/
theorem advance_append (position : Position) (first second : Text) :
    position.advance (first ++ second) =
      (position.advance first).advance second := by
  simp [advance]

/-- Advancing adds the number of bytes to the offset. -/
@[simp] theorem offset_advance (position : Position) (bytes : Text) :
    (position.advance bytes).offset = position.offset + bytes.length := by
  induction bytes generalizing position with
  | nil => simp
  | cons byte rest hypothesis =>
      rw [advance_cons, hypothesis, offset_step, List.length_cons]
      omega

end Position
end Siren
