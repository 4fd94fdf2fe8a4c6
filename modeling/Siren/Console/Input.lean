import Siren.Text.Rune

/-!
# Lines of input

Input is read line by line through a buffer of fixed size.  A line that fills
the buffer is cut there.
-/

namespace Siren
namespace Input

/-- The size of the buffer. -/
def capacity : Nat := 4096

/-- A line of input. -/
structure Line where
  text : Text
  /-- Whether the line was cut. -/
  isCut : Bool

/-- The text without one carriage return at its end. -/
def dropReturn (text : Text) : Text :=
  if text.getLast? = some Text.carriageReturn then text.dropLast else text

/-- The first line of an input that is not empty, and the number of bytes it
takes up with what closes it.  A carriage return stays with what follows the
cut, and belongs to the line when the input ends there. -/
def firstLine (input : Text) : Line × Nat :=
  let window := input.take capacity
  if Text.lineFeed ∈ window then
    let text := window.takeWhile (· ≠ Text.lineFeed)
    (⟨dropReturn text, false⟩, text.length + 1)
  else if window.length < capacity then
    (⟨window, false⟩, window.length)
  else
    (⟨dropReturn window, true⟩, (dropReturn window).length)

/-- The lines of an input, at most `count` of them. -/
def linesWithin : Nat → Text → List Line
  | 0, _ => []
  | count + 1, input =>
    if input = [] then
      []
    else
      (firstLine input).1 :: linesWithin count (input.drop (firstLine input).2)

/-- The lines of an input, each of which takes up at least one byte. -/
def lines (input : Text) : List Line :=
  linesWithin input.length input

end Input
end Siren
