/-!
# Byte text

Source, messages and output are strings of bytes that need not be valid UTF-8,
so positions and lengths count bytes.  A string literal stands for its UTF-8
bytes.
-/

namespace Siren

/-- A string of bytes. -/
abbrev Text := List UInt8

namespace Text

/-- The UTF-8 bytes of a string. -/
def ofString (string : String) : Text :=
  string.toList.flatMap String.utf8EncodeChar

instance : Coe String Text := ⟨ofString⟩

/-- The byte of a line feed. -/
def lineFeed : UInt8 := 10

/-- The byte of a carriage return. -/
def carriageReturn : UInt8 := 13

/-- The byte of a space. -/
def space : UInt8 := 32

/-- The decimal digits of a natural number, most significant first. -/
def ofNat (value : Nat) : Text :=
  ofString (Nat.repr value)

/-- An integer in decimal, with a minus sign when it is negative. -/
def ofInt : Int → Text
  | .ofNat value => ofNat value
  | .negSucc value => ofString "-" ++ ofNat (value + 1)

/-- The spelling of a truth value. -/
def ofBool : Bool → Text
  | true => ofString "true"
  | false => ofString "false"

/-- The texts in order with `separator` between neighbours. -/
def join (separator : Text) : List Text → Text
  | [] => []
  | [piece] => piece
  | piece :: pieces => piece ++ separator ++ join separator pieces

/-- The pieces between line feeds; a text without one is its only piece. -/
def lines : Text → List Text
  | [] => [[]]
  | byte :: rest =>
    if byte = lineFeed then
      [] :: lines rest
    else
      match lines rest with
      | [] => [[byte]]
      | piece :: pieces => (byte :: piece) :: pieces

/-- The text without the carriage returns at its end. -/
def trimCarriageReturns (text : Text) : Text :=
  (text.reverse.dropWhile (· = carriageReturn)).reverse

/-- Whether `start` is a first part of the text. -/
def startsWith (text start : Text) : Bool :=
  start.isPrefixOf text

/-- The text with every line feed replaced by a space. -/
def onOneLine (text : Text) : Text :=
  text.map fun byte => if byte = lineFeed then space else byte

/-- The text followed by a line feed. -/
def line (text : Text) : Text :=
  text ++ [lineFeed]

@[simp] theorem lines_nil : lines [] = [[]] := rfl

/-- A text has at least one piece. -/
theorem lines_ne_nil (text : Text) : lines text ≠ [] := by
  cases text with
  | nil => simp
  | cons byte rest =>
      unfold lines
      split
      · simp
      · split <;> simp

end Text
end Siren
