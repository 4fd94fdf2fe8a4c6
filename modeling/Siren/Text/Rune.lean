import Siren.Text

/-!
# Code points of a byte text

`runes` cuts a text into the code points it encodes in UTF-8.  A byte that
starts no well-formed sequence is a piece of its own and counts as the
replacement character, so the pieces always make up the whole text.
-/

namespace Siren

/-- A piece of a text: the code point it encodes and its bytes. -/
structure Rune where
  code : Nat
  bytes : Text
  deriving DecidableEq, Repr

namespace Rune

/-- The code point that stands for a malformed byte. -/
def replacement : Nat := 0xFFFD

/-- Whether the bytes are a well-formed sequence. -/
def isWellFormed (rune : Rune) : Bool :=
  rune.code ≠ replacement || rune.bytes.length ≠ 1

/-- The UTF-8 bytes of a code point. -/
def encode (code : Nat) : Text :=
  String.utf8EncodeChar (Char.ofNat code)

/-- Whether a byte continues a sequence. -/
def isContinuation (byte : UInt8) : Bool :=
  0x80 ≤ byte && byte ≤ 0xBF

/-- The six low bits of a continuation byte. -/
def low (byte : UInt8) : Nat :=
  byte.toNat % 64

/-- Whether a second byte may follow a first byte: overlong forms, surrogates
and numbers past the last code point are left out. -/
def secondFits (first second : UInt8) : Bool :=
  if first = 0xE0 then 0xA0 ≤ second && second ≤ 0xBF
  else if first = 0xED then 0x80 ≤ second && second ≤ 0x9F
  else if first = 0xF0 then 0x90 ≤ second && second ≤ 0xBF
  else if first = 0xF4 then 0x80 ≤ second && second ≤ 0x8F
  else isContinuation second

/-- The first piece of a text whose first byte is `first`. -/
def head (first : UInt8) (rest : Text) : Rune :=
  let malformed : Rune := ⟨replacement, [first]⟩
  if first < 0x80 then
    ⟨first.toNat, [first]⟩
  else if 0xC2 ≤ first && first ≤ 0xDF then
    match rest with
    | second :: _ =>
      if isContinuation second then
        ⟨first.toNat % 32 * 64 + low second, [first, second]⟩
      else
        malformed
    | _ => malformed
  else if 0xE0 ≤ first && first ≤ 0xEF then
    match rest with
    | second :: third :: _ =>
      if secondFits first second && isContinuation third then
        ⟨(first.toNat % 16 * 64 + low second) * 64 + low third, [first, second, third]⟩
      else
        malformed
    | _ => malformed
  else if 0xF0 ≤ first && first ≤ 0xF4 then
    match rest with
    | second :: third :: fourth :: _ =>
      if secondFits first second && isContinuation third && isContinuation fourth then
        ⟨((first.toNat % 8 * 64 + low second) * 64 + low third) * 64 + low fourth,
          [first, second, third, fourth]⟩
      else
        malformed
    | _ => malformed
  else
    malformed

/-- A piece has at least one byte. -/
theorem length_head_pos (first : UInt8) (rest : Text) :
    0 < (head first rest).bytes.length := by
  unfold head
  repeat' split
  all_goals simp

end Rune

namespace Text

/-- The pieces of a text. -/
def runes : Text → List Rune
  | [] => []
  | first :: rest =>
    Rune.head first rest ::
      runes ((first :: rest).drop (Rune.head first rest).bytes.length)
termination_by text => text.length
decreasing_by
  have positive := Rune.length_head_pos first rest
  simp only [List.length_drop, List.length_cons]
  omega

/-- The text that pieces make up. -/
def ofRunes (runes : List Rune) : Text :=
  runes.flatMap Rune.bytes

/-- Whether a text is well-formed UTF-8. -/
def isUtf8 (text : Text) : Bool :=
  text.runes.all Rune.isWellFormed

end Text
end Siren
