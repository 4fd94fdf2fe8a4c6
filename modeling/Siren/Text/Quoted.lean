import Siren.Text.Blank
import Siren.Text.Printable

/-!
# Quoted text

A text with blanks, quotes, equals signs or code points that cannot be printed
is written between double quotes, with the latter escaped.  A string literal
escapes backslashes and malformed bytes as well.
-/

namespace Siren

/-- The hexadecimal digit of a number below sixteen. -/
def Text.hexDigit (value : Nat) : UInt8 :=
  if value < 10 then UInt8.ofNat (48 + value) else UInt8.ofNat (87 + value)

/-- The last `count` hexadecimal digits of a number. -/
def Text.hex : Nat → Nat → Text
  | 0, _ => []
  | count + 1, value => hex count (value / 16) ++ [hexDigit (value % 16)]

namespace Rune

/-- The escape of a code point that cannot be printed. -/
def escape (code : Nat) : Text :=
  if code = 7 then "\\a"
  else if code = 8 then "\\b"
  else if code = 12 then "\\f"
  else if code = 10 then "\\n"
  else if code = 13 then "\\r"
  else if code = 9 then "\\t"
  else if code = 11 then "\\v"
  else if code < 0x20 then "\\x" ++ Text.hex 2 code
  else if code < 0x10000 then "\\u" ++ Text.hex 4 code
  else "\\U" ++ Text.hex 8 code

/-- The code of the double quote. -/
def quote : Nat := 34

/-- The code of the backslash. -/
def backslash : Nat := 92

/-- A piece of a text within a string literal. -/
def literal (rune : Rune) : Text :=
  if !rune.isWellFormed then "\\x" ++ rune.bytes.flatMap fun byte => Text.hex 2 byte.toNat
  else if rune.code = quote || rune.code = backslash then "\\" ++ rune.bytes
  else if rune.isPrintable then rune.bytes
  else if rune.code = 0x7F then "\\x7f"
  else escape rune.code

end Rune

namespace Text

/-- A text with what cannot be printed escaped, and double quotes too if
`quotes` is set.  Malformed bytes become replacement characters if anything is
escaped or a double quote stands in the text. -/
def escape (quotes : Bool) (text : Text) : Text :=
  if text.runes.all fun rune => rune.isPrintable && rune.code ≠ Rune.quote then
    text
  else
    text.runes.flatMap fun rune =>
      if quotes && rune.code = Rune.quote then "\\\""
      else if rune.isPrintable then Rune.encode rune.code
      else Rune.escape rune.code

/-- Whether a text has to be quoted. -/
def needsQuotes (text : Text) : Bool :=
  text.runes.any fun rune =>
    rune.code = Rune.quote || rune.code = 61 || rune.code = Rune.replacement ||
      rune.isBlank || !rune.isPrintable

/-- A text as a string literal. -/
def literal (text : Text) : Text :=
  "\"" ++ text.runes.flatMap Rune.literal ++ "\""

/-- The quoted form of a text. -/
def quoted (text : Text) : Text :=
  "\"" ++ text.escape true ++ "\""

end Text
end Siren
