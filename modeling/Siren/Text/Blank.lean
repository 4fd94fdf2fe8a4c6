import Siren.Text.Rune

/-!
# White space of all scripts

`trim` removes the code points with the Unicode property `White_Space` from
both ends of a text.
-/

namespace Siren

/-- Whether a code point is white space. -/
def Rune.isBlank (rune : Rune) : Bool :=
  let code := rune.code
  (9 ≤ code && code ≤ 13) || code = 0x20 || code = 0x85 || code = 0xA0 ||
    code = 0x1680 || (0x2000 ≤ code && code ≤ 0x200A) || code = 0x2028 ||
    code = 0x2029 || code = 0x202F || code = 0x205F || code = 0x3000

namespace Text

/-- The text without the white space at its ends. -/
def trim (text : Text) : Text :=
  let started := text.runes.dropWhile Rune.isBlank
  ofRunes (started.reverse.dropWhile Rune.isBlank).reverse

/-- Whether a text holds nothing but white space. -/
def isBlank (text : Text) : Bool :=
  text.runes.all Rune.isBlank

end Text
end Siren
