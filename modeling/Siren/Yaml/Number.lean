import Siren.Text.Digits

/-!
# YAML numbers

Integers are written in four bases and fit into 64 bits.  A number with a
fraction or an exponent is one of double precision, of which only the whole part
is kept.
-/

namespace Siren
namespace Yaml

/-- The value of an integer without its sign: hexadecimal after `0x`, octal
after `0o` or `0`, binary after `0b`, and decimal otherwise. -/
def unsigned? : Text → Option Nat
  | [48] => some 0
  | 48 :: mark :: digits =>
    if mark = 120 || mark = 88 then Text.magnitude? 16 digits
    else if mark = 98 || mark = 66 then Text.magnitude? 2 digits
    else if mark = 111 || mark = 79 then Text.magnitude? 8 digits
    else Text.magnitude? 8 (mark :: digits)
  | digits => Text.magnitude? 10 digits

/-- An integer of 64 bits by its sign and its magnitude; one without a sign may
use all bits for the magnitude. -/
def ofMagnitude? (sign : Option Bool) (magnitude : Nat) : Option Int :=
  match sign with
  | some true => if magnitude ≤ Nat.pow 2 63 then some (-(magnitude : Int)) else none
  | some false => if magnitude < Nat.pow 2 63 then some (magnitude : Int) else none
  | none => if magnitude < Nat.pow 2 64 then some (magnitude : Int) else none

/-- The integer that a text without underscores denotes. -/
def integer? (text : Text) : Option Int :=
  (unsigned? (Text.splitSign text).2).bind (ofMagnitude? (Text.splitSign text).1)

/-- The integer that a text denotes which has its sign behind the mark of the
base, as in `0b-101`. -/
def markedInteger? : Text → Option Int
  | 48 :: mark :: rest =>
    let (sign, digits) := Text.splitSign rest
    if mark = 98 then (Text.magnitude? 2 digits).bind (ofMagnitude? sign)
    else if mark = 111 then (Text.magnitude? 8 digits).bind (ofMagnitude? sign)
    else none
  | _ => none

/-- The digits at the start of a text, and the rest. -/
def spanDigits (text : Text) : Text × Text :=
  (text.takeWhile Text.isDigit, text.dropWhile Text.isDigit)

/-- The exponent at the end of a number. -/
def exponent? : Text → Option Int
  | [] => some 0
  | mark :: rest =>
    if mark = 101 || mark = 69 then
      match Text.splitSign rest with
      | (sign, digits) =>
        (Text.magnitude? 10 digits).map fun value =>
          if sign = some true then -(value : Int) else (value : Int)
    else
      none

/-- The natural number nearest to a quotient, of two the even one. -/
def nearest (numerator denominator : Nat) : Nat :=
  let quotient := numerator / denominator
  let twice := 2 * (numerator % denominator)
  if denominator < twice || (twice = denominator && quotient % 2 = 1) then quotient + 1
  else quotient

/-- The number of binary digits of a natural number; zero has none. -/
def bitLength (value : Nat) : Nat :=
  if value = 0 then 0 else Nat.log2 value + 1

/-- The binary digits of a number of double precision. -/
def precision : Nat := 53

/-- The whole part of the number of double precision that is nearest to a
quotient. -/
def wholeOfNearest (numerator denominator : Nat) : Nat :=
  let size := bitLength (numerator / denominator)
  if size ≤ precision then
    nearest (numerator <<< (precision - size)) denominator >>> (precision - size)
  else
    nearest numerator (denominator <<< (size - precision)) <<< (size - precision)

/-- The least quotient that is too large for double precision. -/
def tooLarge : Nat := Nat.pow 2 1024 - Nat.pow 2 970

/-- The whole part of digits before a power of ten, in double precision. -/
def whole? (digits : Text) (scale : Int) : Option Nat :=
  (Text.magnitude? 10 digits).bind fun value =>
    if value = 0 || (digits.length : Int) < -scale then
      some 0
    else if 309 < (digits.dropWhile (· = 48)).length + scale then
      none
    else
      let numerator := value * Nat.pow 10 scale.toNat
      let denominator := Nat.pow 10 (-scale).toNat
      if tooLarge * denominator ≤ numerator then none
      else some (wholeOfNearest numerator denominator)

/-- The whole part of the number that a text denotes, with its sign. -/
def decimal? (text : Text) : Option Int :=
  let (sign, rest) := Text.splitSign text
  let (before, rest) := spanDigits rest
  let (after, rest, pointed) : Text × Text × Bool :=
    match rest with
    | 46 :: rest => ((spanDigits rest).1, (spanDigits rest).2, true)
    | rest => ([], rest, false)
  if before = [] && (!pointed || after = []) then
    none
  else
    (exponent? rest).bind fun exponent =>
      (whole? (before ++ after) (exponent - after.length)).map fun value =>
        if sign = some true then -(value : Int) else (value : Int)

end Yaml
end Siren
