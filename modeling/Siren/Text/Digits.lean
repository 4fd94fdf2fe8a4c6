import Siren.Text

/-!
# Numbers in text

Digits denote a natural number in a base, most significant first.  Signs and
marks of bases are left to the formats that have them.
-/

namespace Siren
namespace Text

/-- The bytes of the decimal digits. -/
def isDigit (byte : UInt8) : Bool :=
  48 ≤ byte && byte ≤ 57

/-- The value of a digit, with letters for the values from ten on.  Other bytes
have a value that no base allows. -/
def digitValue (byte : UInt8) : Nat :=
  if isDigit byte then byte.toNat - 48
  else if 97 ≤ byte && byte ≤ 122 then byte.toNat - 87
  else if 65 ≤ byte && byte ≤ 90 then byte.toNat - 55
  else 36

/-- The number that digits denote in a base; at least one is needed. -/
def magnitude? (base : Nat) (digits : Text) : Option Nat :=
  if digits = [] || digits.any fun digit => base ≤ digitValue digit then
    none
  else
    some (digits.foldl (fun value digit => value * base + digitValue digit) 0)

/-- The sign of a number and the rest of it; the sign is negative, positive or
absent. -/
def splitSign : Text → Option Bool × Text
  | 45 :: rest => (some true, rest)
  | 43 :: rest => (some false, rest)
  | text => (none, text)

/-- The integer that a text denotes in decimal, if it fits into 64 bits.  Only
a minus sign may stand before the digits. -/
def toInt64? (text : Text) : Option Int64 :=
  let value? : Option Int :=
    match text with
    | 45 :: digits => (magnitude? 10 digits).map fun value => -(value : Int)
    | digits => (magnitude? 10 digits).map fun value => (value : Int)
  value?.bind fun value =>
    if -(Int.pow 2 63) ≤ value && value < Int.pow 2 63 then some (Int64.ofInt value) else none

end Text
end Siren
