import Siren.Text.Digits

/-!
# YAML timestamps

A timestamp is a date of the calendar, alone or with a time of day.  The time
stands behind a `T` with its zone, or behind spaces without one.
-/

namespace Siren
namespace Yaml
namespace Timestamp

/-- The number that one or two digits at the start of a text denote, and the
rest of the text. -/
def number? : Text → Option (Nat × Text)
  | first :: second :: rest =>
    if !Text.isDigit first then none
    else if Text.isDigit second then
      some (Text.digitValue first * 10 + Text.digitValue second, rest)
    else some (Text.digitValue first, second :: rest)
  | [first] => if Text.isDigit first then some (Text.digitValue first, []) else none
  | [] => none

/-- The rest of a text behind a byte that it starts with. -/
def after? (byte : UInt8) : Text → Option Text
  | first :: rest => if first = byte then some rest else none
  | [] => none

/-- Whether a year has a 29th of February. -/
def isLeap (year : Nat) : Bool :=
  year % 4 = 0 && (year % 100 ≠ 0 || year % 400 = 0)

/-- The number of days of a month, counted from one. -/
def daysIn (year month : Nat) : Nat :=
  if month = 2 then (if isLeap year then 29 else 28)
  else if month ∈ [4, 6, 9, 11] then 30
  else 31

/-- The rest of a text behind a date, whose year has four digits. -/
def date? (text : Text) : Option Text := do
  let rest ← after? 45 (text.drop 4)
  let year ← Text.magnitude? 10 (text.take 4)
  let (month, rest) ← number? rest
  let rest ← after? 45 rest
  let (day, rest) ← number? rest
  guard (1 ≤ month ∧ month ≤ 12 ∧ 1 ≤ day ∧ day ≤ daysIn year month)
  return rest

/-- The rest of a text behind a fraction of a second, if it starts with one. -/
def skipFraction : Text → Text
  | mark :: digit :: rest =>
    if (mark = 46 || mark = 44) && Text.isDigit digit then rest.dropWhile Text.isDigit
    else mark :: digit :: rest
  | text => text

/-- The rest of a text behind a time of day. -/
def clock? (text : Text) : Option Text := do
  let (hour, rest) ← number? text
  let rest ← after? 58 rest
  let (minute, rest) ← number? rest
  let rest ← after? 58 rest
  let (second, rest) ← number? rest
  guard (hour < 24 ∧ minute < 60 ∧ second < 60)
  return skipFraction rest

/-- Whether a text is a zone: `Z`, or hours and minutes of two digits each behind
a sign. -/
def isZone : Text → Bool
  | [90] => true
  | [sign, hourTens, hourOnes, 58, minuteTens, minuteOnes] =>
    (sign = 43 || sign = 45) &&
      [hourTens, hourOnes, minuteTens, minuteOnes].all Text.isDigit &&
      Text.digitValue hourTens * 10 + Text.digitValue hourOnes ≤ 24 &&
      Text.digitValue minuteTens * 10 + Text.digitValue minuteOnes ≤ 60
  | _ => false

/-- Whether a text is a time of day behind a date. -/
def isTime : Text → Bool
  | 32 :: rest => clock? (rest.dropWhile (· = Text.space)) = some []
  | mark :: rest => (mark = 84 || mark = 116) && (clock? rest).any isZone
  | [] => false

/-- Whether a text is a timestamp. -/
def isTimestamp (text : Text) : Bool :=
  (date? text).any fun rest => rest = [] || isTime rest

end Timestamp
end Yaml
end Siren
