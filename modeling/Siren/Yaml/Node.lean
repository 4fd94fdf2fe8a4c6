import Siren.Yaml.Number
import Siren.Yaml.Timestamp

/-!
# YAML nodes

A document is a scalar, a sequence or a mapping, whose keys are nodes too.  A
plain scalar stands for a null, a truth value, a number, a timestamp or a text; a
quoted one is always a text.
-/

namespace Siren
namespace Yaml

/-- A scalar with the line it starts on, counted from one. -/
structure Scalar where
  line : Nat
  text : Text
  quoted : Bool
  deriving DecidableEq, Repr

/-- A node; the items of sequences are not kept. -/
inductive Node where
  | scalar (scalar : Scalar)
  | sequence (line : Nat)
  | mapping (line : Nat) (entries : List (Node × Node))

/-- The line a node starts on, counted from one. -/
def Node.line : Node → Nat
  | .scalar value => value.line
  | .sequence start => start
  | .mapping start _ => start

/-- Whether two keys of a mapping count as one: scalars of one text do, and so do
any two sequences and any two mappings. -/
def Node.isSameKey : Node → Node → Bool
  | .scalar first, .scalar second => first.text = second.text
  | .sequence _, .sequence _ => true
  | .mapping _ _, .mapping _ _ => true
  | _, _ => false

/-- The text of a key; only a scalar has one. -/
def Node.keyText : Node → Text
  | .scalar value => value.text
  | _ => []

/-- What a scalar stands for.  A number with a fraction or an exponent keeps
its whole part, if it has one. -/
inductive Resolved where
  | null
  | bool (value : Bool)
  | int (value : Int)
  | float (whole : Option Int)
  | timestamp
  | str
  deriving DecidableEq, Repr

/-- The tag of what a scalar stands for. -/
def Resolved.tag : Resolved → Text
  | .null => "!!null"
  | .bool _ => "!!bool"
  | .int _ => "!!int"
  | .float _ => "!!float"
  | .timestamp => "!!timestamp"
  | .str => "!!str"

/-- The spellings of infinity without a sign. -/
def infinities : List Text := [".inf", ".Inf", ".INF"]

/-- The spellings of what is no number. -/
def notNumbers : List Text := [".nan", ".NaN", ".NAN"]

/-- What a plain text stands for. -/
def resolvePlain (text : Text) : Resolved :=
  if ([[], "~", "null", "Null", "NULL"] : List Text).contains text then .null
  else if (["true", "True", "TRUE"] : List Text).contains text then .bool true
  else if (["false", "False", "FALSE"] : List Text).contains text then .bool false
  else if infinities.contains (Text.splitSign text).2 then
    .float (if (Text.splitSign text).1 = some true then some (-(Int.pow 2 63)) else none)
  else if notNumbers.contains text then .float none
  else
    let plain := text.filter (· ≠ 95)
    match text.head? with
    | some 46 => match decimal? text with
      | some value => .float (some value)
      | none => .str
    | some first =>
      if Text.isDigit first || first = 43 || first = 45 then
        if Timestamp.isTimestamp text then .timestamp
        else match integer? plain, decimal? plain, markedInteger? plain with
          | some value, _, _ => .int value
          | none, some value, _ => .float (some value)
          | none, none, some value => .int value
          | none, none, none => .str
      else
        .str
    | none => .str

/-- What a scalar stands for. -/
def Scalar.resolve (scalar : Scalar) : Resolved :=
  if scalar.quoted then .str else resolvePlain scalar.text

end Yaml
end Siren
