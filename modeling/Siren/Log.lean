import Siren.Evaluation
import Siren.Style
import Siren.Text.Quoted

/-!
# Log records

A record has a level, a message and fields.  It is written on one line, except
that a field whose value has several lines is written below it, each line
behind a bar.
-/

namespace Siren
namespace Log

/-- How important a record is. -/
inductive Level where
  | debug
  | info
  | warn
  | error
  | fatal
  deriving DecidableEq, Repr

namespace Level

/-- The mark of a level. -/
def mark : Level → Text
  | .debug => "DEBU"
  | .info => "INFO"
  | .warn => "WARN"
  | .error => "ERRO"
  | .fatal => "FATA"

/-- The escape codes of a level. -/
def codes : Level → Text
  | .debug => "1;38;5;63"
  | .info => "1;38;5;86"
  | .warn => "1;38;5;192"
  | .error => "1;38;5;204"
  | .fatal => "1;38;5;134"

/-- Whether a level is shown even if not everything is. -/
def isUrgent : Level → Bool
  | .debug | .info => false
  | .warn | .error | .fatal => true

end Level

/-- A message with its level and its fields. -/
structure Record where
  level : Level
  message : Text
  fields : List (Text × Text)

/-- What is shown of a log and how. -/
structure Options where
  /-- Shows records of every level. -/
  verbose : Bool
  color : Bool

/-- A part of a record that is set back. -/
def faint (color : Bool) (text : Text) : Text :=
  if color then Style.escaped "2" text else text

/-- The lines of a value behind bars.  The last line is closed if the value
closes it or `more` fields follow. -/
def indented (color more : Bool) : List Text → Text
  | [] => []
  | [last] =>
    if last = [] then []
    else faint color "  │ " ++ last.escape false ++ (if more then [Text.lineFeed] else [])
  | line :: lines =>
    faint color "  │ " ++ line.escape false ++ [Text.lineFeed] ++ indented color more lines

/-- A value on one line. -/
def inline (value : Text) : Text :=
  if value = [] then "\"\""
  else if value.needsQuotes then value.quoted
  else value

/-- The fields of a record. -/
def fieldsText (color : Bool) : List (Text × Text) → Text
  | [] => []
  | (key, value) :: fields =>
    let name := faint color key ++ faint color "="
    let field : Text :=
      if Text.lineFeed ∈ value then
        "\n  " ++ name ++ [Text.lineFeed] ++ indented color (!fields.isEmpty) value.lines
      else
        " " ++ name ++ inline value
    field ++ fieldsText color fields

namespace Record

/-- A record as text. -/
def text (color : Bool) (record : Record) : Text :=
  let mark := record.level.mark
  let level := if color then Style.escaped record.level.codes mark else mark
  let origin : Text := if color then Style.escaped "1;2" "SIREN:" else "SIREN:"
  Text.line (level ++ " " ++ origin ++ " " ++ record.message ++
    fieldsText color record.fields)

end Record

/-- The records that are shown, as text. -/
def text (options : Options) (records : List Record) : Text :=
  (records.filter fun record => options.verbose || record.level.isUrgent).flatMap
    (Record.text options.color)

/-- The name of a call in records. -/
def callName (name : Text) : Text :=
  if name = [] then "<anonymous>" else name

/-- The record of a step of a call. -/
def ofEvent : Event → Record
  | .calling name args depth =>
    ⟨.debug, "Calling function",
      [("fn", callName name), ("args", Text.ofNat args), ("depth", Text.ofNat depth)]⟩
  | .returned name outcome =>
    ⟨.debug, "Returned from function",
      [("fn", callName name),
        ("signal", if outcome.isReturning then "returning" else "continue"),
        ("value", outcome.result.text)]⟩

end Log
end Siren
