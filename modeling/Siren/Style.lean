import Siren.Text

/-!
# Text on a terminal

Messages can be coloured with escape sequences.  Without colour every function
here gives plain text.
-/

namespace Siren
namespace Style

/-- A foreground colour. -/
inductive Hue where
  | red
  | brightRed
  | green
  | yellow
  | cyan
  | gray
  deriving DecidableEq, Repr

/-- The escape code of a colour. -/
def Hue.code : Hue → Text
  | .red => "31"
  | .brightRed => "91"
  | .green => "32"
  | .yellow => "33"
  | .cyan => "36"
  | .gray => "90"

/-- A text between an escape sequence and the reset. -/
def escaped (codes text : Text) : Text :=
  "\x1b[" ++ codes ++ "m" ++ text ++ "\x1b[0m"

/-- A text in a colour. -/
def tint (color : Bool) (hue : Hue) (text : Text) : Text :=
  if color then escaped hue.code text else text

/-- A text in bold. -/
def bold (color : Bool) (text : Text) : Text :=
  if color then escaped "1" text else text

/-- A text in a bold colour. -/
def boldTint (color : Bool) (hue : Hue) (text : Text) : Text :=
  if color then escaped (hue.code ++ ";1") text else text

/-- A message marked as an error. -/
def error (color : Bool) (message : Text) : Text :=
  boldTint color .brightRed "Error: " ++ message

/-- A line and a column. -/
def position (color : Bool) (line column : Int) : Text :=
  tint color .cyan (Text.ofInt line ++ ":" ++ Text.ofInt column)

/-- A line of a source text with a mark under a column; empty when the source
has no such line. -/
def caret (color : Bool) (source : Text) (line column : Int) : Text :=
  if line < 1 then
    []
  else
    match source.lines[(line - 1).toNat]? with
    | none => []
    | some text =>
      tint color .gray text.trimCarriageReturns ++ [Text.lineFeed] ++
        List.replicate (column - 1).toNat Text.space ++ tint color .yellow "^"

/-- A message about a place in a source text, with a context below it. -/
def errorAt (color : Bool) (line column : Int) (message context : Text) : Text :=
  let head := boldTint color .brightRed "Error" ++ " at " ++ position color line column ++
    ": " ++ message
  if context = [] then head else head ++ [Text.lineFeed] ++ context

end Style
end Siren
