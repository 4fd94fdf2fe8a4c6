import Siren.Yaml.Characters

/-!
# Spots of a YAML text

A spot is a place in a text, with the line, the column and the index of the next
character counted from zero.  A line ends in a line feed, in a carriage return or
in both, and some other characters end one too.
-/

namespace Siren
namespace Yaml

/-- Where a character stands. -/
structure Mark where
  index : Nat
  line : Nat
  column : Nat
  deriving DecidableEq, Repr

/-- A problem with the characters of a text: the line is that of the context, or
else that of the problem, and is left out when it is the first. -/
def Malformed.ofLexeme (context problem : Mark) (message : Text) : Malformed :=
  let line := if context.line ≠ 0 then context.line else problem.line
  ⟨if line = 0 then none else some (line + 1), message⟩

/-- A problem with the structure of a text.  The line before it is named. -/
def Malformed.ofStructure (context problem : Nat) (message : Text) : Malformed :=
  let line := if context ≠ 0 then context else problem
  ⟨if line = 0 then none else some line, message⟩

/-- A place in a text: what is left of it, and where that starts. -/
structure Spot where
  rest : List Char
  mark : Mark
  deriving DecidableEq, Repr

/-- Whether a character is a space or a tab. -/
def isGap (char : Char) : Bool :=
  char = ' ' || char = '\t'

/-- Whether a character ends a line. -/
def isBreak (char : Char) : Bool :=
  char = '\n' || char = '\r' || char = '\x85' || char = '\u2028' || char = '\u2029'

/-- Whether a gap, the end of a line or the end of the text starts a text. -/
def endsHere : List Char → Bool
  | [] => true
  | char :: _ => isGap char || isBreak char

namespace Spot

/-- The start of a text. -/
def start (text : List Char) : Spot := ⟨text, ⟨0, 0, 0⟩⟩

/-- The spot after one character of a line. -/
def step (spot : Spot) : Spot :=
  ⟨spot.rest.tail, { spot.mark with
    index := spot.mark.index + 1
    column := spot.mark.column + 1 }⟩

/-- The spot after a number of characters of a line. -/
def skip (spot : Spot) (count : Nat) : Spot :=
  ⟨spot.rest.drop count, { spot.mark with
    index := spot.mark.index + count
    column := spot.mark.column + count }⟩

/-- The spot after the end of a line that starts here. -/
def nextLine (spot : Spot) : Spot :=
  let count := match spot.rest with
    | '\r' :: '\n' :: _ => 2
    | _ => 1
  ⟨spot.rest.drop count, ⟨spot.mark.index + count, spot.mark.line + 1, 0⟩⟩

/-- The spot after one character, which may end a line. -/
def next (spot : Spot) : Spot :=
  if spot.rest.head?.any isBreak then spot.nextLine else spot.step

/-- The spot after the gaps. -/
def skipGaps (spot : Spot) : Spot :=
  spot.skip (spot.rest.takeWhile isGap).length

/-- The spot at the end of the line. -/
def lineEnd (spot : Spot) : Spot :=
  spot.skip (spot.rest.takeWhile fun char => !isBreak char).length

/-- Whether a line that starts with a mark of three characters and nothing close
behind it starts here. -/
def isSeparator (spot : Spot) (mark : Char) : Bool :=
  match spot.rest with
  | first :: second :: third :: rest =>
    spot.mark.column = 0 && first = mark && second = mark && third = mark && endsHere rest
  | _ => false

/-- Whether a line that separates documents starts here. -/
def isDocumentMark (spot : Spot) : Bool :=
  spot.isSeparator '-' || spot.isSeparator '.'

end Spot
end Yaml
end Siren
