import Siren.Yaml.Spot

/-!
# Blanks and comments of a YAML text

A comment starts at a number sign and ends with its line.  Comments and what is
blank between them are passed on the way to content.
-/

namespace Siren
namespace Yaml

/-- How many characters are searched for a comment. -/
def commentReach : Nat := 512

/-- The number of characters before the next comment, from the end of a line on,
if only blanks stand between. -/
def commentDistance? : List Char → Option Nat
  | char :: rest =>
    let isBlank (char : Char) : Bool := isGap char || char = '\n' || char = '\r'
    let near := rest.take (commentReach - 1)
    if (char = '\n' || char = '\r') && (near.dropWhile isBlank).head? = some '#' then
      some (1 + (near.takeWhile isBlank).length)
    else
      none
  | [] => none

/-- The spot at or behind an index. -/
def passTo (index : Nat) : Nat → Spot → Spot
  | 0, spot => spot
  | fuel + 1, spot => if spot.mark.index < index then passTo index fuel spot.next else spot

/-- The end of the last of the comments that start here and on later lines. -/
def passComments : Nat → Spot → Spot
  | 0, spot => spot
  | fuel + 1, spot =>
    let lineEnd := spot.lineEnd
    match commentDistance? lineEnd.rest with
    | none => lineEnd
    | some distance =>
      passComments fuel (passTo (lineEnd.mark.index + distance) distance lineEnd)

/-- The next spot with content, after gaps, comments and the ends of lines.  Tabs
are passed only where no key can start.  In a block a key may start on a later
line. -/
def toContent (flow : Bool) : (keyAllowed : Bool) → Nat → Spot → Bool × Spot
  | keyAllowed, 0, spot => (keyAllowed, spot)
  | keyAllowed, fuel + 1, spot =>
    match spot.rest with
    | [] => (keyAllowed, spot)
    | char :: rest =>
      if char = ' ' || (char = '\t' && (flow || !keyAllowed)) then
        toContent flow keyAllowed fuel spot.step
      else if char = '#' then
        toContent flow keyAllowed fuel (passComments (rest.length + 1) spot)
      else if isBreak char then
        toContent flow (keyAllowed || !flow) fuel spot.nextLine
      else
        (keyAllowed, spot)

/-- The end of the comment behind a part on its line, if there is one. -/
def passLineComment (spot : Spot) : Spot :=
  let near := spot.rest.take commentReach
  if (near.dropWhile isGap).head? = some '#' then spot.skipGaps.lineEnd else spot

end Yaml
end Siren
