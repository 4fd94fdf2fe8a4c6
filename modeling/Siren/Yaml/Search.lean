import Siren.Yaml.Comment
import Siren.Yaml.Lexeme
import Siren.Yaml.Part

/-!
# Finding the parts of a YAML text

Parts are found one after the other.  A scalar or a flow is a key only if a colon
follows it on its line, so its part is held back until that is known, and at least
two parts behind it are looked at.
-/

namespace Siren
namespace Yaml
namespace Supply

/-- Adds a part that is written with one character, and passes it and a comment
behind it. -/
def addMark (supply : Supply) (kind : Part.Kind) : Supply :=
  { supply.add kind supply.spot.mark.line with spot := passLineComment supply.spot.step }

/-- The greatest number of flows in one another. -/
def depthLimit : Nat := 10000

/-- Finds the start of a flow. -/
def openFlow (supply : Supply) (kind : Part.Kind) : Except Malformed Supply := do
  let noted ← supply.noteKey
  let start : KeyStart := ⟨false, false, noted.nextNumber, noted.spot.mark⟩
  if depthLimit ≤ noted.depth then
    noted.refuse start.mark "exceeded max depth of 10000"
  else
    return { noted with
      keyStart := start
      outerStarts := noted.keyStart :: noted.outerStarts
      keyAllowed := true }.addMark kind

/-- Finds the end of a flow. -/
def closeFlow (supply : Supply) (kind : Part.Kind) : Except Malformed Supply := do
  let dropped ← supply.dropKey
  let closed := match dropped.outerStarts with
    | [] => dropped
    | start :: outerStarts =>
      { dropped with keyStart := start, outerStarts }.release dropped.keyStart.number
  return { closed with keyAllowed := false }.addMark kind

/-- Finds the comma between entries of a flow. -/
def flowComma (supply : Supply) : Except Malformed Supply := do
  let dropped ← supply.dropKey
  return { dropped with keyAllowed := true }.addMark .flowEntry

/-- Finds the dash before an item of a sequence.  A comment behind it belongs to
the item. -/
def dash (supply : Supply) : Except Malformed Supply := do
  if !supply.inFlow && !supply.keyAllowed then
    supply.refuse supply.spot.mark "block sequence entries are not allowed in this context"
  else
    let mark := supply.spot.mark
    let opened := supply.openBlock mark.column supply.nextNumber .blockSequence mark.line
    let dropped ← opened.dropKey
    return { dropped.add .blockEntry mark.line with
      spot := dropped.spot.step
      keyAllowed := true }

/-- Finds the question mark before a key. -/
def questionMark (supply : Supply) : Except Malformed Supply := do
  if !supply.inFlow && !supply.keyAllowed then
    supply.refuse supply.spot.mark "mapping keys are not allowed in this context"
  else
    let mark := supply.spot.mark
    let opened := supply.openBlock mark.column supply.nextNumber .blockMapping mark.line
    let dropped ← opened.dropKey
    return { dropped with keyAllowed := !dropped.inFlow }.addMark .key

/-- Finds the colon before a value.  It makes a key of what the innermost key
start is at. -/
def colon (supply : Supply) : Except Malformed Supply := do
  let (isKey, supply) ← supply.mayBeKey supply.depth
  let start := supply.keyStart
  let mark := supply.spot.mark
  if isKey then
    let keyed := supply.insert start.number .key start.mark.line
    let opened := keyed.openBlock start.mark.column start.number .blockMapping start.mark.line
    return { opened.release start.number with
      keyStart := { start with possible := false }
      keyAllowed := false }.addMark .value
  else if !supply.inFlow && !supply.keyAllowed then
    supply.refuse mark "mapping values are not allowed in this context"
  else
    let opened := supply.openBlock mark.column supply.nextNumber .blockMapping mark.line
    return { opened with keyAllowed := !opened.inFlow }.addMark .value

/-- Finds a quoted scalar, and a comment behind it. -/
def quotedScalar (supply : Supply) (single : Bool) : Except Malformed Supply := do
  let noted ← supply.noteKey
  let start := noted.spot.mark
  let (text, after) ← quoted single start noted.fault noted.spot.rest.length noted.spot.step
  return { noted.add (.scalar (textOf text) true) start.line with
    spot := passLineComment after
    keyAllowed := false }

/-- Finds a plain scalar, and a comment behind it on its last line.  A key may
start behind it if a line ends there. -/
def plainScalar (supply : Supply) : Except Malformed Supply := do
  let noted ← supply.noteKey
  let start := noted.spot.mark
  let scalar ← plain noted.inFlow start noted.contentColumn [] false noted.spot.rest.length
    noted.spot
  return { noted.add (.scalar (textOf scalar.text) false) start.line with
    spot := if scalar.behindBreak then scalar.after else passLineComment scalar.after
    keyAllowed := scalar.behindBreak }

/-- The characters that a plain scalar does not start with. -/
def marks : List Char :=
  ['-', '?', ':', ',', '[', ']', '\x7b', '\x7d', '#', '&', '*', '!', '|', '>', '\x27', '\x22',
    '%', '@', '\x60']

/-- Whether a plain scalar starts with a character before others.  A dash, and
outside of a flow a question mark or a colon, starts one if something is close
behind it. -/
def startsPlain (flow : Bool) (char : Char) (rest : List Char) : Bool :=
  char ∉ marks || (char = '-' && !rest.head?.any isGap) ||
    (!flow && (char = '?' || char = ':') && !endsHere rest)

/-- Finds the part that a character before others starts. -/
def findPart (supply : Supply) (char : Char) (rest : List Char) : Except Malformed Supply :=
  if char = '[' then supply.openFlow .flowSequence
  else if char = '\x7b' then supply.openFlow .flowMapping
  else if char = ']' then supply.closeFlow .flowSequenceEnd
  else if char = '\x7d' then supply.closeFlow .flowMappingEnd
  else if char = ',' then supply.flowComma
  else if char = '-' && endsHere rest then supply.dash
  else if char = '?' && (supply.inFlow || endsHere rest) then supply.questionMark
  else if char = ':' && (supply.inFlow || endsHere rest) then supply.colon
  else if char = '\x27' then supply.quotedScalar true
  else if char = '\x22' then supply.quotedScalar false
  else if char ≠ '\t' && startsPlain supply.inFlow char rest then supply.plainScalar
  else supply.refuse supply.spot.mark "found character that cannot start any token"

/-- Finds the end of the text, which ends a line that has begun. -/
def findEnd (supply : Supply) : Except Malformed Supply := do
  let mark := supply.spot.mark
  let line := if mark.column = 0 then mark.line else mark.line + 1
  let moved := { supply with spot := { supply.spot with mark := { mark with line, column := 0 } } }
  let dropped ← (moved.closeBlocks fun _ => true).dropKey
  return { dropped with keyAllowed := false }.add .streamEnd line

/-- Finds a line that separates documents. -/
def findDocumentMark (supply : Supply) (kind : Part.Kind) : Except Malformed Supply := do
  let dropped ← (supply.closeBlocks fun _ => true).dropKey
  return { dropped.add kind supply.spot.mark.line with
    keyAllowed := false
    spot := supply.spot.skip 3 }

/-- The supply, unless the characters that are left do not suffice because
something is wrong behind them. -/
def ensure (supply : Supply) (count : Nat) : Except Malformed Supply :=
  match supply.fault with
  | some fault => if supply.spot.rest.length < count then .error fault else .ok supply
  | none => .ok supply

/-- Finds one more part. -/
def find (supply : Supply) : Except Malformed Supply := do
  let (keyAllowed, spot) :=
    toContent supply.inFlow supply.keyAllowed (supply.spot.rest.length + 1) supply.spot
  let supply ← { supply with keyAllowed, spot }.ensure 4
  let supply := supply.closeBlocks (spot.mark.column < ·)
  match spot.rest with
  | [] => supply.findEnd
  | char :: rest =>
    if spot.isSeparator '-' then
      supply.findDocumentMark .documentStart
    else if spot.isSeparator '.' then
      supply.findDocumentMark .documentEnd
    else do
      let found ← supply.findPart char rest
      found.ensure 1

/-- The number of parts that are looked at before the first of them is taken. -/
def lookahead : Nat := 3

/-- Whether the first part can be taken: enough parts have been found, and it can
no longer become a key. -/
def isReady (supply : Supply) : Except Malformed (Bool × Supply) :=
  if supply.parts.length < lookahead then
    .ok (false, supply)
  else
    match supply.held.lookup supply.taken with
    | none => .ok (true, supply)
    | some depth => do
      let (pending, supply) ← supply.mayBeKey depth
      return (!pending, supply)

/-- Finds parts until the first can be taken. -/
def fill : Nat → Supply → Except Malformed Supply
  | 0, supply => .ok supply
  | fuel + 1, supply => do
    let (ready, supply) ← supply.isReady
    if ready then return supply else fill fuel (← supply.find)

/-- The first part that has not been taken. -/
def first (supply : Supply) : Except Malformed (Part × Supply) := do
  let filled ← supply.fill (supply.spot.rest.length + lookahead + 1)
  return (filled.parts.headD ⟨.streamEnd, filled.spot.mark.line⟩, filled)

/-- Takes the first part. -/
def take (supply : Supply) : Supply :=
  { supply with parts := supply.parts.tail, taken := supply.taken + 1 }

end Supply
end Yaml
end Siren
