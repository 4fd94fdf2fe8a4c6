import Siren.Yaml.Spot

/-!
# The parts of a YAML text

The structure of a text is a sequence of parts: scalars, the marks that are
written, and the starts and ends of blocks that indentation stands for.  A
`Supply` holds the parts that have been found, and what is known about the blocks
and the flows around the spot where the next one is looked for.
-/

namespace Siren
namespace Yaml

namespace Part

/-- What a part is. -/
inductive Kind where
  | streamEnd
  | documentStart
  | documentEnd
  | blockSequence
  | blockMapping
  | blockEnd
  | flowSequence
  | flowSequenceEnd
  | flowMapping
  | flowMappingEnd
  | flowEntry
  | blockEntry
  | key
  | value
  | scalar (text : Text) (quoted : Bool)
  deriving DecidableEq, Repr

end Part

/-- A part with the line it starts on, counted from zero. -/
structure Part where
  kind : Part.Kind
  line : Nat
  deriving DecidableEq, Repr

/-- The last place where a key could start in a flow or in the blocks. -/
structure KeyStart where
  /-- A colon may still make it a key. -/
  possible : Bool
  /-- A colon must make it a key. -/
  required : Bool
  /-- The number of its part, counted from the start of the text. -/
  number : Nat
  mark : Mark
  deriving DecidableEq, Repr

/-- The most characters of a key before its colon. -/
def keyLimit : Nat := 1024

/-- Parts that have been found but not taken, and where the next one is looked
for. -/
structure Supply where
  spot : Spot
  /-- What is wrong behind the characters that are left. -/
  fault : Option Malformed
  /-- A key may start here. -/
  keyAllowed : Bool
  /-- The column of the innermost block; there is none at first. -/
  indent : Option Nat
  /-- The columns of the blocks around it. -/
  indents : List (Option Nat)
  keyStart : KeyStart
  /-- The key starts of the blocks and the flows around the innermost flow. -/
  outerStarts : List KeyStart
  /-- The numbers of parts that may be keys, with the depths of their flows. -/
  held : List (Nat × Nat)
  parts : List Part
  /-- The number of parts that have been taken. -/
  taken : Nat
  deriving DecidableEq, Repr

namespace Supply

/-- The parts of a text, before any has been found. -/
def ofCharacters (characters : Characters) : Supply where
  spot := .start characters.list
  fault := characters.fault
  keyAllowed := true
  indent := none
  indents := []
  keyStart := ⟨false, false, 0, ⟨0, 0, 0⟩⟩
  outerStarts := []
  held := []
  parts := []
  taken := 0

/-- The number of flows around the spot. -/
def depth (supply : Supply) : Nat :=
  supply.outerStarts.length

/-- Whether the spot is in a flow. -/
def inFlow (supply : Supply) : Bool :=
  !supply.outerStarts.isEmpty

/-- The first column behind the innermost block. -/
def contentColumn (supply : Supply) : Nat :=
  supply.indent.elim 0 (· + 1)

/-- The number of the next part to be found. -/
def nextNumber (supply : Supply) : Nat :=
  supply.taken + supply.parts.length

/-- Adds a part behind the others. -/
def add (supply : Supply) (kind : Part.Kind) (line : Nat) : Supply :=
  { supply with parts := supply.parts ++ [⟨kind, line⟩] }

/-- Adds a part before the one of some number, unless that has been taken. -/
def insert (supply : Supply) (number : Nat) (kind : Part.Kind) (line : Nat) : Supply :=
  if number < supply.taken then
    supply.add kind line
  else
    { supply with parts := supply.parts.insertIdx (number - supply.taken) ⟨kind, line⟩ }

/-- Something is wrong with the characters here. -/
def refuse {α : Type} (supply : Supply) (context : Mark) (problem : Text) : Except Malformed α :=
  .error (.ofLexeme context supply.spot.mark problem)

/-- A key was begun that no colon follows. -/
def missingColon {α : Type} (supply : Supply) (start : KeyStart) : Except Malformed α :=
  supply.refuse start.mark "could not find expected ':'"

/-- The key start in some number of flows. -/
def keyStart? (supply : Supply) (depth : Nat) : Option KeyStart :=
  if depth = supply.depth then some supply.keyStart
  else supply.outerStarts.reverse[depth]?

/-- Replaces the key start in some number of flows. -/
def setKeyStart (supply : Supply) (depth : Nat) (start : KeyStart) : Supply :=
  if depth = supply.depth then { supply with keyStart := start }
  else { supply with outerStarts := (supply.outerStarts.reverse.set depth start).reverse }

/-- A part is no longer held back. -/
def release (supply : Supply) (number : Nat) : Supply :=
  { supply with held := supply.held.filter (·.1 ≠ number) }

/-- Whether what starts at a key start may still become a key: it is given up at
the end of the line and after some length. -/
def mayBeKey (supply : Supply) (depth : Nat) : Except Malformed (Bool × Supply) :=
  match supply.keyStart? depth with
  | none => .ok (false, supply)
  | some start =>
    if !start.possible then
      .ok (false, supply)
    else if start.mark.line < supply.spot.mark.line ||
        start.mark.index + keyLimit < supply.spot.mark.index then
      if start.required then supply.missingColon start
      else .ok (false, supply.setKeyStart depth { start with possible := false })
    else
      .ok (true, supply)

/-- Gives up the innermost key start. -/
def dropKey (supply : Supply) : Except Malformed Supply :=
  if !supply.keyStart.possible then
    .ok supply
  else if supply.keyStart.required then
    supply.missingColon supply.keyStart
  else
    let given := { supply with keyStart := { supply.keyStart with possible := false } }
    .ok (given.release supply.keyStart.number)

/-- Notes that a key may start here, if one is allowed. -/
def noteKey (supply : Supply) : Except Malformed Supply :=
  if !supply.keyAllowed then
    .ok supply
  else do
    let number := supply.nextNumber
    let required := !supply.inFlow && supply.indent = some supply.spot.mark.column
    let dropped ← supply.dropKey
    let released := dropped.release number
    return { released with
      keyStart := ⟨true, required, number, supply.spot.mark⟩
      held := (number, supply.depth) :: released.held }

/-- Opens a block at a column, unless one is open there or in a flow. -/
def openBlock (supply : Supply) (column number : Nat) (kind : Part.Kind) (line : Nat) : Supply :=
  if supply.inFlow || supply.indent.any (column ≤ ·) then
    supply
  else
    { supply with
      indent := some column
      indents := supply.indent :: supply.indents }.insert number kind line

/-- Closes the blocks that `isClosed` holds of by their columns, but none in a
flow. -/
def closeBlocks (supply : Supply) (isClosed : Nat → Bool) : Supply :=
  if supply.inFlow then
    supply
  else
    let columns := supply.indent :: supply.indents
    let closed := columns.takeWhile (·.any isClosed)
    let left := columns.drop closed.length
    { supply with
      indent := left.headD none
      indents := left.tail
      parts := supply.parts ++ closed.map fun _ => ⟨.blockEnd, supply.spot.mark.line⟩ }

end Supply
end Yaml
end Siren
