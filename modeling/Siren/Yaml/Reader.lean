import Siren.Yaml.Node
import Siren.Yaml.Search

/-!
# Reading YAML

`Document.read` reads the first document of a text: block mappings and block
sequences told apart by indentation, flow mappings and flow sequences, and
scalars.  A key or a value that is left out is an empty scalar.

Reading is bounded by the number of parts, of which no character makes up more
than four.
-/

namespace Siren
namespace Yaml

/-- A step of reading: it takes parts from a supply. -/
abbrev Reading := StateT Supply (Except Malformed)

namespace Reading

/-- The next part. -/
def peek : Reading Part := do
  let (part, filled) ← (← get).first
  set filled
  return part

/-- Takes the next part. -/
def take : Reading Unit :=
  modify Supply.take

/-- A part does not belong where it stands in what `start` starts. -/
def refuse {α : Type} (start part : Part) (problem : Text) : Reading α :=
  throw (.ofStructure start.line part.line problem)

/-- No node starts with a part. -/
def noNode {α : Type} (part : Part) : Reading α :=
  refuse part part "did not find expected node content"

/-- The node that is left out on a line. -/
def absent (line : Nat) : Node :=
  .scalar ⟨line + 1, [], false⟩

/-- Whether a part ends an entry of a block mapping before its key or its value,
which is then left out. -/
def endsBlockEntry (part : Part) : Bool :=
  part.kind = .key || part.kind = .value || part.kind = .blockEnd

/-- Whether a part ends an entry of a flow that `close` closes. -/
def endsFlowEntry (close : Part.Kind) (part : Part) : Bool :=
  part.kind = .flowEntry || part.kind = close

mutual

/-- Reads a node.  A block may start only if `block` is set, and a sequence that
is not indented only if `flat` is set. -/
def node (block flat : Bool) : Nat → Reading Node
  | 0 => do noNode (← peek)
  | fuel + 1 => do
    let part ← peek
    match part.kind with
    | .scalar text quoted =>
      take
      return .scalar ⟨part.line + 1, text, quoted⟩
    | .flowSequence =>
      take
      flowItems part true fuel
      return .sequence (part.line + 1)
    | .flowMapping =>
      take
      return .mapping (part.line + 1) (← flowEntries part true fuel)
    | .blockEntry =>
      if flat then
        flatItems fuel
        return .sequence (part.line + 1)
      else
        noNode part
    | .blockSequence =>
      if block then
        take
        blockItems part fuel
        return .sequence (part.line + 1)
      else
        noNode part
    | .blockMapping =>
      if block then
        take
        return .mapping (part.line + 1) (← blockEntries part fuel)
      else
        noNode part
    | _ => noNode part

/-- Reads the items of a block sequence. -/
def blockItems (start : Part) : Nat → Reading Unit
  | 0 => do noNode (← peek)
  | fuel + 1 => do
    let part ← peek
    match part.kind with
    | .blockEntry =>
      take
      let next ← peek
      if next.kind ≠ .blockEntry && next.kind ≠ .blockEnd then
        let _ ← node true false fuel
      blockItems start fuel
    | .blockEnd => take
    | _ => refuse start part "did not find expected '-' indicator"

/-- Reads the items of a block sequence at the column of the mapping that it is a
value of.  It ends where no item follows. -/
def flatItems : Nat → Reading Unit
  | 0 => do noNode (← peek)
  | fuel + 1 => do
    let part ← peek
    if part.kind = .blockEntry then
      take
      let next ← peek
      if next.kind ≠ .blockEntry && !endsBlockEntry next then
        let _ ← node true false fuel
      flatItems fuel

/-- Reads the entries of a block mapping. -/
def blockEntries (start : Part) : Nat → Reading (List (Node × Node))
  | 0 => do noNode (← peek)
  | fuel + 1 => do
    let part ← peek
    match part.kind with
    | .key =>
      take
      let next ← peek
      let key ← if endsBlockEntry next then pure (absent part.line) else node true true fuel
      let value ← blockValue fuel
      return (key, value) :: (← blockEntries start fuel)
    | .blockEnd =>
      take
      return []
    | _ => refuse start part "did not find expected key"

/-- Reads the value of an entry of a block mapping. -/
def blockValue : Nat → Reading Node
  | 0 => do noNode (← peek)
  | fuel + 1 => do
    let part ← peek
    if part.kind = .value then
      take
      let next ← peek
      if endsBlockEntry next then return absent part.line else node true true fuel
    else
      return absent part.line

/-- Reads the items of a flow sequence. -/
def flowItems (start : Part) (isFirst : Bool) : Nat → Reading Unit
  | 0 => do noNode (← peek)
  | fuel + 1 => do
    let part ← peek
    if part.kind = .flowSequenceEnd then
      take
    else if isFirst then
      flowItem start fuel
    else if part.kind = .flowEntry then
      take
      if (← peek).kind = .flowSequenceEnd then take else flowItem start fuel
    else
      refuse start part "did not find expected ',' or ']'"

/-- Reads an item of a flow sequence and those after it.  It may be a mapping of
one entry without brackets. -/
def flowItem (start : Part) : Nat → Reading Unit
  | 0 => do noNode (← peek)
  | fuel + 1 => do
    if (← peek).kind = .key then
      take
      let next ← peek
      if next.kind = .value || endsFlowEntry .flowSequenceEnd next then
        take
      else
        let _ ← node false false fuel
      let _ ← flowValue .flowSequenceEnd fuel
    else
      let _ ← node false false fuel
    flowItems start false fuel

/-- Reads the entries of a flow mapping. -/
def flowEntries (start : Part) (isFirst : Bool) : Nat → Reading (List (Node × Node))
  | 0 => do noNode (← peek)
  | fuel + 1 => do
    let part ← peek
    if part.kind = .flowMappingEnd then
      take
      return []
    else if isFirst then
      flowEntry start fuel
    else if part.kind = .flowEntry then
      take
      if (← peek).kind = .flowMappingEnd then
        take
        return []
      else
        flowEntry start fuel
    else
      refuse start part "did not find expected ',' or '\x7d'"

/-- Reads an entry of a flow mapping and those after it. -/
def flowEntry (start : Part) : Nat → Reading (List (Node × Node))
  | 0 => do noNode (← peek)
  | fuel + 1 => do
    if (← peek).kind = .key then
      take
      let next ← peek
      let key ←
        if next.kind = .value || endsFlowEntry .flowMappingEnd next then pure (absent next.line)
        else node false false fuel
      let value ← flowValue .flowMappingEnd fuel
      return (key, value) :: (← flowEntries start false fuel)
    else
      let key ← node false false fuel
      let next ← peek
      return (key, absent next.line) :: (← flowEntries start false fuel)

/-- Reads the value of an entry of a flow that `close` closes. -/
def flowValue (close : Part.Kind) : Nat → Reading Node
  | 0 => do noNode (← peek)
  | fuel + 1 => do
    let part ← peek
    if part.kind = .value then
      take
      let next ← peek
      if endsFlowEntry close next then return absent next.line else node false false fuel
    else
      return absent part.line

end

/-- Reads the content of a document. -/
def document (fuel : Nat) : Reading (Option Node) := do
  let part ← peek
  match part.kind with
  | .streamEnd => return none
  | .documentStart =>
    take
    let next ← peek
    match next.kind with
    | .documentStart | .documentEnd | .streamEnd => return some (absent next.line)
    | _ => return some (← node true false fuel)
  | _ => return some (← node true false fuel)

end Reading

namespace Document

/-- The first document of a text, if it has one.  Of what follows only the parts
next to it are looked at. -/
def read (text : Text) : Except Malformed (Option Node) := do
  let characters := Characters.ofText text
  let (node, supply) ←
    (Reading.document (16 * (characters.list.length + 4))).run (.ofCharacters characters)
  let _ ← supply.first
  return node

end Document
end Yaml
end Siren
