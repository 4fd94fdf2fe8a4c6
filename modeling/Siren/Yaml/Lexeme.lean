import Siren.Text.Digits
import Siren.Yaml.Spot

/-!
# The text of YAML scalars

A quoted scalar ends at its quote.  A plain one ends before a colon or a comment
that a gap sets apart, and before a line that is not indented enough.  Within
both, the ends of lines are folded: one is a space, and of more all but the first
are kept.

Reading is bounded by the length of the text, as every step passes some of it.
-/

namespace Siren
namespace Yaml

/-- The UTF-8 bytes of characters. -/
def textOf (characters : List Char) : Text :=
  characters.flatMap String.utf8EncodeChar

/-- What the end of a line is kept as. -/
def keptBreak (char : Char) : Char :=
  if char = '\u2028' || char = '\u2029' then char else '\n'

/-- The characters that the ends of lines within a scalar stand for. -/
def foldBreaks : List Char → List Char
  | ['\n'] => [' ']
  | '\n' :: breaks => breaks
  | breaks => breaks

/-- Passes gaps and the ends of lines, and gives the latter.  A tab that indents
a later line must not stand before the column `indent`. -/
def passBlanks (start : Mark) (indent : Nat) :
    (behindBreak : Bool) → Nat → Spot → Except Malformed (List Char × Spot)
  | _, 0, spot => .ok ([], spot)
  | behindBreak, fuel + 1, spot =>
    match spot.rest with
    | [] => .ok ([], spot)
    | char :: _ =>
      if behindBreak && char = '\t' && spot.mark.column < indent then
        .error (.ofLexeme start spot.mark "found a tab character that violates indentation")
      else if isGap char then
        passBlanks start indent behindBreak fuel spot.step
      else if isBreak char then do
        let (breaks, after) ← passBlanks start indent true fuel spot.nextLine
        return (keptBreak char :: breaks, after)
      else
        .ok ([], spot)

/-- Passes what stands between two words, and gives the characters that it stands
for and whether a line ends in it. -/
def passBetween (start : Mark) (indent : Nat) (spot : Spot) :
    Except Malformed (List Char × Bool × Spot) := do
  let (breaks, after) ← passBlanks start indent false (spot.rest.length + 1) spot
  if breaks.isEmpty then
    return (spot.rest.takeWhile isGap, false, after)
  else
    return (foldBreaks breaks, true, after)

/-- The code point that a character after a backslash stands for. -/
def escapeCode? (char : Char) : Option Nat :=
  match char with
  | '0' => some 0
  | 'a' => some 7
  | 'b' => some 8
  | 't' | '\t' => some 9
  | 'n' => some 10
  | 'v' => some 11
  | 'f' => some 12
  | 'r' => some 13
  | 'e' => some 27
  | ' ' => some 32
  | '\x22' => some 34
  | '\x27' => some 39
  | '\\' => some 92
  | 'N' => some 0x85
  | '_' => some 0xA0
  | 'L' => some 0x2028
  | 'P' => some 0x2029
  | _ => none

/-- The number of hexadecimal digits that follow a character after a backslash. -/
def escapeLength? (char : Char) : Option Nat :=
  match char with
  | 'x' => some 2
  | 'u' => some 4
  | 'U' => some 8
  | _ => none

/-- Whether a number is a code point that can be written. -/
def isCodePoint (code : Nat) : Bool :=
  code < 0xD800 || (0xE000 ≤ code && code < 0x110000)

/-- The number that hexadecimal digits of some length at the start of a text
denote. -/
def hexadecimal? (length : Nat) (text : List Char) : Option Nat :=
  if text.length < length then none else Text.magnitude? 16 (textOf (text.take length))

/-- Reads what a backslash starts in a double-quoted scalar.  One at the end of a
line joins it to the next. -/
def escaped (start : Mark) (spot : Spot) : Except Malformed (List Char × Spot) :=
  let malformed (problem : Text) : Except Malformed (List Char × Spot) :=
    .error (.ofLexeme start spot.mark problem)
  match spot.rest.tail with
  | [] => malformed "found unknown escape character"
  | char :: rest =>
    if isBreak char then
      passBlanks start 0 true (rest.length + 1) spot.step.nextLine
    else
      match escapeCode? char, escapeLength? char with
      | some code, _ => .ok ([Char.ofNat code], spot.skip 2)
      | none, some length =>
        match hexadecimal? length rest with
        | none => malformed "did not find expected hexdecimal number"
        | some code =>
          if isCodePoint code then .ok ([Char.ofNat code], spot.skip (2 + length))
          else malformed "found invalid Unicode character escape code"
      | none, none => malformed "found unknown escape character"

/-- The quotes of the two kinds of quoted scalars. -/
def quoteOf (single : Bool) : Char :=
  if single then '\x27' else '\x22'

/-- The text ends within a quoted scalar, or something is wrong behind the
characters that are left. -/
def unclosed (start : Mark) (fault : Option Malformed) (spot : Spot) : Malformed :=
  fault.getD (.ofLexeme start spot.mark "found unexpected end of stream")

/-- Reads a quoted scalar after its opening quote.  A single quote in one that
single quotes enclose is written twice.  Characters are looked at only with the
next one, and at the start of a line with the next three. -/
def quoted (single : Bool) (start : Mark) (fault : Option Malformed) :
    Nat → Spot → Except Malformed (List Char × Spot)
  | 0, spot => .error (unclosed start fault spot)
  | fuel + 1, spot =>
    if fault.isSome && spot.rest.length < (if spot.mark.column = 0 then 4 else 2) then
      .error (unclosed start fault spot)
    else if spot.isDocumentMark then
      .error (.ofLexeme start spot.mark "found unexpected document indicator")
    else
      match spot.rest with
      | [] => .error (unclosed start fault spot)
      | char :: rest =>
        if isGap char || isBreak char then do
          let (between, _, after) ← passBetween start 0 spot
          let (more, last) ← quoted single start fault fuel after
          return (between ++ more, last)
        else if char = quoteOf single then
          if single && rest.head? = some char then do
            let (more, last) ← quoted single start fault fuel (spot.skip 2)
            return (char :: more, last)
          else
            .ok ([], spot.step)
        else if !single && char = '\\' then do
          let (text, after) ← escaped start spot
          let (more, last) ← quoted single start fault fuel after
          return (text ++ more, last)
        else do
          let (more, last) ← quoted single start fault fuel spot.step
          return (char :: more, last)

/-- Whether a character is a bracket or a comma, which end plain text in a
flow. -/
def isFlowMark (char : Char) : Bool :=
  char = ',' || char = '[' || char = ']' || char = '\x7b' || char = '\x7d'

/-- The plain text up to a gap or a mark that ends it. -/
def plainWord (flow : Bool) : List Char → List Char
  | [] => []
  | char :: rest =>
    if endsHere (char :: rest) || (char = ':' && endsHere rest) ||
        (flow && (isFlowMark char || (char = '?' && endsHere rest))) then
      []
    else
      char :: plainWord flow rest

/-- A plain scalar: its text, the spot after it and after the blanks behind it,
and whether a line ends in those. -/
structure Plain where
  text : List Char
  after : Spot
  behindBreak : Bool
  deriving DecidableEq, Repr

/-- Reads the words of a plain scalar, of which the next one stands behind the
characters `between`.  Outside of a flow its lines lie from the column `indent`
on. -/
def plain (flow : Bool) (start : Mark) (indent : Nat) :
    (between : List Char) → (behindBreak : Bool) → Nat → Spot → Except Malformed Plain
  | _, behindBreak, 0, spot => .ok ⟨[], spot, behindBreak⟩
  | between, behindBreak, fuel + 1, spot =>
    let word := plainWord flow spot.rest
    let after := spot.skip word.length
    if spot.isDocumentMark || spot.rest.head? = some '#' || word = [] then
      .ok ⟨[], spot, behindBreak⟩
    else if after.rest.isEmpty || !endsHere after.rest then
      .ok ⟨between ++ word, after, false⟩
    else do
      let (nextBetween, broken, next) ← passBetween start indent after
      if !flow && next.mark.column < indent then
        return ⟨between ++ word, next, broken⟩
      else
        let more ← plain flow start indent nextBetween broken fuel next
        return { more with text := between ++ word ++ more.text }

end Yaml
end Siren
