import Siren.Text.Rune

/-!
# The characters of a YAML text

A text is decoded from UTF-8 block by block, before what stands in a block is
looked at.  Control characters are refused.
-/

namespace Siren
namespace Yaml

/-- What is wrong with a document, and the line it is reported for. -/
structure Malformed where
  line : Option Nat
  problem : Text
  deriving DecidableEq, Repr

/-- The message of a malformed document. -/
def Malformed.message (malformed : Malformed) : Text :=
  match malformed.line with
  | some line => "yaml: line " ++ Text.ofNat line ++ ": " ++ malformed.problem
  | none => "yaml: " ++ malformed.problem

/-- The characters of a text up to the block in which something is wrong with
it. -/
structure Characters where
  list : List Char
  fault : Option Malformed
  deriving DecidableEq, Repr

namespace Characters

/-- Whether a code point may stand in a document. -/
def isAllowed (code : Nat) : Bool :=
  code = 9 || code = 10 || code = 13 || (0x20 ≤ code && code ≤ 0x7E) || code = 0x85 ||
    (0xA0 ≤ code && code ≤ 0xD7FF) || (0xE000 ≤ code && code ≤ 0xFFFD && code ≠ 0xFEFF) ||
    0x10000 ≤ code

/-- The number of bytes of a sequence by its first byte. -/
def width? (first : UInt8) : Option Nat :=
  if first < 0x80 then some 1
  else if 0xC0 ≤ first && first < 0xE0 then some 2
  else if 0xE0 ≤ first && first < 0xF0 then some 3
  else if 0xF0 ≤ first && first < 0xF8 then some 4
  else none

/-- The number that the bits of a sequence of some width make up. -/
def codeOf (width : Nat) (first : UInt8) (rest : Text) : Nat :=
  let bits := if width = 1 then first.toNat else first.toNat % Nat.pow 2 (7 - width)
  rest.foldl (fun code byte => code * 64 + Rune.low byte) bits

/-- The least code point that needs a sequence of some width. -/
def leastCode (width : Nat) : Nat :=
  if width = 2 then 0x80 else if width = 3 then 0x800 else if width = 4 then 0x10000 else 0

/-- The code point of a sequence of some width at the start of a text, or what is
wrong with it. -/
def code (width : Nat) (first : UInt8) (rest : Text) : Except Text Nat :=
  let code := codeOf width first rest
  if !rest.all Rune.isContinuation then .error "invalid trailing UTF-8 octet"
  else if code < leastCode width then .error "invalid length of a UTF-8 sequence"
  else if (0xD800 ≤ code && code ≤ 0xDFFF) || 0x10FFFF < code then
    .error "invalid Unicode character"
  else if !isAllowed code then .error "control characters are not allowed"
  else .ok code

/-- The number of bytes in a block. -/
def blockSize : Nat := 512

/-- The characters in front of something wrong. -/
def before (list : List Char) (problem : Text) : Characters :=
  ⟨list, some ⟨none, problem⟩⟩

/-- Decodes a text, given the characters of the block that has begun, last one
first, and the number of its bytes.  A sequence that does not fit into the block
opens the next one. -/
def decode (block : List Char) (used : Nat) (text : Text) : Characters :=
  match text with
  | [] => ⟨block.reverse, none⟩
  | first :: rest =>
    match width? first with
    | none =>
      before (if used < blockSize then [] else block.reverse) "invalid leading UTF-8 octet"
    | some width =>
      if (first :: rest).length < width then
        before block.reverse "incomplete UTF-8 octet sequence"
      else
        let fits := used + width ≤ blockSize
        match code width first (rest.take (width - 1)) with
        | .error problem => before (if fits then [] else block.reverse) problem
        | .ok code =>
          let char := Char.ofNat code
          if fits then
            decode (char :: block) (used + width) (rest.drop (width - 1))
          else
            let more := decode [char] width (rest.drop (width - 1))
            { more with list := block.reverse ++ more.list }
termination_by text.length
decreasing_by
  all_goals
    simp only [List.length_drop, List.length_cons]
    omega

/-- The characters of a text, without a byte order mark at its start. -/
def ofText : Text → Characters
  | 0xEF :: 0xBB :: 0xBF :: rest => decode [] 3 rest
  | text => decode [] 0 text

end Characters
end Yaml
end Siren
