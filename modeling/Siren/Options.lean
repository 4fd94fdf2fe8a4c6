import Siren.Text.Digits
import Siren.Text.Quoted

/-!
# Command-line options

Options start with one or two hyphens and stand before the other arguments.  An
option for a truth value takes its value behind an equals sign only; the others
also take the next argument.
-/

namespace Siren

/-- What the command line sets. -/
structure Options where
  help : Bool
  verbose : Bool
  noColor : Bool
  printProgram : Bool
  configFile : Text
  maxDepth : Int
  /-- The arguments behind the options. -/
  files : List Text
  deriving DecidableEq, Repr

namespace Options

/-- The options when none is given. -/
def standard : Options := ⟨false, false, false, false, [], -1, []⟩

/-- Why the options cannot be read; a request for the usage counts as one. -/
inductive Failure where
  | usage
  | badForm (argument : Text)
  | unknown (name : Text)
  | noValue (name : Text)
  | badBool (name value : Text)
  | badInt (name value : Text) (outOfRange : Bool)
  deriving DecidableEq, Repr

/-- The message of a failure. -/
def Failure.message : Failure → Text
  | .usage => []
  | .badForm argument => Text.line ("bad flag syntax: " ++ argument)
  | .unknown name => Text.line ("flag provided but not defined: -" ++ name)
  | .noValue name => Text.line ("flag needs an argument: -" ++ name)
  | .badBool name value =>
    Text.line ("invalid boolean value " ++ value.literal ++ " for -" ++ name ++ ": parse error")
  | .badInt name value outOfRange =>
    Text.line ("invalid value " ++ value.literal ++ " for flag -" ++ name ++ ": " ++
      (if outOfRange then Text.ofString "value out of range" else Text.ofString "parse error"))

/-- The list of options. -/
def list : Text :=
  "  -config string\n" ++
  "    \tConfig file (default $HOME/.siren.yaml)\n" ++
  "  -h\tShow help\n" ++
  "  -max-depth int\n" ++
  "    \tMaximum call depth, 0 for unlimited (default -1)\n" ++
  "  -n\tNo color\n" ++
  "  -p\tPrint the parsed program before running it\n" ++
  "  -v\tVerbose mode (trace calls)\n"

/-- A truth value. -/
def bool? (text : Text) : Option Bool :=
  if text ∈ (["1", "t", "T", "TRUE", "true", "True"] : List Text) then some true
  else if text ∈ (["0", "f", "F", "FALSE", "false", "False"] : List Text) then some false
  else none

/-- The base that the start of a number names, the digits after it, and whether
an underscore may stand before them. -/
def spanBase : Text → Nat × Text × Bool
  | 48 :: mark :: digits =>
    if mark = 120 || mark = 88 then (16, digits, true)
    else if mark = 98 || mark = 66 then (2, digits, true)
    else if mark = 111 || mark = 79 then (8, digits, true)
    else (8, mark :: digits, true)
  | digits => (10, digits, false)

/-- Whether every underscore stands between digits, where `before` says whether
a digit stands before the text. -/
def underscoresFit (before : Bool) : Text → Bool
  | [] => true
  | [byte] => byte ≠ 95
  | byte :: rest =>
    if byte = 95 then before && rest.head? ≠ some 95 && underscoresFit false rest
    else underscoresFit true rest

/-- The value of digits in a base after a value already read.  Reading stops
where the value leaves 64 bits. -/
def digits? (base : Nat) (value : Nat) : Text → Except Bool Nat
  | [] => .ok value
  | byte :: rest =>
    if byte = 95 then digits? base value rest
    else if base ≤ Text.digitValue byte then .error false
    else if Nat.pow 2 64 ≤ value * base + Text.digitValue byte then .error true
    else digits? base (value * base + Text.digitValue byte) rest

/-- An integer of 64 bits, or whether it is out of range. -/
def int? (text : Text) : Except Bool Int :=
  let (sign, rest) := Text.splitSign text
  let (base, digits, marked) := spanBase rest
  if digits = [] then
    .error false
  else
    match digits? base 0 digits with
    | .error outOfRange => .error outOfRange
    | .ok value =>
      if !underscoresFit marked digits then .error false
      else if sign = some true then
        if value ≤ Nat.pow 2 63 then .ok (-(value : Int)) else .error true
      else if value < Nat.pow 2 63 then .ok value
      else .error true

/-- The name of an option and its value behind an equals sign, which cannot come
first. -/
def splitValue (text : Text) : Text × Option Text :=
  match text with
  | [] => ([], none)
  | first :: rest =>
    let name := first :: rest.takeWhile (· ≠ 61)
    match rest.dropWhile (· ≠ 61) with
    | [] => (name, none)
    | _ :: value => (name, some value)

/-- What an option sets. -/
inductive Flag where
  | bool (set : Bool → Options)
  | text (set : Text → Options)
  | int (set : Int → Options)

/-- The option with a name. -/
def flag? (options : Options) (name : Text) : Option Flag :=
  if name = "h" then some (.bool fun help => { options with help })
  else if name = "v" then some (.bool fun verbose => { options with verbose })
  else if name = "n" then some (.bool fun noColor => { options with noColor })
  else if name = "p" then some (.bool fun printProgram => { options with printProgram })
  else if name = "config" then some (.text fun configFile => { options with configFile })
  else if name = "max-depth" then some (.int fun maxDepth => { options with maxDepth })
  else none

/-- Sets an option to a text. -/
def set (name value : Text) : Flag → Except Failure Options
  | .bool set =>
    match bool? value with
    | some value => .ok (set value)
    | none => .error (.badBool name value)
  | .text set => .ok (set value)
  | .int set =>
    match int? value with
    | .ok value => .ok (set value)
    | .error outOfRange => .error (.badInt name value outOfRange)

/-- What an argument is. -/
inductive Argument where
  | operand
  | terminator
  | malformed
  | option (text : Text)

/-- What an argument is by its hyphens. -/
def Argument.ofText : Text → Argument
  | 45 :: 45 :: [] => .terminator
  | 45 :: 45 :: text => ofName text
  | 45 :: [] => .operand
  | 45 :: text => ofName text
  | _ => .operand
where
  /-- An option must have a name. -/
  ofName (text : Text) : Argument :=
    match text with
    | [] => .malformed
    | first :: _ => if first = 45 || first = 61 then .malformed else .option text

/-- Reads options from the arguments on top of those already read. -/
def parseFrom (options : Options) : List Text → Except Failure Options
  | [] => .ok options
  | argument :: arguments =>
    match Argument.ofText argument with
    | .operand => .ok { options with files := argument :: arguments }
    | .terminator => .ok { options with files := arguments }
    | .malformed => .error (.badForm argument)
    | .option text =>
      let (name, value?) := splitValue text
      match options.flag? name with
      | none => .error (if name = "help" then .usage else .unknown name)
      | some flag =>
        match value? with
        | some value => do parseFrom (← set name value flag) arguments
        | none =>
          match flag with
          | .bool set => parseFrom (set true) arguments
          | flag =>
            match arguments with
            | [] => .error (.noValue name)
            | value :: arguments => do parseFrom (← set name value flag) arguments

/-- Reads the arguments of a command line. -/
def parse (arguments : List Text) : Except Failure Options :=
  parseFrom standard arguments

end Options
end Siren
