import Siren.Disk
import Siren.Log
import Siren.Program.Parser
import Siren.Session

/-!
# Scripts

A script is a source text that is read and evaluated as a whole.  What it
prints is the first syntax error, or the program if asked for, and then the
runtime error or the value.
-/

namespace Siren
namespace Script

/-- How a script is run. -/
structure Options where
  /-- Logs the program. -/
  verbose : Bool
  /-- Turns colour off. -/
  noColor : Bool
  /-- Prints the program before running it. -/
  printProgram : Bool
  /-- The number of active calls that are allowed; zero and below mean any. -/
  maxDepth : Int

/-- Why a script fails. -/
inductive Failure where
  | unreadable (path : Text) (error : FileError)
  | parsing (errors : List SyntaxError)
  | evaluation (fault : Fault)

/-- The message of a failure. -/
def Failure.message : Failure → Text
  | .unreadable path error => "read " ++ path ++ ": " ++ error.message
  | .parsing errors =>
    "parsing failed with " ++ Text.ofNat errors.length ++ " errors: " ++
      SyntaxError.summary errors
  | .evaluation fault => "evaluation failed: " ++ fault.message

/-- What running a script gives. -/
structure Report where
  output : Text
  records : List Log.Record
  /-- Whether colour is on afterwards. -/
  color : Bool
  failure : Option Failure

/-- What is printed for syntax errors: the first one with its line. -/
def syntaxErrorText (color : Bool) (source : Text) (errors : List SyntaxError) : Text :=
  match errors with
  | [] => []
  | first :: _ =>
    Text.line (Style.errorAt color first.pos.line first.pos.column first.message
      (Style.caret color source first.pos.line first.pos.column))

/-- What is printed of a program before it runs. -/
def programText (color : Bool) (program : Program) : Text :=
  Text.line (Style.tint color .green "=== AST ===") ++
    Text.line (if program.isEmpty then Style.tint color .gray "Empty program."
      else Program.text program)

/-- What is printed at the end of a program. -/
def resultText (color : Bool) : Except Fault Value → Text
  | .error fault =>
    Text.line (Style.tint color .red "=== Runtime Error ===") ++
      Text.line (Style.error color fault.message)
  | .ok value => if value.isUnit then [] else Text.line value.text

/-- Runs a source text. -/
def runSource (options : Options) (color : Bool) (source : Text) : Report :=
  let color := color && !options.noColor
  let parsed := Program.ofText source
  if parsed.errors.isEmpty then
    let program := parsed.program
    let parsedRecord : Log.Record :=
      ⟨.info, "Parsed program",
        [("statements", Text.ofNat program.length), ("ast", Program.text program)]⟩
    let (result, session) := (Session.start (.ofInt options.maxDepth)).run program
    { output := (if options.printProgram then programText color program else []) ++
        resultText color result
      records := (if options.verbose then [parsedRecord] else []) ++
        session.takeTrace.1.map Log.ofEvent
      color
      failure := match result with
        | .ok _ => none
        | .error fault => some (.evaluation fault) }
  else
    { output := Text.line (Style.tint color .brightRed "=== Syntax Errors ===") ++
        syntaxErrorText color source parsed.errors
      records := []
      color
      failure := some (.parsing parsed.errors) }

/-- Runs the file at a path, given what reading it gave. -/
def runFile (options : Options) (color : Bool) (path : Text)
    (contents : Except FileError Text) : Report :=
  let running : Log.Record := ⟨.info, "Running file", [("file", path)]⟩
  match contents with
  | .error error => ⟨[], [running], color, some (.unreadable path error)⟩
  | .ok source =>
    let report := runSource options color source
    { report with records := running :: report.records }

end Script
end Siren
