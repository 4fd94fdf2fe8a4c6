import Siren.CommandLine

/-!
# The program

The outermost layer: it reads arguments, variables, files and lines, and prints
what the library gives for them.
-/

namespace Siren
namespace Main

/-- The bytes of a text. -/
def bytes (text : Text) : ByteArray := ⟨text.toArray⟩

/-- The path that a text names for the operating system. -/
def pathOf (path : Text) : String :=
  (String.fromUTF8? (bytes path)).getD ""

/-- Whether a code of the operating system, with or without a minus sign, is a
number. -/
def isCode (code number : UInt32) : Bool :=
  code = number || code = 0 - number

/-- The problem that an error of the operating system reports. -/
def problemOf : IO.Error → FileProblem
  | .noFileOrDirectory .. => .notFound
  | .inappropriateType _ code _ => if isCode code 20 then .notDirectory else .isDirectory
  | .permissionDenied .. => .denied
  | .invalidArgument _ code _ => if isCode code 36 then .nameTooLong else .invalidPath
  | _ => .notFound

/-- The contents of a file. -/
def readFile (path : Text) : IO (Except FileError Text) := do
  try
    return .ok (← IO.FS.readBinFile (pathOf path)).data.toList
  catch error =>
    match problemOf error with
    | .isDirectory => return .error ⟨.reading, path, .isDirectory⟩
    | problem => return .error ⟨.opening, path, problem⟩

/-- Prints to a stream. -/
def print (stream : IO.FS.Stream) (text : Text) : IO Unit := do
  stream.write (bytes text)
  stream.flush

/-- The values of environment variables; one that is not set is empty. -/
def environmentValues (names : List String) : IO (List (Text × Text)) :=
  names.mapM fun name => do
    return (Text.ofString name, Text.ofString ((← IO.getEnv name).getD ""))

/-- Reads on until the input holds a line or fills the buffer. -/
partial def fill (input : Text) : IO Text := do
  if Text.lineFeed ∈ input || Input.capacity ≤ input.length then
    return input
  let more ← (← IO.getStdin).read 1
  if more.isEmpty then return input else fill (input ++ more.data.toList)

/-- Reads lines until they make up a chunk, and gives the input after it. -/
partial def readChunk (options : Console.Options) (pending input : Text) :
    IO (Console.Chunk × Text) := do
  match Console.promptFor options.prompts true pending with
  | none => return (.ended (.broken "invalid prompt"), input)
  | some prompt =>
    print (← IO.getStdout) prompt
    let input ← fill input
    if input = [] then
      return (.ended .closed, [])
    let (line, length) := Input.firstLine input
    let text := Console.extend pending line.text
    if Console.isFinished text then
      return (.read text, input.drop length)
    else
      readChunk options text (input.drop length)

/-- Reads and evaluates chunks up to the end of the input or a command to
quit. -/
partial def converse (options : Console.Options) (log : Log.Options) (state : Console.State)
    (input : Text) : IO History := do
  match ← readChunk options [] input with
  | (.ended ending, _) =>
    print (← IO.getStdout) [Text.lineFeed]
    print (← IO.getStderr) (Log.text log ending.records)
    return state.history
  | (.read source, input) =>
    let answer := Console.answer options.color state source
    print (← IO.getStderr) (Log.text log answer.records)
    print (← IO.getStdout) answer.output
    if answer.quit then return answer.state.history
    else converse options log answer.state input

/-- Runs the console on the standard input. -/
def runConsole (plan : CommandLine.Plan) : IO Unit := do
  let options := plan.console
  let path := plan.settings.historyFile
  let old ← if path = [] then pure [] else CommandLine.history <$> readFile path
  print (← IO.getStdout) (Text.line (Style.bold options.color Console.banner))
  let state : Console.State := ⟨.start (.ofInt plan.settings.maxCallDepth), old⟩
  let history ← converse options plan.log state []
  if path ≠ [] then
    try
      IO.FS.writeBinFile (pathOf path) (bytes (History.text history))
    catch error =>
      print (← IO.getStderr)
        (Log.text plan.log [CommandLine.unsaved ⟨.opening, path, problemOf error⟩])

/-- Prints a report and gives its exit code. -/
def finish (report : CommandLine.Report) : IO UInt32 := do
  print (← IO.getStdout) report.output
  print (← IO.getStderr) report.errors
  return UInt32.ofNat report.exitCode

/-- Runs the command. -/
def run (arguments : List Text) : IO UInt32 := do
  let values ← environmentValues ["HOME", "NO_COLOR", "CLICOLOR", "CLICOLOR_FORCE"]
  let environment :=
    CommandLine.Environment.ofVariables fun name => (values.lookup name).getD []
  match CommandLine.options arguments with
  | .error report => finish report
  | .ok options =>
    let path := CommandLine.settingsPath environment options
    let contents ← readFile path
    match CommandLine.plan environment options
        (CommandLine.settings environment options fun _ => contents) with
    | .error report => finish report
    | .ok plan =>
      match plan.file with
      | some path => finish (CommandLine.scriptReport plan path (← readFile path))
      | none =>
        runConsole plan
        return 0

end Main
end Siren

/-- The entry of the program. -/
def main (arguments : List String) : IO UInt32 :=
  Siren.Main.run (arguments.map Siren.Text.ofString)
