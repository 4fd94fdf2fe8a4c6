import Siren.Console
import Siren.Options
import Siren.Settings

/-!
# The command line

The command runs a file, or the console when it is given none.  Options win
over the settings file.  What it prints goes to the output, and what it logs to
the error output.
-/

namespace Siren
namespace CommandLine

/-- What a run prints and its exit code. -/
structure Report where
  exitCode : Nat
  output : Text
  errors : Text
  deriving DecidableEq, Repr

/-- What the command takes from the environment. -/
structure Environment where
  /-- The home directory. -/
  home : Option Text
  /-- Whether output is coloured. -/
  color : Bool
  deriving DecidableEq, Repr

namespace Environment

/-- The environment that variables describe.  Output that is no terminal is
coloured only by force. -/
def ofVariables (value : Text → Text) : Environment :=
  let force := value "CLICOLOR_FORCE"
  let forced := force ≠ [] && force ≠ "0"
  let never := value "NO_COLOR" ≠ [] || (value "CLICOLOR" = "0" && !forced)
  let home := value "HOME"
  { home := if home = [] then none else some home
    color := forced && !never }

end Environment

/-- What is printed before the options in the help. -/
def helpText : Text :=
  "Usage: siren [options] [file]\n" ++
  "Without a file an interactive session is started.\n" ++
  "Options:\n"

/-- The report of options that cannot be read. -/
def usageReport (failure : Options.Failure) : Report where
  exitCode := if failure = .usage then 0 else 2
  output := []
  errors := failure.message ++ "Usage of siren:\n" ++ Options.list

/-- The options of a command line that asks for a run, or the report of one that
does not. -/
def options (arguments : List Text) : Except Report Options :=
  match Options.parse arguments with
  | .error failure => .error (usageReport failure)
  | .ok options => if options.help then .error ⟨0, helpText, Options.list⟩ else .ok options

/-- What is run, and how it is shown. -/
structure Plan where
  settings : Settings
  printProgram : Bool
  file : Option Text
  color : Bool
  log : Log.Options

namespace Plan

/-- The plan of options and settings. -/
def ofSettings (environment : Environment) (options : Options) (settings : Settings) : Plan :=
  let noColor := settings.noColor || options.noColor
  let verbose := settings.verbose || options.verbose
  { settings := { settings with
      noColor, verbose
      maxCallDepth := if 0 ≤ options.maxDepth then options.maxDepth else settings.maxCallDepth }
    printProgram := options.printProgram
    file := options.files.head?
    color := environment.color && !noColor
    log := ⟨verbose, !noColor⟩ }

/-- How the plan runs a script. -/
def script (plan : Plan) : Script.Options where
  verbose := plan.settings.verbose
  noColor := plan.settings.noColor
  printProgram := plan.printProgram
  maxDepth := plan.settings.maxCallDepth

/-- How the plan runs the console. -/
def console (plan : Plan) : Console.Options where
  prompts := ⟨plan.settings.prompt, plan.settings.continuationPrompt⟩
  color := plan.color

end Plan

/-- The record of a failure that ends the command. -/
def fatal (message : Text) (fields : List (Text × Text)) : Log.Record :=
  ⟨.fatal, message, fields⟩

/-- The plan of a run, or the report of settings that cannot be loaded. -/
def plan (environment : Environment) (options : Options)
    (settings : Except Settings.Failure Settings) : Except Report Plan :=
  match settings with
  | .ok settings => .ok (.ofSettings environment options settings)
  | .error failure =>
    let record := fatal "Failed to load config" [("error", failure.message)]
    .error ⟨1, [], Log.text ⟨options.verbose, !options.noColor⟩ [record]⟩

/-- The path of the settings file that options choose. -/
def settingsPath (environment : Environment) (options : Options) : Text :=
  if options.configFile = [] then
    (environment.home.map Settings.standardPath).getD []
  else
    options.configFile

/-- The settings that options choose, given how files are read. -/
def settings (environment : Environment) (options : Options)
    (read : Text → Except FileError Text) : Except Settings.Failure Settings :=
  if options.configFile = [] then
    Settings.loadStandard environment.home read
  else
    Settings.load environment.home options.configFile (read options.configFile)

/-- The report of a file that was run. -/
def scriptReport (plan : Plan) (path : Text) (contents : Except FileError Text) : Report :=
  let report := Script.runFile plan.script plan.color path contents
  match report.failure with
  | none => ⟨0, report.output, Log.text plan.log report.records⟩
  | some failure =>
    let record := fatal "Run failed" [("file", path), ("error", failure.message)]
    ⟨1, report.output, Log.text plan.log (report.records ++ [record])⟩

/-- The history in a file that may not exist. -/
def history (contents : Except FileError Text) : History :=
  match contents with
  | .ok contents => History.ofText contents
  | .error _ => []

/-- The record of a history that could not be saved. -/
def unsaved (error : FileError) : Log.Record :=
  ⟨.warn, "Failed to save history", [("file", error.path), ("error", error.message)]⟩

/-- Runs the console and saves its history, unless none is kept. -/
def runConsole (options : Console.Options) (settings : Settings) (disk : Disk) (input : Text) :
    Text × List Log.Record × Disk :=
  let path := settings.historyFile
  let old := if path = [] then [] else history (disk.read path)
  let transcript := Console.run options (.ofInt settings.maxCallDepth) old input
  if path = [] then
    (transcript.output, transcript.records, disk)
  else
    match disk.write path (History.text transcript.history) with
    | .ok disk => (transcript.output, transcript.records, disk)
    | .error error => (transcript.output, transcript.records ++ [unsaved error], disk)

/-- Runs the command on a disk. -/
def run (environment : Environment) (disk : Disk) (arguments : List Text) (input : Text) :
    Report × Disk :=
  let planned : Except Report Plan := do
    let options ← options arguments
    plan environment options (settings environment options disk.read)
  match planned with
  | .error report => (report, disk)
  | .ok plan =>
    match plan.file with
    | some path => (scriptReport plan path (disk.read path), disk)
    | none =>
      let (output, records, disk) :=
        runConsole plan.console plan.settings disk input
      (⟨0, output, Log.text plan.log records⟩, disk)

end CommandLine
end Siren
