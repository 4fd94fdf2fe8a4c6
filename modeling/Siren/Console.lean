import Siren.Console.History
import Siren.Script
import Siren.Text.Printable

/-!
# The console

The console reads chunks of source, each of as many lines as it takes to be no
longer unfinished, and evaluates them one statement at a time against bindings
that stay.  A chunk that starts with a colon is a command.
-/

namespace Siren
namespace Console

/-- What is shown when input is asked for: at the start of a chunk and within
one. -/
structure Prompts where
  first : Text
  more : Text

/-- How lines of input come to an end. -/
inductive Ending where
  | closed
  | aborted
  | broken (message : Text)
  deriving DecidableEq, Repr

/-- Lines of input that can be asked for, and how they end. -/
structure Source where
  lines : List Text
  ending : Ending
  /-- Refuses prompts that hold control characters. -/
  strict : Bool

/-- The chunk that was read, or how the input ended before one was complete. -/
inductive Chunk where
  | read (source : Text)
  | ended (ending : Ending)
  deriving DecidableEq, Repr

/-- What reading a chunk gives: the prompts that were shown, and the lines that
are left. -/
structure Reading where
  chunk : Chunk
  shown : List Text
  left : List Text

/-- The pending text with a line added. -/
def extend (pending line : Text) : Text :=
  if pending = [] then line else pending ++ [Text.lineFeed] ++ line

/-- Whether no more lines are needed: the text is blank, or it is not just
incomplete. -/
def isFinished (text : Text) : Bool :=
  text.isBlank || !SyntaxError.isIncomplete (Program.ofText text).errors

/-- Whether a prompt holds no control characters. -/
def isPrompt (prompt : Text) : Bool :=
  !prompt.runes.any Rune.isControl

/-- The prompt for the next line of the pending text, unless it is refused. -/
def promptFor (prompts : Prompts) (strict : Bool) (pending : Text) : Option Text :=
  let prompt := if pending = [] then prompts.first else prompts.more
  if strict && !isPrompt prompt then none else some prompt

/-- The reading that ends because a prompt is refused. -/
def refused (lines : List Text) : Reading :=
  ⟨.ended (.broken "invalid prompt"), [], lines⟩

/-- Reads a chunk that continues the pending text. -/
def readFrom (prompts : Prompts) (ending : Ending) (strict : Bool) (pending : Text) :
    List Text → Reading
  | [] =>
    match promptFor prompts strict pending with
    | none => refused []
    | some prompt => ⟨.ended ending, [prompt], []⟩
  | line :: left =>
    match promptFor prompts strict pending with
    | none => refused (line :: left)
    | some prompt =>
      if isFinished (extend pending line) then
        ⟨.read (extend pending line), [prompt], left⟩
      else
        let reading := readFrom prompts ending strict (extend pending line) left
        { reading with shown := prompt :: reading.shown }

/-- Reads a chunk. -/
def read (prompts : Prompts) (source : Source) : Reading :=
  readFrom prompts source.ending source.strict [] source.lines

/-- A chunk that is read takes at least one line. -/
theorem length_left_readFrom (prompts : Prompts) (ending : Ending) (strict : Bool)
    (pending : Text) (lines : List Text) (text : Text)
    (complete : (readFrom prompts ending strict pending lines).chunk = .read text) :
    (readFrom prompts ending strict pending lines).left.length < lines.length := by
  induction lines generalizing pending with
  | nil =>
      unfold readFrom at complete
      split at complete <;> simp [refused] at complete
  | cons line left hypothesis =>
      unfold readFrom at complete ⊢
      split at complete
      · simp [refused] at complete
      · split
        · simp
        · rename_i unfinished
          simp only [unfinished, Bool.false_eq_true, if_false] at complete
          have shorter := hypothesis _ complete
          simp only [List.length_cons]
          omega

/-- The record of input that could not be read. -/
def Ending.records : Ending → List Log.Record
  | .broken message => [⟨.error, "Failed to read input", [("error", message)]⟩]
  | .closed | .aborted => []

/-- A command. -/
inductive Command where
  | quit
  | bindings
  | reset
  | help
  | unknown
  deriving DecidableEq, Repr

/-- A code point in lower case, as far as commands can tell. -/
def lowerCase (rune : Rune) : Text :=
  if 65 ≤ rune.code && rune.code ≤ 90 then Rune.encode (rune.code + 32)
  else if rune.code = 0x130 then "i"
  else if rune.code = 0x212A then "k"
  else rune.bytes

/-- The command that a text names, in upper or lower case. -/
def Command.ofText (text : Text) : Command :=
  let name := text.runes.flatMap lowerCase
  if name = ":quit" || name = ":q" || name = ":exit" then .quit
  else if name = ":env" then .bindings
  else if name = ":reset" then .reset
  else if name = ":help" then .help
  else .unknown

/-- The list of commands. -/
def helpText : Text :=
  "Commands:\n" ++
  "  :env     list top-level bindings\n" ++
  "  :reset   discard every binding\n" ++
  "  :help    show this message\n" ++
  "  :quit    leave the REPL\n" ++
  "\n" ++
  "Input spanning several lines is read until it parses.\n"

/-- What evaluating a chunk gives. -/
structure Reply where
  session : Session
  output : Text
  quit : Bool

/-- What is printed of the bindings. -/
def bindingsText (color : Bool) (bindings : List Binding) : Text :=
  if bindings.isEmpty then
    Text.line (Style.tint color .gray "(no bindings)")
  else
    bindings.flatMap fun (name, value) =>
      Text.line (Style.tint color .yellow name ++ " = " ++ value.text)

/-- Carries out a command. -/
def obey (color : Bool) (session : Session) (text : Text) : Reply :=
  match Command.ofText text with
  | .quit => ⟨session, [], true⟩
  | .bindings => ⟨session, bindingsText color session.bindings, false⟩
  | .reset =>
    ⟨session.reset, Text.line (Style.tint color .gray "Environment cleared."), false⟩
  | .help => ⟨session, helpText, false⟩
  | .unknown =>
    ⟨session, Text.line ("Unknown command " ++ text ++
      ". Type :help for a list of commands."), false⟩

/-- What is printed of a statement. -/
def outcomeText (color : Bool) : Except Fault Outcome → Text
  | .error fault => Text.line (Style.error color fault.message)
  | .ok outcome =>
    if outcome.hasValue && !outcome.result.isUnit then
      Text.line (Style.tint color .cyan outcome.result.text)
    else
      []

/-- The byte that starts a command. -/
def colon : UInt8 := 58

/-- Evaluates a chunk. -/
def eval (color : Bool) (session : Session) (chunk : Text) : Reply :=
  let source := chunk.trim
  if source = [] then
    ⟨session, [], false⟩
  else if source.head? = some colon then
    obey color session source
  else
    let parsed := Program.ofText source
    if parsed.errors.isEmpty then
      let (outcomes, session) := session.execEach parsed.program
      ⟨session, outcomes.flatMap (outcomeText color), false⟩
    else
      ⟨session, Script.syntaxErrorText color source parsed.errors, false⟩

/-- The first line of the console. -/
def banner : Text := "Siren REPL. Type :help for commands, Ctrl+D to exit."

/-- A running console. -/
structure State where
  session : Session
  history : History

/-- What a run of the console gives. -/
structure Transcript where
  output : Text
  records : List Log.Record
  history : History

/-- How the console is run. -/
structure Options where
  prompts : Prompts
  color : Bool

/-- What a chunk of the input gives. -/
structure Answer where
  state : State
  output : Text
  records : List Log.Record
  quit : Bool

/-- Evaluates a chunk of the input and adds it to the history.  A blank one does
nothing. -/
def answer (color : Bool) (state : State) (source : Text) : Answer :=
  if source.isBlank then
    ⟨state, [], [], false⟩
  else
    let reply := eval color state.session source
    let (trace, session) := reply.session.takeTrace
    { state := ⟨session, state.history.add (History.entry source)⟩
      output := reply.output
      records := trace.map Log.ofEvent
      quit := reply.quit }

/-- Evaluates the chunks of the lines up to their end or a command to quit. -/
def loop (options : Options) (state : State) (lines : List Text) : Transcript :=
  let reading := readFrom options.prompts .closed true [] lines
  let shown := reading.shown.flatten
  match complete : reading.chunk with
  | .ended ending => ⟨shown ++ [Text.lineFeed], ending.records, state.history⟩
  | .read source =>
    have := length_left_readFrom options.prompts .closed true [] lines source complete
    let answer := answer options.color state source
    if answer.quit then
      ⟨shown ++ answer.output, answer.records, answer.state.history⟩
    else
      let after := loop options answer.state reading.left
      { after with
        output := shown ++ answer.output ++ after.output
        records := answer.records ++ after.records }
termination_by lines.length

/-- Runs the console on an input. -/
def run (options : Options) (limit : DepthLimit) (history : History) (input : Text) :
    Transcript :=
  let transcript := loop options ⟨.start limit, history⟩ ((Input.lines input).map (·.text))
  { transcript with
    output := Text.line (Style.bold options.color banner) ++ transcript.output }

end Console
end Siren
