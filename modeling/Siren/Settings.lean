import Siren.Disk
import Siren.Evaluation
import Siren.Text.Quoted
import Siren.Yaml.Reader

/-!
# Settings

Settings are read from a YAML mapping on top of the built-in ones.  Keys that
are not known and values of the wrong kind are reported all at once, in the
order of the file.
-/

namespace Siren

/-- What a user can set. -/
structure Settings where
  prompt : Text
  continuationPrompt : Text
  historyFile : Text
  maxCallDepth : Int
  noColor : Bool
  verbose : Bool
  deriving DecidableEq, Repr

namespace Settings

/-- The name of the settings file in the home directory. -/
def fileName : Text := ".siren.yaml"

/-- The name of the history file in the home directory. -/
def historyName : Text := ".siren_history"

/-- The built-in settings; without a home directory no history is kept. -/
def standard (home : Option Text) : Settings where
  prompt := "siren> "
  continuationPrompt := "  ...> "
  historyFile := match home with
    | some home => Path.join home historyName
    | none => []
  maxCallDepth := DepthLimit.standard
  noColor := false
  verbose := false

/-- Settings with nothing in them. -/
def blank : Settings := ⟨[], [], [], 0, false, false⟩

/-- A problem on a line of a settings file. -/
structure Problem where
  line : Nat
  message : Text
  deriving DecidableEq, Repr

/-- A problem with its line. -/
def Problem.text (problem : Problem) : Text :=
  "line " ++ Text.ofNat problem.line ++ ": " ++ problem.message

/-- The value of a scalar as a message shows it: a long one is cut. -/
def shownValue (text : Text) : Text :=
  if 10 < text.length then text.take 7 ++ "..." else text

/-- A node does not fit a kind of value. -/
def misfit (kind : Text) : Yaml.Node → Problem
  | .scalar scalar =>
    ⟨scalar.line, "cannot unmarshal " ++ scalar.resolve.tag ++ " `" ++
      shownValue scalar.text ++ "` into " ++ kind⟩
  | .sequence line => ⟨line, "cannot unmarshal !!seq into " ++ kind⟩
  | .mapping line _ => ⟨line, "cannot unmarshal !!map into " ++ kind⟩

/-- The problems of keys that stand in a mapping more than once. -/
def duplicates : List (Yaml.Node × Yaml.Node) → List Problem
  | [] => []
  | (key, _) :: entries =>
    (entries.filterMap fun (other, _) =>
      if key.isSameKey other then
        some ⟨other.line, "mapping key " ++ other.keyText.literal ++ " already defined at line " ++
          Text.ofNat key.line⟩
      else
        none) ++ duplicates entries

/-- A value for a setting: none leaves it as it is. -/
abbrev Fitted (α : Type) := Except (List Problem) (Option α)

/-- The problems of a node that does not fit a kind of value. -/
def problemsOf (kind : Text) (node : Yaml.Node) : List Problem :=
  match node with
  | .mapping _ entries =>
    if (duplicates entries).isEmpty then [misfit kind node] else duplicates entries
  | _ => [misfit kind node]

/-- A node as a text: every scalar but a null is one. -/
def fitText (node : Yaml.Node) : Fitted Text :=
  match node with
  | .scalar scalar => .ok (if scalar.resolve = .null then none else some scalar.text)
  | _ => .error (problemsOf "string" node)

/-- A node as an integer of 64 bits: a number with a fraction gives its whole
part, and one far below zero or just above the range the least integer. -/
def fitInt (node : Yaml.Node) : Fitted Int :=
  match node with
  | .scalar scalar =>
    match scalar.resolve with
    | .null => .ok none
    | .int value =>
      if value < Int.pow 2 63 then .ok (some value) else .error (problemsOf "int" node)
    | .float (some value) =>
      if value < Int.pow 2 63 then .ok (some (max value (-(Int.pow 2 63))))
      else if value = Int.pow 2 63 then .ok (some (-(Int.pow 2 63)))
      else .error (problemsOf "int" node)
    | _ => .error (problemsOf "int" node)
  | _ => .error (problemsOf "int" node)

/-- The words that stand for truth. -/
def affirmations : List Text := ["y", "Y", "yes", "Yes", "YES", "on", "On", "ON"]

/-- The words that stand for falsehood. -/
def negations : List Text := ["n", "N", "no", "No", "NO", "off", "Off", "OFF"]

/-- A node as a truth value, which some words stand for too. -/
def fitBool (node : Yaml.Node) : Fitted Bool :=
  match node with
  | .scalar scalar =>
    match scalar.resolve with
    | .null => .ok none
    | .bool value => .ok (some value)
    | .str =>
      if affirmations.contains scalar.text then .ok (some true)
      else if negations.contains scalar.text then .ok (some false)
      else .error (problemsOf "bool" node)
    | _ => .error (problemsOf "bool" node)
  | _ => .error (problemsOf "bool" node)

/-- The settings with a setting changed to a value that fits, and the problems
of one that does not. -/
def change {α : Type} (settings : Settings) (fitted : Fitted α)
    (update : α → Settings) : Settings × List Problem :=
  match fitted with
  | .ok none => (settings, [])
  | .ok (some value) => (update value, [])
  | .error problems => (settings, problems)

/-- The settings with a setting changed by its key in the file, and the problems
of that. -/
def set (settings : Settings) (key : Yaml.Scalar) (value : Yaml.Node) :
    Settings × List Problem :=
  if key.text = "prompt" then
    settings.change (fitText value) fun prompt => { settings with prompt }
  else if key.text = "continuation_prompt" then
    settings.change (fitText value) fun continuationPrompt =>
      { settings with continuationPrompt }
  else if key.text = "history_file" then
    settings.change (fitText value) fun historyFile => { settings with historyFile }
  else if key.text = "max_call_depth" then
    settings.change (fitInt value) fun maxCallDepth => { settings with maxCallDepth }
  else if key.text = "no_color" then
    settings.change (fitBool value) fun noColor => { settings with noColor }
  else if key.text = "verbose" then
    settings.change (fitBool value) fun verbose => { settings with verbose }
  else
    (settings, [⟨key.line, "field " ++ key.text ++ " not found in type config.Config"⟩])

/-- The settings with an entry of the file applied, and its problems.  A null as
a key is passed over. -/
def apply (settings : Settings) (key value : Yaml.Node) : Settings × List Problem :=
  match key with
  | .scalar name => if name.resolve = .null then (settings, []) else settings.set name value
  | _ => (settings, problemsOf "string" key)

/-- The settings with entries applied in order, and all their problems. -/
def applyAll (settings : Settings) : List (Yaml.Node × Yaml.Node) → Settings × List Problem
  | [] => (settings, [])
  | (key, value) :: entries =>
    let (settings, problems) := settings.apply key value
    let (settings, more) := settings.applyAll entries
    (settings, problems ++ more)

/-- The settings with a document applied, and its problems. -/
def applyNode (settings : Settings) (node : Yaml.Node) : Settings × List Problem :=
  match node with
  | .mapping _ entries =>
    if (duplicates entries).isEmpty then settings.applyAll entries
    else (settings, duplicates entries)
  | .scalar scalar =>
    if scalar.resolve = .null then (settings, []) else (settings, [misfit "config.Config" node])
  | .sequence _ => (settings, [misfit "config.Config" node])

/-- Why settings cannot be loaded. -/
inductive Failure where
  | emptyPath
  | unopened (error : FileError)
  | unread (path : Text) (error : FileError)
  | malformed (path : Text) (problem : Yaml.Malformed)
  | unfit (path : Text) (problems : List Problem)
  | negativeDepth (path : Text)

namespace Failure

/-- A failure within a file. -/
def within (path message : Text) : Text :=
  "config: parse " ++ path ++ ": " ++ message

/-- The message of a failure. -/
def message : Failure → Text
  | .emptyPath => "config: empty path"
  | .unopened error => error.message
  | .unread path error => within path ("yaml: input error: " ++ error.message)
  | .malformed path problem => within path problem.message
  | .unfit path problems =>
    within path ("yaml: unmarshal errors:" ++
      problems.flatMap fun problem => Text.ofString "\n  " ++ problem.text)
  | .negativeDepth path => within path "max_call_depth must not be negative"

/-- Whether the file does not exist. -/
def isNotFound : Failure → Bool
  | .unopened error => error.isNotFound
  | _ => false

end Failure

/-- The settings in the contents of a file. -/
def decode (home : Option Text) (path contents : Text) : Except Failure Settings :=
  match Yaml.Document.read contents with
  | .error problem => .error (.malformed path problem)
  | .ok none => .ok (standard home)
  | .ok (some node) =>
    match (standard home).applyNode node with
    | (settings, []) =>
      if settings.maxCallDepth < 0 then .error (.negativeDepth path) else .ok settings
    | (_, problems) => .error (.unfit path problems)

/-- The settings in a file, given what reading it gave. -/
def load (home : Option Text) (path : Text) (contents : Except FileError Text) :
    Except Failure Settings :=
  if path = [] then
    .error .emptyPath
  else
    match contents with
    | .ok contents => decode home path contents
    | .error error =>
      match error.action with
      | .opening => .error (.unopened error)
      | .reading => .error (.unread path error)

/-- The path of the settings file in a home directory. -/
def standardPath (home : Text) : Text :=
  Path.join home fileName

/-- The settings in the file of the home directory; without a home directory or
a file there they are the built-in ones. -/
def loadStandard (home : Option Text) (read : Text → Except FileError Text) :
    Except Failure Settings :=
  match home with
  | none => .ok (standard none)
  | some directory =>
    match load home (standardPath directory) (read (standardPath directory)) with
    | .ok settings => .ok settings
    | .error failure =>
      if failure.isNotFound then .ok (standard home) else .error failure

end Settings
end Siren
