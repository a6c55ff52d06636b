import Renewal.FileSystem.Operation
import Renewal.Settings.Value

/-! # Settings

The settings of the program are read from a file in the directory where it works and from the
environment. A variable of the environment counts before the file, and the file before the default.
What is not a setting, or has not the kind of the setting, has no effect.
-/

namespace Renewal

/-- A setting. -/
inductive Setting where
  /-- The pattern for names of scripts. -/
  | name
  /-- The suffix of saved copies. -/
  | suffix
  | encoding
  /-- Whether links to directories are entered. -/
  | followLinks
  | walker
  | differ
  | findCommand
  | diffCommand
deriving DecidableEq

/-- A group of settings. -/
inductive Section where
  | scan
  | tools
deriving DecidableEq

/-- The name of a group. -/
def Section.name : Section → String
  | .scan => "scan"
  | .tools => "tools"

/-- A value for each setting. -/
abbrev Settings := Setting → SettingValue

namespace Setting

/-- The group of a setting. -/
def group : Setting → Section
  | .name | .suffix | .encoding | .followLinks => .scan
  | .walker | .differ | .findCommand | .diffCommand => .tools

/-- The name of a setting in its group. -/
def key : Setting → String
  | .name => "name"
  | .suffix => "backup_suffix"
  | .encoding => "encoding"
  | .followLinks => "follow_symlinks"
  | .walker => "walker"
  | .differ => "differ"
  | .findCommand => "find_command"
  | .diffCommand => "diff_command"

/-- The settings, group by group. -/
def all : List Setting :=
  [.name, .suffix, .encoding, .followLinks, .walker, .differ, .findCommand, .diffCommand]

/-- The value of a setting unless another is given. -/
def default : Settings
  | .name => .text "*.tcl"
  | .suffix => .text "-original"
  | .encoding => .text "utf-8"
  | .followLinks => .flag true
  | .walker => .text "native"
  | .differ => .text "native"
  | .findCommand => .text "find"
  | .diffCommand => .text "diff -wu"

/-- The kind of a setting. -/
def kind (s : Setting) : SettingKind :=
  s.default.kind

/-- The variable of the environment for a setting. -/
def environmentName (s : Setting) : Text :=
  Text.ofString ("NSMODERNIZER_" ++ s.group.name.toUpper ++ "_" ++ s.key.toUpper)

/-- The value that a JSON value is for a setting, if it has the kind of the setting. -/
def ofJson? (s : Setting) (j : Json) : Option SettingValue :=
  match s.kind, j with
  | .flag, .bool b => some (.flag b)
  | .integer, .integer n => some (.integer n)
  | .text, .string t => some (.text t)
  | _, _ => none

/-- The value that a settings file gives to a setting. -/
def inFile? (s : Setting) (file : Json) : Option SettingValue :=
  (file.field? s.group.name).bind fun group => (group.field? s.key).bind s.ofJson?

end Setting

namespace Settings

/-- The text of a setting. -/
def text (settings : Settings) (s : Setting) : Text :=
  match settings s with
  | .text t => t
  | _ => []

/-- Whether a setting is set. -/
def isSet (settings : Settings) (s : Setting) : Bool :=
  settings s == .flag true

/-- The name of the settings file. -/
def fileName : Text := ".nsmodernizer.json"

/-- The settings that a file gives. -/
def ofFile (file : Json) : Settings := fun s =>
  (s.inFile? file).getD s.default

/-- Reads a settings file, if there is one. -/
def readFile? (path : Path) : Action (Option Json) := do
  if (← FileSystem.entry? path.text).isNone then return none
  let bytes ← FileSystem.read path.text
  let text ← Action.ofExcept .decode (Encoding.decodeStrict bytes)
  let json ← Action.ofExcept .json (Json.read text.unifyNewlines (← get).nesting)
  return some json

/-- Whether a failure only means that there are no settings in the file. -/
def isHarmless : Failure → Bool
  | .file _ => true
  | .json (.malformed _ _ _) => true
  | _ => false

/-- Reads a settings file; a file that is harmless to leave out is left out. -/
def loadFile (path : Path) : Action (Option Json) :=
  tryCatch (readFile? path) fun failure => do
    if isHarmless failure then
      Action.log .warning ["Could not load config file from ", path.text, ": ", failure.message]
      Action.log .info ["Continuing with default configuration"]
      return none
    else throw failure

/-- The value of a setting after the environment has been asked. -/
def fromEnvironment (s : Setting) (current : SettingValue) : Action SettingValue := do
  match (← get).environment.lookup s.environmentName with
  | none => return current
  | some t =>
    match s.kind.read t with
    | .ok value => return value
    | .error e =>
      Action.log .warning ["Invalid value for environment variable ", s.environmentName,
        ": '", t, "' - ", e.message]
      Action.log .info ["Using default value: ", current.show]
      return current

/-- Asks the environment for settings one after the other. -/
def askEnvironment : List Setting → Settings → Action Settings
  | [], settings => pure settings
  | s :: rest, settings => do
    let value ← fromEnvironment s (settings s)
    askEnvironment rest fun other => if other = s then value else settings other

/-- The settings for a directory. -/
def load (root : Text) : Action Settings := do
  let path := (Path.ofText root).child fileName
  let file ← loadFile path
  askEnvironment Setting.all (file.elim Setting.default ofFile)

end Settings

end Renewal
