import Renewal.Log.Line
import Renewal.Message.Fill
import Renewal.Text.Upper

/-! # Where log records go

The environment decides from which level on records are shown and whether they are shown as JSON on
the output or as readable lines among the errors, and names a file for records of level debug and
above.
-/

namespace Renewal.Log

/-- Where log records go. -/
structure Setup where
  /-- The least level that is shown. -/
  level : Level := .warning
  /-- Whether records are shown as JSON. -/
  json : Bool := false
  /-- The file for records. -/
  file : Option Text := none
  /-- The identifier of the request, if one is given. -/
  requestId : Option Text := none

/-- Why log records cannot be written. -/
inductive LogError where
  | unknownLevel (name : Text)
  | fill (e : Message.FillError)
deriving DecidableEq

/-- What is said if log records cannot be written. -/
def LogError.message : LogError → Text
  | .unknownLevel name => .concat ["Level '", name, "' does not exist"]
  | .fill e => e.message

/-- The level of a name. -/
def levelNamed (name : Text) : Except LogError Level :=
  match Level.ofName? name with
  | some level => .ok level
  | none => .error (.unknownLevel name)

/-- The setup that an environment asks for; empty names count as none. -/
def Setup.ofEnvironment (environment : List (Text × Text)) : Except LogError Setup := do
  let value? (name : String) : Option Text := environment.lookup (Text.ofString name)
  let named? (name : String) : Option Text := (value? name).filter fun t => !t.isEmpty
  let level ← levelNamed (Text.upper ((value? "NSMODERNIZER_LOG_LEVEL").getD "WARNING"))
  return { level
           json := value? "NSMODERNIZER_LOG_JSON" == some ("1" : Text)
           file := named? "NSMODERNIZER_LOG_FILE"
           requestId := named? "NSMODERNIZER_REQUEST_ID" }

/-- A record that is to be logged. -/
structure Entry where
  level : Text
  message : Text
  /-- What is known of the place where it is logged. -/
  bound : Fields := []
  /-- The values for its fields. -/
  values : Fields := []

/-- What has been written. -/
structure Written where
  output : List Text := []
  errors : List Text := []
  file : List Text := []

/-- The text that has been written among the errors. -/
def Written.errorText (w : Written) : Text :=
  w.errors.flatMap fun t => t ++ [('\n' : CodePoint)]

/-- A level as readable lines show it. -/
def paddedLevel (level : Level) : Text :=
  level.name ++ List.replicate (8 - level.name.length) (' ' : CodePoint)

/-- A readable line. -/
def readableLine (time place : Text) (level : Level) (message : Text) : Text :=
  .concat [time, " | ", paddedLevel level, " | ", place, " - ", message]

/-- The record that an entry makes at a time in a process. -/
def Entry.event (e : Entry) (message : Text) : Event :=
  let known := e.values.foldl (fun known (name, value) => Fields.set known name value) e.bound
  { level := e.level
    milliseconds := 0
    message
    process := .integer 0
    extra := known.map fun (name, value) => (name, .json value) }

/-- Whether records of a level are shown. -/
def Setup.shows (setup : Setup) (level : Level) : Bool :=
  setup.level.severity ≤ level.severity

/-- Whether records of a level are kept in a file. -/
def Setup.keeps (setup : Setup) (level : Level) : Bool :=
  setup.file.isSome && Level.debug.severity ≤ level.severity

/-- Logs one entry; `time` and `place` stand in readable lines. The fields of an entry that goes
nowhere are not filled. -/
def write (setup : Setup) (requestId time place : Text) (w : Written) (e : Entry) :
    Except LogError Written := do
  let level ← levelNamed e.level
  let shown := setup.shows level
  let kept := setup.keeps level
  if !shown && !kept then return w
  let message ← (Message.fill e.values e.message).mapError .fill
  let line := (e.event message).line requestId
  return { output := if shown ∧ setup.json then w.output ++ [line] else w.output
           errors := if shown ∧ !setup.json then
               w.errors ++ [readableLine time place level message] else w.errors
           file := if kept then w.file ++ [line] else w.file }

/-- Logs entries in order. -/
def writeAll (setup : Setup) (requestId time place : Text) (entries : List Entry) :
    Except LogError Written :=
  entries.foldlM (write setup requestId time place) {}

end Renewal.Log
